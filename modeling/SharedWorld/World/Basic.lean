import SharedWorld.Cache.Resolution
import SharedWorld.World.Effect

/-!
# The world

The world holds every body and every place, and the cache their zones and scenes come from. A scene
has at most one place, which is made when it is first needed and dropped when its last occupant
leaves. Each occupant of a place holds a reference on the cache entries of its zone and its scene.
A move checks all its conditions before it changes anything.
-/

namespace SharedWorld

/-- The live host of the occupants of a scene. -/
structure Place where
  id : PlaceId
  zone : ZoneId
  scene : SceneId
  /-- How many occupants it holds at most, if there is a bound. -/
  capacity : Option Nat
  occupants : OccupantSet := Table.empty
  deriving DecidableEq

/-- Whether the place takes no further occupant. -/
def Place.isFull (place : Place) : Bool := place.capacity.any (· ≤ place.occupants.size)

/-- Why a move into a place was refused. -/
inductive CommitError where
  /-- The body does not exist any more. -/
  | noSuchBody (entity : EntityId)
  /-- The place does not exist any more. -/
  | noSuchPlace (place : PlaceId)
  /-- The place holds as many occupants as it can. -/
  | placeFull (place : PlaceId) (capacity : Nat)
  deriving DecidableEq, Repr

/-- The text of a refusal. -/
def CommitError.message : CommitError → String
  | .noSuchBody entity => "No body for entity " ++ toString entity
  | .noSuchPlace place => "No place with id " ++ toString place
  | .placeFull place capacity =>
    "Place " ++ toString place ++ " is full (" ++ toString capacity ++ " occupants)"

/-- All bodies and places. -/
structure World where
  bodies : Table EntityId Body := Table.empty
  /-- The entity of each participant's body. -/
  entities : Table Identity EntityId := Table.empty
  places : Table PlaceId Place := Table.empty
  /-- The place of each scene that has one. -/
  hosts : Table SceneId PlaceId := Table.empty
  cache : Cache CacheKey Bundle
  entityIds : IdGenerator .entity := {}
  placeIds : IdGenerator .place := {}
  /-- The changes of locations that were not taken yet, the oldest first. -/
  changes : List BodyChange := []
  /-- What was done to the surroundings and was not taken yet, the oldest first. -/
  effects : List Effect := []

namespace World

/-- A world without bodies and places. -/
def new (idleCapacity : Nat) (loader : Loader CacheKey Bundle) : World :=
  { cache := .new idleCapacity loader }

/-! ## Queries -/

/-- The entity of a participant's body. -/
def entityFor? (world : World) (identity : Identity) : Option EntityId :=
  world.entities.get? identity

/-- The body of an entity. -/
def body? (world : World) (entity : EntityId) : Option Body := world.bodies.get? entity

/-- The body of a participant. -/
def bodyFor? (world : World) (identity : Identity) : Option Body :=
  (world.entityFor? identity).bind world.body?

/-- The place with the given id. -/
def place? (world : World) (place : PlaceId) : Option Place := world.places.get? place

/-- The place of a scene. -/
def host? (world : World) (scene : SceneId) : Option PlaceId := world.hosts.get? scene

/-! ## Records -/

/-- Record an effect. -/
def record (world : World) (effect : Effect) : World :=
  { world with effects := world.effects ++ [effect] }

/-- Take the effects recorded since the last time. -/
def takeEffects (world : World) : List Effect × World :=
  (world.effects, { world with effects := [] })

/-- Take the changes of locations since the last time. -/
def takeChanges (world : World) : List BodyChange × World :=
  (world.changes, { world with changes := [] })

/-- Take a reference on a cache entry, if it exists. -/
def retain (world : World) (key : CacheKey) : World :=
  { world with cache := (world.cache.retain key).2 }

/-- Give a reference on a cache entry back. -/
def release (world : World) (key : CacheKey) : World :=
  { world with cache := world.cache.release key }

/-- Send a delta to the occupants of a place, and to one more participant if given. -/
def broadcast (world : World) (place : PlaceId) (delta : SetDelta) (also : Option Identity) :
    World :=
  match world.places.get? place with
  | none => world
  | some host =>
    let occupants := host.occupants.identities
    let others := also.toList.filter fun identity => !occupants.contains identity
    let message := ServerMessage.occupants place (.ofOccupants delta)
    { world with effects := world.effects ++ (occupants ++ others).map (Effect.message · message) }

/-! ## Places -/

/-- The place of a scene, which is made if there is none. A place keeps the capacity of the model it
was made from. -/
def placeFor (world : World) (model : SceneModel) : PlaceId × World :=
  match world.hosts.get? model.scene with
  | some place => (place, world)
  | none =>
    let (place, placeIds) := world.placeIds.generate
    (place, { world with
      places := world.places.insert place
        { id := place, zone := model.zone, scene := model.scene, capacity := model.capacity }
      hosts := world.hosts.insert model.scene place
      placeIds := placeIds })

/-- Change the occupants of a place. -/
def changeOccupants (world : World) (place : PlaceId) (f : OccupantSet → OccupantSet) : World :=
  { world with places := world.places.modify place fun host =>
      { host with occupants := f host.occupants } }

/-- Drop a place that has no occupants. -/
def dropIfEmpty (world : World) (place : PlaceId) : World :=
  match world.places.get? place with
  | none => world
  | some host =>
    if host.occupants.isEmpty then
      { world with
        places := world.places.erase place
        hosts :=
          if world.hosts.get? host.scene = some place then world.hosts.erase host.scene
          else world.hosts }
    else world

/-- Undo a body's stay in the place it was in before a change: it is no occupant any more, all
occupants and the body's participant are told, its references are given back, and the place is
dropped if it is empty now. -/
def vacate (world : World) (change : BodyChange) : World :=
  match change.before with
  | .inside zone scene place _ =>
    match world.places.get? place with
    | none => world
    | some _ =>
      ((((world.changeOccupants place (Table.erase · change.entity)).broadcast place
        (.removed change.entity) (some change.identity)).release (.zone zone)).release
          (.scene scene)).dropIfEmpty place
  | _ => world

/-! ## Bodies -/

/-- Put the body of a change where the change takes it. -/
def relocate (world : World) (body : Body) (after : BodyLocation) : World :=
  { world with bodies := world.bodies.insert body.entity { body with location := after } }

/-- Note a change of a body's location. -/
def note (world : World) (change : BodyChange) : World :=
  { world with changes := world.changes ++ [change] }

/-- The body of a participant whose session started. A participant that has one keeps it. -/
def createBody (world : World) (identity : Identity) : EntityId × World :=
  match world.entities.get? identity with
  | some entity => (entity, world)
  | none =>
    let (entity, entityIds) := world.entityIds.generate
    (entity, { world with
      bodies := world.bodies.insert entity { entity := entity, identity := identity }
      entities := world.entities.insert identity entity
      entityIds := entityIds })

/-- Take a body out of the place it is in. It keeps its zone and its scene. The result is nothing if
it is in no place. -/
def leavePlace (world : World) (entity : EntityId) : Option BodyChange × World :=
  match world.bodies.get? entity with
  | none => (none, world)
  | some body =>
    match body.location.place? with
    | none => (none, world)
    | some _ =>
      let change := body.changeTo body.location.leave
      (some change, ((world.relocate body change.after).vacate change).note change)

/-- Remove the body of a participant whose session ended, after taking it out of its place. -/
def removeBody (world : World) (identity : Identity) : Option Body × World :=
  match world.entities.get? identity with
  | none => (none, world)
  | some entity =>
    let world := { world with entities := world.entities.erase identity }
    let (_, world) := world.leavePlace entity
    (world.bodies.get? entity, { world with bodies := world.bodies.erase entity })

/-- Mark a participant's body active or disconnected, and tell its place. -/
def setStatus (world : World) (identity : Identity) (status : OccupantStatus) : World :=
  match world.bodyFor? identity with
  | none => world
  | some body =>
    if body.status = status then world
    else
      let body := { body with status := status }
      let world := { world with bodies := world.bodies.insert body.entity body }
      match body.location.place? with
      | none => world
      | some place =>
        let info := body.occupantInfo
        (world.changeOccupants place (OccupantSet.update · info)).broadcast place (.updated info)
          none

/-- Move a body into a place, or to another location of the place it is in. A refused move changes
nothing, except that a place nobody is in is dropped. -/
def commitMove (world : World) (entity : EntityId) (zone : ZoneId) (place : PlaceId)
    (location : LocationId) : Except CommitError BodyChange × World :=
  match world.bodies.get? entity with
  | none => (.error (.noSuchBody entity), world.dropIfEmpty place)
  | some body =>
    match world.places.get? place with
    | none => (.error (.noSuchPlace place), world)
    | some host =>
      let change := body.changeTo (.inside zone host.scene place location)
      let info := { body with location := change.after }.occupantInfo
      if body.location.place? = some place then
        let world := (world.relocate body change.after).changeOccupants place
          (OccupantSet.update · info)
        (.ok change, (world.broadcast place (.updated info) none).note change)
      else if host.isFull then
        (.error (.placeFull place (host.capacity.getD 0)), world.dropIfEmpty place)
      else
        let world := ((world.relocate body change.after).vacate change).changeOccupants place
          (OccupantSet.put · info)
        let world := (world.retain (.zone zone)).retain (.scene host.scene)
        (.ok change, (world.broadcast place (.added info) none).note change)

end World

end SharedWorld
