import SharedWorld.Move.Policy

/-!
# One move

A move resolves the zone it wants to enter, has the zone's policy ratify it, resolves the scene, and
commits: the body is put into the scene's place. It waits where a load is under way. The first thing
that goes wrong ends the move with a fault, and nothing after it is done. While a move is under way
it holds a reference on each cache entry it asked for; it gives them back after it has answered.
-/

namespace SharedWorld

/-- A request to move a body. -/
structure MoveRequest where
  entity : EntityId
  target : MoveTarget
  /-- The version of the target scene that the caller holds. -/
  version : SceneVersion
  listener : Listener
  deriving DecidableEq, Repr

/-- What a move waits for. -/
inductive Stage where
  | resolvingZone (resolution : Resolution CacheKey Bundle)
  /-- The zone is resolved and its policy has let the body in. -/
  | resolvingScene (zone : ZoneSummary) (resolution : Resolution CacheKey Bundle)
  deriving DecidableEq, Repr

/-- A move under way. -/
structure Flight where
  request : MoveRequest
  stage : Stage
  deriving DecidableEq, Repr

/-- The cache keys a move holds a reference on, in the order in which it took them. -/
def Flight.held (flight : Flight) : List CacheKey :=
  match flight.stage with
  | .resolvingZone _ => [.zone flight.request.target.zone]
  | .resolvingScene _ _ => [.zone flight.request.target.zone, .scene flight.request.target.scene]

/-- The fault of a request that needs the body of an entity that has none. -/
def Fault.noBody (entity : EntityId) : Fault := .internal ("no body for entity " ++ toString entity)

/-- Resolve a key and take a reference on its entry. -/
def Realm.acquire (realm : Realm) (key : CacheKey) : Resolution CacheKey Bundle × Realm :=
  let (resolution, cache) := realm.world.cache.resolve key
  (resolution, { realm with world := { realm.world with cache := (cache.retain key).2 } })

namespace MoveRequest

/-- Put the body of a request into the place of a scene model of a zone. -/
def commit (request : MoveRequest) (world : World) (zone : ZoneSummary) (model : SceneModel) :
    Answer × World :=
  if !zone.containsScene model.scene then (.failure .noSuchPlace, world)
  else
    let (place, world) := world.placeFor model
    match world.commitMove request.entity zone.zone place request.target.location with
    | (.error error, world) => (.failure (.internal error.message), world)
    | (.ok _, world) =>
      (.success (.moved
        { place := place
          zone := zone
          scene := model.scene
          location := request.target.location
          group := (model.findLocation request.target.location).bind (·.group)
          sceneUpdate := if request.version < model.version then some model else none
          occupants := ((world.place? place).map (·.occupants.values)).getD [] }), world)

/-- Answer a request, and give the references its move held back. -/
def finish (request : MoveRequest) (realm : Realm) (held : List CacheKey) (answer : Answer) :
    Realm :=
  { realm with
    world := held.foldl World.release (realm.world.record (.answer request.listener answer)) }

end MoveRequest

namespace Flight

/-- Take a flight on from the resolution of its scene. -/
def stepScene (request : MoveRequest) (zone : ZoneSummary)
    (resolution : Resolution CacheKey Bundle) (realm : Realm) : Option Flight × Realm :=
  let flight (resolution) : Flight := ⟨request, .resolvingScene zone resolution⟩
  match resolution.tryTake realm.world.cache with
  | (none, resolution) => (some (flight resolution), realm)
  | (some outcome, resolution) =>
    let held := (flight resolution).held
    match outcome.asScene with
    | .error _ => (none, request.finish realm held (.failure .noSuchPlace))
    | .ok model =>
      let (answer, world) := request.commit realm.world zone model
      let realm := request.finish { realm with world := world } held answer
      match answer with
      | .success _ => (none, realm.announce request.entity zone.zone)
      | .failure _ => (none, realm)

/-- Take a flight on from the resolution of its zone. -/
def stepZone (request : MoveRequest) (resolution : Resolution CacheKey Bundle) (realm : Realm) :
    Option Flight × Realm :=
  let flight (resolution) : Flight := ⟨request, .resolvingZone resolution⟩
  match resolution.tryTake realm.world.cache with
  | (none, resolution) => (some (flight resolution), realm)
  | (some outcome, resolution) =>
    let held := (flight resolution).held
    match outcome.asZone with
    | .error _ => (none, request.finish realm held (.failure .noSuchZone))
    | .ok zone =>
      match realm.world.body? request.entity with
      | none => (none, request.finish realm held (.failure (.noBody request.entity)))
      | some body =>
        match realm.ratify body zone with
        | (some reason, realm) => (none, request.finish realm held (.failure (.vetoed reason)))
        | (none, realm) =>
          let (resolution, realm) := realm.acquire (.scene request.target.scene)
          stepScene request zone resolution realm

/-- Take a flight on as far as it can go. The result is the flight if it waits for a load, and
nothing if it has answered. -/
def step (flight : Flight) (realm : Realm) : Option Flight × Realm :=
  match flight.stage with
  | .resolvingZone resolution => stepZone flight.request resolution realm
  | .resolvingScene zone resolution => stepScene flight.request zone resolution realm

/-- Begin a move and take it on as far as it can go. -/
def launch (request : MoveRequest) (realm : Realm) : Option Flight × Realm :=
  let (resolution, realm) := realm.acquire (.zone request.target.zone)
  stepZone request resolution realm

end Flight

end SharedWorld
