import SharedWorld.Message

/-!
# Bodies

A body is the server's record of a participant. Where it is, is always replaced as a whole, so a
zone of one move never stands beside a scene of another.
-/

namespace SharedWorld

/-- Where a body is. -/
inductive BodyLocation where
  /-- It has not been anywhere. -/
  | nowhere
  /-- It left the place it was in, and keeps the zone and the scene. -/
  | vacated (zone : ZoneId) (scene : SceneId)
  /-- It is in a place. -/
  | inside (zone : ZoneId) (scene : SceneId) (place : PlaceId) (location : LocationId)
  deriving DecidableEq, Repr

namespace BodyLocation

/-- The zone a body is in, or was in last. -/
def zone? : BodyLocation → Option ZoneId
  | .nowhere => none
  | .vacated zone _ | .inside zone _ _ _ => some zone

/-- The scene a body is in, or was in last. -/
def scene? : BodyLocation → Option SceneId
  | .nowhere => none
  | .vacated _ scene | .inside _ scene _ _ => some scene

/-- The place a body is in. -/
def place? : BodyLocation → Option PlaceId
  | .nowhere | .vacated _ _ => none
  | .inside _ _ place _ => some place

/-- The location of the scene a body stands at. -/
def location? : BodyLocation → Option LocationId
  | .nowhere | .vacated _ _ => none
  | .inside _ _ _ location => some location

/-- The same zone and scene, out of any place. -/
def leave : BodyLocation → BodyLocation
  | .inside zone scene _ _ => .vacated zone scene
  | other => other

end BodyLocation

/-- The record of a participant. -/
structure Body where
  entity : EntityId
  identity : Identity
  location : BodyLocation := .nowhere
  status : OccupantStatus := .active
  deriving DecidableEq, Repr

/-- What a place publishes of a body. -/
def Body.occupantInfo (body : Body) : OccupantInfo :=
  ⟨body.entity, body.identity, body.status, body.location.location?⟩

/-- A change of a body's location. -/
structure BodyChange where
  entity : EntityId
  identity : Identity
  before : BodyLocation
  after : BodyLocation
  deriving DecidableEq, Repr

/-- Whether a change took the body into or out of a place. -/
def BodyChange.changedPlace (change : BodyChange) : Bool :=
  change.before.place? ≠ change.after.place?

/-- The change that takes a body to a location. -/
def Body.changeTo (body : Body) (after : BodyLocation) : BodyChange :=
  ⟨body.entity, body.identity, body.location, after⟩

end SharedWorld
