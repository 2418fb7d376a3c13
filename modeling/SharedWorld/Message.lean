import SharedWorld.Occupant
import SharedWorld.Scene

/-!
# Messages

A client sends requests to services. The server sends each client the responses to its requests,
the changes among the occupants around it, and orders to move elsewhere.
-/

namespace SharedWorld

/-- The service with the basic operations on locations. -/
def locationService : ServiceId := ⟨1, by decide⟩

/-- The service that moves bodies between scenes. It falls back on the location service. -/
def zoneService : ServiceId := ⟨2, by decide⟩

/-- The method that leaves the occupied place. It takes no arguments. -/
def leavePlaceMethod : MethodId := ⟨1, by decide⟩

/-- The method that moves to a scene of a zone. Its arguments are those of a move target. -/
def moveToMethod : MethodId := ⟨2, by decide⟩

/-- The reply to a move that succeeded. -/
structure MoveReply where
  place : PlaceId
  zone : ZoneSummary
  scene : SceneId
  location : LocationId
  /-- The group of the confirmed location. -/
  group : Option GroupId
  /-- The scene model, if the caller's version of it was out of date. -/
  sceneUpdate : Option SceneModel
  /-- The occupants of the place right after the move. -/
  occupants : List OccupantInfo
  deriving DecidableEq, Repr

/-- What a request that succeeded brings. -/
inductive Reply where
  /-- Nothing but the success. -/
  | ack
  /-- A completed move. -/
  | moved (reply : MoveReply)
  /-- Values of an application's service. -/
  | values (values : List Argument)
  deriving DecidableEq, Repr

/-- How a request ended. -/
inductive Answer where
  | success (reply : Reply)
  | failure (fault : Fault)
  deriving DecidableEq, Repr

/-- The invocation of a method of a service. -/
structure Request where
  request : RequestId
  service : ServiceId
  method : MethodId
  args : List Argument
  deriving DecidableEq, Repr

/-- The terminal reply to a request. -/
structure Response where
  request : RequestId
  answer : Answer
  deriving DecidableEq, Repr

/-- What the server sends to a session. -/
inductive ServerMessage where
  /-- The reply to a request of the session. -/
  | response (response : Response)
  /-- A change among the occupants of a place the session is in or has just left. -/
  | occupants (place : PlaceId) (delta : OccupantDelta)
  /-- The session's body was taken out of its place; the client shall move to the given scene. -/
  | forcedMove (zone : ZoneId) (scene : SceneId)
  deriving DecidableEq, Repr

end SharedWorld
