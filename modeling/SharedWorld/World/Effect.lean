import SharedWorld.Service.Router
import SharedWorld.World.Body

/-!
# Effects of the simulation

The simulation talks to its surroundings only through effects: messages for participants, answers to
requests, and the calls of zone policies and services. They are recorded in the order in which they
happen, and the messages among them are delivered in that order.
-/

namespace SharedWorld

/-- A call of a zone's policy. -/
inductive PolicyCall where
  /-- The policy was asked whether a body may enter a zone, and vetoed it or not. -/
  | ratified (body : Body) (zone : ZoneSummary) (veto : Option String)
  /-- The policy was told that a body entered a scene of a zone. -/
  | entered (body : Body) (zone : ZoneId)
  deriving DecidableEq, Repr

/-- What the simulation does to its surroundings. -/
inductive Effect where
  /-- A message is sent to a participant. -/
  | message (recipient : Identity) (content : ServerMessage)
  /-- A request is answered. -/
  | answer (listener : Listener) (result : Answer)
  /-- A zone's policy of the given name was called. -/
  | consulted (policy : Option String) (call : PolicyCall)
  /-- A handler of a service was run for a caller. -/
  | served (service : ServiceId) (layer : String) (method : MethodId) (caller : Identity)
  deriving DecidableEq, Repr

/-- The message an effect delivers, and to whom. -/
def Effect.delivery? : Effect → Option (Identity × ServerMessage)
  | .message recipient content => some (recipient, content)
  | .answer listener result => some (listener.caller, listener.response result)
  | _ => none

end SharedWorld
