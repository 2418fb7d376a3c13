import SharedWorld.Id

/-!
# Faults

What a caller is told when its request fails. A fault is its cause; its stable code, its
human-readable detail and its full text are read off the cause.
-/

namespace SharedWorld

/-- Why a request failed, as its caller sees it. -/
inductive Fault where
  /-- The connection that carried the request went away. -/
  | transport (reason : String)
  /-- No service is registered under the requested id. -/
  | unknownService (service : ServiceId)
  /-- No layer of the service handles the method. -/
  | unknownMethod (service : ServiceId) (method : MethodId)
  /-- The method exists, but the arguments do not fit it. -/
  | invalidArguments (method : MethodId) (reason : String)
  /-- The requested zone cannot be resolved. -/
  | noSuchZone
  /-- The requested scene cannot be resolved. Callers know scenes as places. -/
  | noSuchPlace
  /-- The zone's policy declined the entry. -/
  | vetoed (reason : String)
  /-- The client already has a transition under way. -/
  | alreadyPending
  /-- The move failed unexpectedly, and left nothing behind. -/
  | internal (reason : String)
  deriving DecidableEq, Repr

namespace Fault

/-- The fixed codes: all but that of a veto, whose code is its reason. -/
def codes : List String :=
  ["m.transport_fault", "m.unknown_service", "m.unknown_method", "m.invalid_arguments",
    "m.no_such_zone", "m.no_such_place", "m.already_pending", "m.internal_error"]

/-- The stable code of a fault. -/
def code : Fault → String
  | .transport _ => "m.transport_fault"
  | .unknownService _ => "m.unknown_service"
  | .unknownMethod _ _ => "m.unknown_method"
  | .invalidArguments _ _ => "m.invalid_arguments"
  | .noSuchZone => "m.no_such_zone"
  | .noSuchPlace => "m.no_such_place"
  | .vetoed reason => reason
  | .alreadyPending => "m.already_pending"
  | .internal _ => "m.internal_error"

/-- The detail of a fault, where it has one beyond its code. -/
def reason? : Fault → Option String
  | .transport reason | .invalidArguments _ reason | .internal reason => some reason
  | _ => none

/-- The full text of a fault. -/
def message : Fault → String
  | .transport reason => "Transport fault: " ++ reason
  | .unknownService service => "No service registered for service id " ++ toString service
  | .unknownMethod service method =>
    "Service " ++ toString service ++ " has no handler for method id " ++ toString method
  | .invalidArguments method reason =>
    "Malformed arguments for method " ++ toString method ++ ": " ++ reason
  | .noSuchZone => "No such zone"
  | .noSuchPlace => "No such place"
  | .vetoed reason => "Entry vetoed: " ++ reason
  | .alreadyPending => "A transition request is already pending"
  | .internal reason => "Internal error: " ++ reason

/-- Every fault but a veto has one of the fixed codes. -/
theorem code_mem_codes (fault : Fault) (h : ∀ reason, fault ≠ .vetoed reason) :
    fault.code ∈ codes := by
  cases fault with
  | vetoed reason => exact absurd rfl (h reason)
  | _ => simp [code, codes]

end Fault

end SharedWorld
