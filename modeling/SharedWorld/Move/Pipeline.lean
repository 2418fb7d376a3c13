import SharedWorld.Move.Flight

/-!
# Moves under way

A body has at most one move under way. The requests that arrive meanwhile wait in a queue, and are
begun one after the other, in the order of their arrival, as the move before each is answered.
-/

namespace SharedWorld

/-- The moves of all bodies. -/
structure Pipeline where
  /-- The move each body has under way. -/
  inFlight : Table EntityId Flight := Table.empty
  /-- The requests that wait behind it, the oldest first. -/
  queued : Table EntityId (List MoveRequest) := Table.empty

/-- How far a queue of requests of one body came. -/
structure Launch where
  /-- How many requests were answered. -/
  finished : Nat
  /-- The move that waits for a load, if one does. -/
  parked : Option Flight
  /-- The requests behind it. -/
  remaining : List MoveRequest
  realm : Realm

/-- Begin the requests of a queue, each after the one before it is answered, until one waits. -/
def Launch.run (realm : Realm) : List MoveRequest → Launch
  | [] => ⟨0, none, [], realm⟩
  | request :: rest =>
    match Flight.launch request realm with
    | (some flight, realm) => ⟨0, some flight, rest, realm⟩
    | (none, realm) =>
      let launch := Launch.run realm rest
      { launch with finished := launch.finished + 1 }

namespace Pipeline

/-- A pipeline without moves. -/
def empty : Pipeline := {}

instance : Inhabited Pipeline := ⟨empty⟩

/-- Whether a body has a move under way. -/
def isMoving (pipeline : Pipeline) (entity : EntityId) : Bool := pipeline.inFlight.contains entity

/-- The number of moves under way. -/
def inFlightCount (pipeline : Pipeline) : Nat := pipeline.inFlight.size

/-- The requests that wait behind the move of a body. -/
def queueOf (pipeline : Pipeline) (entity : EntityId) : List MoveRequest :=
  (pipeline.queued.get? entity).getD []

/-- The number of requests that wait behind the move of a body. -/
def queuedCount (pipeline : Pipeline) (entity : EntityId) : Nat := (pipeline.queueOf entity).length

/-- Make `requests` the queue of a body. -/
def setQueue (pipeline : Pipeline) (entity : EntityId) (requests : List MoveRequest) : Pipeline :=
  { pipeline with queued :=
      if requests.isEmpty then pipeline.queued.erase entity
      else pipeline.queued.insert entity requests }

/-- Begin requests of a body that has no move under way. The result counts those that were
answered. -/
def start (pipeline : Pipeline) (realm : Realm) (entity : EntityId)
    (requests : List MoveRequest) : Nat × Pipeline × Realm :=
  let launch := Launch.run realm requests
  let pipeline := pipeline.setQueue entity launch.remaining
  match launch.parked with
  | some flight =>
    (launch.finished, { pipeline with inFlight := pipeline.inFlight.insert entity flight },
      launch.realm)
  | none => (launch.finished, pipeline, launch.realm)

/-- Begin a request, or queue it behind the move its body has under way. -/
def begin (pipeline : Pipeline) (realm : Realm) (request : MoveRequest) : Pipeline × Realm :=
  let queue := pipeline.queueOf request.entity
  if pipeline.isMoving request.entity then
    (pipeline.setQueue request.entity (queue ++ [request]), realm)
  else (pipeline.start realm request.entity (request :: queue)).2

/-- Take the move of a body on. If it is answered, the requests behind it are begun. The result
counts the requests that were answered. -/
def advanceBody (pipeline : Pipeline) (realm : Realm) (entity : EntityId) :
    Nat × Pipeline × Realm :=
  match pipeline.inFlight.get? entity with
  | none => (0, pipeline, realm)
  | some flight =>
    match flight.step realm with
    | (some flight, realm) =>
      (0, { pipeline with inFlight := pipeline.inFlight.insert entity flight }, realm)
    | (none, realm) =>
      let pipeline := { pipeline with inFlight := pipeline.inFlight.erase entity }
      let (finished, pipeline, realm) := pipeline.start realm entity (pipeline.queueOf entity)
      (finished + 1, pipeline, realm)

/-- Take the moves of the given bodies on, in that order. -/
def advanceIn (pipeline : Pipeline) (realm : Realm) : List EntityId → Nat × Pipeline × Realm
  | [] => (0, pipeline, realm)
  | entity :: rest =>
    let (finished, pipeline, realm) := pipeline.advanceBody realm entity
    let (others, pipeline, realm) := pipeline.advanceIn realm rest
    (finished + others, pipeline, realm)

/-- Take every move under way on. The result counts the requests that were answered. -/
def advance (pipeline : Pipeline) (realm : Realm) : Nat × Pipeline × Realm :=
  pipeline.advanceIn realm pipeline.inFlight.keys

end Pipeline

end SharedWorld
