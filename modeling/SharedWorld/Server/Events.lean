import SharedWorld.Session.Basic
import SharedWorld.World.Body

/-!
# What happened during a tick

Each tick of the server reports the sessions that started, resumed, lost their connection or ended,
and the changes of bodies' locations. Each kind of event can be read once. Whether anything happened
at all stays as it was at the end of the tick.
-/

namespace SharedWorld

/-- The events of one tick, and which of them were not read yet. -/
structure ServerEvents where
  starts : List (SessionKey × Identity) := []
  resumes : List (SessionKey × Identity) := []
  disconnections : List (SessionKey × Identity × Option String) := []
  ends : List (SessionKey × Identity) := []
  changes : List BodyChange := []
  /-- Whether nothing happened. -/
  isEmpty : Bool := true
  deriving DecidableEq

namespace ServerEvents

/-- Add what happened to a session. -/
def push (events : ServerEvents) : SessionEvent → ServerEvents
  | .started key identity =>
    { events with starts := events.starts ++ [(key, identity)], isEmpty := false }
  | .resumed key identity =>
    { events with resumes := events.resumes ++ [(key, identity)], isEmpty := false }
  | .disconnected key identity cause =>
    { events with
      disconnections := events.disconnections ++ [(key, identity, cause)]
      isEmpty := false }
  | .ended key identity =>
    { events with ends := events.ends ++ [(key, identity)], isEmpty := false }

/-- Add changes of bodies' locations. -/
def pushChanges (events : ServerEvents) (changes : List BodyChange) : ServerEvents :=
  { events with
    changes := events.changes ++ changes
    isEmpty := events.isEmpty && changes.isEmpty }

/-- Read the sessions that started. -/
def readStarts (events : ServerEvents) : List (SessionKey × Identity) × ServerEvents :=
  (events.starts, { events with starts := [] })

/-- Read the sessions that resumed. -/
def readResumes (events : ServerEvents) : List (SessionKey × Identity) × ServerEvents :=
  (events.resumes, { events with resumes := [] })

/-- Read the sessions that lost their connection, and why. -/
def readDisconnections (events : ServerEvents) :
    List (SessionKey × Identity × Option String) × ServerEvents :=
  (events.disconnections, { events with disconnections := [] })

/-- Read the sessions that ended. -/
def readEnds (events : ServerEvents) : List (SessionKey × Identity) × ServerEvents :=
  (events.ends, { events with ends := [] })

/-- Read the changes of bodies' locations. -/
def readChanges (events : ServerEvents) : List BodyChange × ServerEvents :=
  (events.changes, { events with changes := [] })

end ServerEvents

end SharedWorld
