import SharedWorld.Message

/-!
# Sessions

A participant has a session that outlives its connections. It is started with one; when it loses it,
it notes the instant of the loss and waits for the participant to connect again. A connection is the
writing end of a mailbox, which the transport drains.
-/

namespace SharedWorld

/-- An instant, in nanoseconds since some fixed one. -/
abbrev Instant := Nat

/-- A length of time, in nanoseconds. -/
abbrev Duration := Nat

/-- The number of nanoseconds in a millisecond. -/
def nanosecondsPerMillisecond : Nat := 1000000

/-- A mailbox between the server and the writer of one connection. -/
structure Mailbox where
  connection : ConnectionId
  /-- How many messages it holds at most, if there is a bound. -/
  capacity : Option Nat
  /-- Whether the transport still reads it. -/
  isOpen : Bool := true
  /-- The messages that were not read yet, the oldest first. -/
  messages : List ServerMessage := []
  deriving DecidableEq, Repr

/-- Whether a message can be put into the mailbox. -/
def Mailbox.accepts (mailbox : Mailbox) : Bool :=
  mailbox.isOpen && mailbox.capacity.all (mailbox.messages.length < ·)

/-- A connection a session is bound to: its id, and the number of the mailbox to write to. -/
structure ConnectionHandle where
  id : ConnectionId
  mailbox : Nat
  deriving DecidableEq, Repr

/-- How a session stands. -/
inductive SessionState where
  | active
  /-- The connection went away; the session waits for its participant to connect again. -/
  | disconnectedGrace
  | ended
  deriving DecidableEq, Repr

/-- A participant's session. -/
structure Session where
  key : SessionKey
  identity : Identity
  /-- The connection the session is bound to. -/
  handle? : Option ConnectionHandle
  state : SessionState
  /-- The instant at which the session lost its last connection. -/
  disconnectedAt? : Option Instant
  deriving DecidableEq, Repr

namespace Session

/-- The session of a participant that connects for the first time. -/
def start (key : SessionKey) (identity : Identity) (handle : ConnectionHandle) : Session :=
  { key := key
    identity := identity
    handle? := some handle
    state := .active
    disconnectedAt? := none }

/-- Bind the session to a new connection. The result tells which one it was bound to until then. -/
def resume (session : Session) (handle : ConnectionHandle) : Option ConnectionHandle × Session :=
  (session.handle?,
    { session with handle? := some handle, state := .active, disconnectedAt? := none })

/-- Take the connection from the session. -/
def unmap (session : Session) (now : Instant) : Session :=
  { session with handle? := none, state := .disconnectedGrace, disconnectedAt? := some now }

/-- End the session. It keeps the instant at which it lost its last connection. -/
def close (session : Session) : Session := { session with handle? := none, state := .ended }

/-- Whether the session is active. -/
def isActive (session : Session) : Bool := session.state = .active

/-- The id of the connection the session is bound to. -/
def connection? (session : Session) : Option ConnectionId := session.handle?.map (·.id)

/-- Whether the session has been without a connection for at least `grace` at the instant `now`. -/
def hasExpired (session : Session) (now : Instant) (grace : Duration) : Bool :=
  session.state = .disconnectedGrace &&
    session.disconnectedAt?.any fun since => grace ≤ now - since

end Session

/-- What happens to a session in its life. -/
inductive SessionEvent where
  | started (key : SessionKey) (identity : Identity)
  | resumed (key : SessionKey) (identity : Identity)
  /-- The connection was closed, or failed for the given cause. -/
  | disconnected (key : SessionKey) (identity : Identity) (cause : Option String)
  | ended (key : SessionKey) (identity : Identity)
  deriving DecidableEq, Repr

/-- The identity whose session an event is about. -/
def SessionEvent.identity : SessionEvent → Identity
  | .started _ identity | .resumed _ identity | .disconnected _ identity _ | .ended _ identity =>
    identity

/-- Why a message cannot be delivered to a session. -/
inductive SendError where
  /-- There is no session for the identity. -/
  | noSession (identity : Identity)
  /-- The session has no connection at present. -/
  | disconnected (identity : Identity)
  /-- The connection's mailbox takes no more messages. -/
  | channelClosed (identity : Identity)
  deriving DecidableEq, Repr

/-- The text of a delivery error. -/
def SendError.message : SendError → String
  | .noSession identity => "No session registered for " ++ identity.name
  | .disconnected identity => "Session for " ++ identity.name ++ " is disconnected"
  | .channelClosed identity => "Outbound channel for " ++ identity.name ++ " is closed"

end SharedWorld
