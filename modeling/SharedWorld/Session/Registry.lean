import SharedWorld.Session.Basic

/-!
# The session registry

The registry binds identities to sessions and connections to identities. A participant that connects
again resumes its session; the connection it had before, if any, is superseded. A session ends when
it is ended explicitly, or when it has been without a connection for the grace period. Every change
emits an event, in the order of the changes.
-/

namespace SharedWorld

/-- The sessions of all participants, and the connections they are bound to. -/
structure Registry where
  sessions : Table Identity Session := Table.empty
  connections : Table ConnectionId Identity := Table.empty
  keys : IdGenerator .session := {}
  /-- The mailboxes of all connections ever made, the oldest first. -/
  mailboxes : List Mailbox := []
  /-- The events that were not taken yet, the oldest first. -/
  events : List SessionEvent := []

namespace Registry

/-- A registry without sessions. -/
def empty : Registry := {}

instance : EmptyCollection Registry := ⟨empty⟩

/-! ## Queries -/

/-- The session of an identity. -/
def session? (registry : Registry) (identity : Identity) : Option Session :=
  registry.sessions.get? identity

/-- The identity whose session a connection is bound to. -/
def identityFor? (registry : Registry) (connection : ConnectionId) : Option Identity :=
  registry.connections.get? connection

/-- The number of sessions. -/
def sessionCount (registry : Registry) : Nat := registry.sessions.size

/-- The number of sessions with a connection. -/
def activeCount (registry : Registry) : Nat := registry.sessions.values.countP (·.isActive)

/-! ## Changes -/

/-- Emit an event. -/
def emit (registry : Registry) (event : SessionEvent) : Registry :=
  { registry with events := registry.events ++ [event] }

/-- Take the events that were emitted since the last time. -/
def takeEvents (registry : Registry) : List SessionEvent × Registry :=
  (registry.events, { registry with events := [] })

/-- Register a session under its identity. -/
def put (registry : Registry) (session : Session) : Registry :=
  { registry with sessions := registry.sessions.insert session.identity session }

/-- The session loses its connection. -/
def lose (registry : Registry) (now : Instant) (session : Session) (cause : Option String) :
    Registry :=
  (registry.put (session.unmap now)).emit (.disconnected session.key session.identity cause)

/-- Forget whom a connection belonged to, as `identity` is about to use its id. A different
participant bound to it loses its connection. -/
def vacate (registry : Registry) (now : Instant) (connection : ConnectionId)
    (identity : Identity) : Registry :=
  match registry.connections.get? connection with
  | none => registry
  | some previous =>
    let registry := { registry with connections := registry.connections.erase connection }
    if previous = identity then registry
    else
      match registry.sessions.get? previous with
      | some session =>
        if session.connection? = some connection then
          registry.lose now session (some "connection reused")
        else registry
      | none => registry

/-- Bind the session of `identity` to a connection: resume it, or start one if there is none. -/
def bind (registry : Registry) (identity : Identity) (handle : ConnectionHandle) :
    SessionKey × Registry :=
  match registry.sessions.get? identity with
  | some session =>
    let (superseded?, session) := session.resume handle
    let connections := match superseded? with
      | some superseded =>
        if superseded.id = handle.id then registry.connections
        else registry.connections.erase superseded.id
      | none => registry.connections
    let registry := { registry with connections := connections }
    (session.key, (registry.put session).emit (.resumed session.key identity))
  | none =>
    let (key, keys) := registry.keys.generate
    let registry := { registry with keys := keys }
    (key, (registry.put (.start key identity handle)).emit (.started key identity))

/-- A participant's connection is established, with a new mailbox. The result is the key of its
session. -/
def connect (registry : Registry) (now : Instant) (connection : ConnectionId)
    (identity : Identity) (capacity : Option Nat) : SessionKey × Registry :=
  let handle : ConnectionHandle := ⟨connection, registry.mailboxes.length⟩
  let mailbox : Mailbox := { connection := connection, capacity := capacity }
  let registry := { registry with mailboxes := registry.mailboxes ++ [mailbox] }
  let (key, registry) := (registry.vacate now connection identity).bind identity handle
  (key, { registry with connections := registry.connections.insert connection identity })

/-- A connection went away, by being closed or for the given cause. Only the connection that the
session is bound to matters. -/
def disconnect (registry : Registry) (now : Instant) (connection : ConnectionId)
    (cause : Option String) : Registry :=
  match registry.connections.get? connection with
  | none => registry
  | some identity =>
    let registry := { registry with connections := registry.connections.erase connection }
    match registry.sessions.get? identity with
    | none => registry
    | some session =>
      if session.connection? = some connection then registry.lose now session cause else registry

/-- End a registered session. The event is told of the session as it is then. -/
def finish (registry : Registry) (session : Session) : Registry :=
  let connections := match session.connection? with
    | some connection => registry.connections.erase connection
    | none => registry.connections
  let registry := { registry with
    sessions := registry.sessions.erase session.identity
    connections := connections }
  let session := session.close
  registry.emit (.ended session.key session.identity)

/-- End the session that a snapshot was taken of. A session that has another key, or that was
resumed since a snapshot was taken while it waited, stays. -/
def endSnapshot (registry : Registry) (snapshot : Session) : Registry :=
  match registry.sessions.get? snapshot.identity with
  | none => registry
  | some session =>
    if session.key ≠ snapshot.key then registry
    else if snapshot.state = .disconnectedGrace &&
        session.disconnectedAt? ≠ snapshot.disconnectedAt? then registry
    else registry.finish session

/-- End the session of an identity. The result is false if there is none. -/
def endSession (registry : Registry) (identity : Identity) : Bool × Registry :=
  match registry.session? identity with
  | none => (false, registry)
  | some session => (true, registry.endSnapshot session)

/-- The sessions in the order in which they are visited: those of the given participants first, one
after the other, and then all others. -/
def visit : List Identity → List Session → List Session
  | [], sessions => sessions
  | identity :: order, sessions =>
    sessions.filter (·.identity = identity) ++
      visit order (sessions.filter (·.identity ≠ identity))

/-- The sessions that have been without a connection for at least `grace`, in the order in which
they are visited. -/
def expired (registry : Registry) (order : List Identity) (now : Instant) (grace : Duration) :
    List Session :=
  visit order (registry.sessions.values.filter (·.hasExpired now grace))

/-- End every session that has been without a connection for at least `grace`. The result lists
their identities. Nothing tells in which order sessions are visited, so it is given. -/
def expireIn (registry : Registry) (order : List Identity) (now : Instant) (grace : Duration) :
    List Identity × Registry :=
  let expired := registry.expired order now grace
  (expired.map (·.identity), expired.foldl finish registry)

/-- End every session that has been without a connection for at least `grace`, in the order of
their identities. -/
def expire (registry : Registry) (now : Instant) (grace : Duration) : List Identity × Registry :=
  registry.expireIn [] now grace

/-! ## Messages -/

/-- Put a message into the mailbox with the given number. The result is false if it takes none. -/
def post (registry : Registry) (mailbox : Nat) (message : ServerMessage) : Bool × Registry :=
  match registry.mailboxes[mailbox]? with
  | none => (false, registry)
  | some box =>
    if box.accepts then
      (true, { registry with mailboxes :=
        registry.mailboxes.set mailbox { box with messages := box.messages ++ [message] } })
    else (false, registry)

/-- Send a message to the session of an identity. -/
def send (registry : Registry) (identity : Identity) (message : ServerMessage) :
    Except SendError Unit × Registry :=
  match registry.sessions.get? identity with
  | none => (.error (.noSession identity), registry)
  | some session =>
    match session.handle? with
    | none => (.error (.disconnected identity), registry)
    | some handle =>
      match registry.post handle.mailbox message with
      | (true, registry) => (.ok (), registry)
      | (false, registry) => (.error (.channelClosed identity), registry)

/-- Read everything that was sent to the connections with the given id, the oldest connection
first. -/
def drain (registry : Registry) (connection : ConnectionId) : List ServerMessage × Registry :=
  ((registry.mailboxes.filter (·.connection = connection)).flatMap (·.messages),
    { registry with mailboxes := registry.mailboxes.map fun box =>
        if box.connection = connection then { box with messages := [] } else box })

/-- Stop reading the mailboxes of the connections with the given id. The result is false if none was
being read. -/
def hangUp (registry : Registry) (connection : ConnectionId) : Bool × Registry :=
  (registry.mailboxes.any fun box => box.connection = connection && box.isOpen,
    { registry with mailboxes := registry.mailboxes.map fun box =>
        if box.connection = connection then { box with isOpen := false, messages := [] }
        else box })

end Registry

end SharedWorld
