import SharedWorld.Proofs.Histories
import SharedWorld.Proofs.Mailboxes

/-!
# Sessions and their connections

Whatever happens to a registry is a chain of changes of single sessions, each of which emits one
event (`Registry.Paired.act_changes`). What a change does to the two tables and to the keys is said
once (`Registry.Change`). So the tables stay inverse to each other, each session has either a
connection or the instant at which it lost it, and no key is issued twice (`Registry.run_coherent`).
-/

namespace SharedWorld

/-! ## Changes of one session -/

/-- A session is active, with a connection, or waits for its participant since it lost the last one.
It has not ended. -/
def Session.Present (session : Session) : Prop :=
  session.state = .active ∧ session.handle?.isSome = true ∧ session.disconnectedAt? = none ∨
    session.state = .disconnectedGrace ∧ session.handle? = none ∧
      session.disconnectedAt?.isSome = true

/-- A session that is present has not ended. -/
theorem Session.Present.not_ended {session : Session} (h : session.Present) :
    session.state ≠ .ended := by
  rcases h with ⟨hactive, -⟩ | ⟨hgrace, -⟩
  · simp [hactive]
  · simp [hgrace]

/-- A session with a connection is active. -/
theorem Session.Present.active {session : Session} (h : session.Present)
    {connection : ConnectionId} (hbound : session.connection? = some connection) :
    session.state = .active ∧ session.disconnectedAt? = none := by
  rcases h with ⟨hactive, -, hat⟩ | ⟨-, hnone, -⟩
  · exact ⟨hactive, hat⟩
  · rw [connection?, hnone] at hbound
    cases hbound

/-- What can become of the session of one participant, with the event that tells it and the
generator of keys before and after. -/
inductive Session.Turn (identity : Identity) (keys : IdGenerator .session) :
    Option Session → SessionEvent → IdGenerator .session → Option Session → Prop
  | started (handle : ConnectionHandle) :
    Turn identity keys none (.started keys.peek identity) keys.generate.2
      (some (.start keys.peek identity handle))
  | resumed (session : Session) (handle : ConnectionHandle) :
    Turn identity keys (some session) (.resumed session.key identity) keys
      (some (session.resume handle).2)
  | disconnected {session : Session} {connection : ConnectionId}
    (bound : session.connection? = some connection) (now : Instant) (cause : Option String) :
    Turn identity keys (some session) (.disconnected session.key identity cause) keys
      (some (session.unmap now))
  | ended (session : Session) :
    Turn identity keys (some session) (.ended session.key identity) keys none

/-- The key that a session is started with. -/
def SessionEvent.issued? : SessionEvent → Option SessionKey
  | .started key _ => some key
  | _ => none

/-- A session keeps its key, which is the next one of the generator when the session starts. -/
theorem Session.Turn.issued {identity : Identity} {keys keys' : IdGenerator .session}
    {before after : Option Session} {event : SessionEvent}
    (turn : Session.Turn identity keys before event keys' after) :
    (event.issued? = some keys.peek ∧ keys' = keys.generate.2 ∧
        ∀ session, after = some session → session.key = keys.peek) ∨
      (event.issued? = none ∧ keys' = keys ∧ ∀ session, after = some session →
        ∃ old, before = some old ∧ session.key = old.key) := by
  cases turn with
  | started handle =>
    refine .inl ⟨rfl, rfl, fun session hafter => ?_⟩
    cases hafter
    rfl
  | resumed session handle =>
    refine .inr ⟨rfl, rfl, fun resumed hafter => ?_⟩
    cases hafter
    exact ⟨session, rfl, rfl⟩
  | @disconnected session connection bound now cause =>
    refine .inr ⟨rfl, rfl, fun lost hafter => ?_⟩
    cases hafter
    exact ⟨session, rfl, rfl⟩
  | ended session => exact .inr ⟨rfl, rfl, nofun⟩

/-- A session stays the session of its participant. -/
theorem Session.Turn.identity_eq {identity : Identity} {keys keys' : IdGenerator .session}
    {before after : Option Session} {event : SessionEvent}
    (turn : Session.Turn identity keys before event keys' after)
    (h : ∀ session, before = some session → session.identity = identity) {session : Session}
    (hafter : after = some session) : session.identity = identity := by
  cases turn with
  | started handle =>
    cases hafter
    rfl
  | resumed session handle =>
    cases hafter
    exact h session rfl
  | @disconnected session connection bound now cause =>
    cases hafter
    exact h session rfl
  | ended session => cases hafter

/-- Whatever becomes of a session, it has not ended as long as it is there. -/
theorem Session.Turn.present {identity : Identity} {keys keys' : IdGenerator .session}
    {before after : Option Session} {event : SessionEvent}
    (turn : Session.Turn identity keys before event keys' after) {session : Session}
    (hafter : after = some session) : session.Present := by
  cases turn with
  | started handle =>
    cases hafter
    exact .inl ⟨rfl, rfl, rfl⟩
  | resumed session handle =>
    cases hafter
    exact .inl ⟨rfl, rfl, rfl⟩
  | @disconnected session connection bound now cause =>
    cases hafter
    exact .inr ⟨rfl, rfl, rfl⟩
  | ended session => cases hafter

namespace Registry

variable {registry before middle after : Registry} {identity other : Identity}
  {connection : ConnectionId} {event : SessionEvent} {session : Session}

/-- The connection that the session of a participant is bound to. -/
def boundTo? (registry : Registry) (identity : Identity) : Option ConnectionId :=
  (registry.session? identity).bind Session.connection?

/-- The session of one participant has changed, and with it the connection that is mapped to the
participant. -/
structure Change (before : Registry) (identity : Identity) (event : SessionEvent)
    (after : Registry) : Prop where
  turn : Session.Turn identity before.keys (before.session? identity) event after.keys
    (after.session? identity)
  others : ∀ {other}, other ≠ identity → after.session? other = before.session? other
  /-- A connection that the session is bound to anew was mapped to nobody else. -/
  free : ∀ {connection other}, after.boundTo? identity = some connection →
    before.identityFor? connection = some other → other = identity
  connections : ∀ connection, after.identityFor? connection =
    if after.boundTo? identity = some connection then some identity
    else if before.boundTo? identity = some connection then none
    else before.identityFor? connection
  events : after.events = before.events ++ [event]

/-- A chain of changes, with the events they emit. -/
inductive Changes : Registry → List SessionEvent → Registry → Prop
  | nil (registry : Registry) : Changes registry [] registry
  | cons {before middle after : Registry} {identity : Identity} {event : SessionEvent}
    {rest : List SessionEvent} (first : before.Change identity event middle)
    (later : Changes middle rest after) : Changes before (event :: rest) after

/-- Connections and sessions are inverse to each other, and no session that is registered has
ended. -/
structure Paired (registry : Registry) : Prop where
  labeled : registry.Labeled
  present : ∀ {identity session}, registry.session? identity = some session → session.Present
  inverse : ∀ {connection identity},
    registry.identityFor? connection = some identity ↔ registry.boundTo? identity = some connection

/-- In an empty registry, nothing is unpaired. -/
theorem paired_empty : Registry.empty.Paired := by
  have hnone : ∀ identity, Registry.empty.session? identity = none := fun _ => rfl
  refine ⟨fun identity session hsession => ?_, fun {identity session} hsession => ?_,
    fun {connection identity} => ?_⟩
  · cases (hnone identity).symm.trans hsession
  · cases (hnone identity).symm.trans hsession
  · rw [boundTo?, hnone]
    exact ⟨nofun, nofun⟩

/-- A change of one session leaves the others bound as they were. -/
theorem Change.boundTo?_of_ne (h : before.Change identity event after) (hne : other ≠ identity) :
    after.boundTo? other = before.boundTo? other := by
  rw [boundTo?, boundTo?, h.others hne]

/-- Sessions stay under their own identities when one is changed. -/
theorem Change.labeled (h : before.Change identity event after) (hlabeled : before.Labeled) :
    after.Labeled := by
  intro other session hsession
  change after.session? other = some session at hsession
  by_cases hother : other = identity
  · subst hother
    exact h.turn.identity_eq (fun _ hbefore => hlabeled hbefore) hsession
  · rw [h.others hother] at hsession
    exact hlabeled hsession

/-- A session that is there after a change has not ended. -/
theorem Change.present (h : before.Change identity event after)
    (hpresent : ∀ {identity session}, before.session? identity = some session → session.Present)
    (hsession : after.session? other = some session) : session.Present := by
  by_cases hother : other = identity
  · rw [hother] at hsession
    exact h.turn.present hsession
  · rw [h.others hother] at hsession
    exact hpresent hsession

/-- A change leaves the tables inverse to each other. -/
theorem Change.paired (h : before.Change identity event after) (hpaired : before.Paired) :
    after.Paired := by
  refine ⟨h.labeled hpaired.labeled, h.present hpaired.present, fun {connection other} => ?_⟩
  rw [h.connections]
  by_cases hother : other = identity
  · subst hother
    by_cases hbound : after.boundTo? other = some connection
    · rw [if_pos hbound]
      exact iff_of_true rfl hbound
    · rw [if_neg hbound]
      by_cases hlost : before.boundTo? other = some connection
      · rw [if_pos hlost]
        exact iff_of_false nofun hbound
      · rw [if_neg hlost]
        exact iff_of_false (fun hmapped => hlost (hpaired.inverse.mp hmapped)) hbound
  · rw [h.boundTo?_of_ne hother]
    by_cases hbound : after.boundTo? identity = some connection
    · rw [if_pos hbound]
      refine iff_of_false (fun heq => hother (Option.some.inj heq).symm) fun hbefore => ?_
      exact hother (h.free hbound (hpaired.inverse.mpr hbefore))
    · rw [if_neg hbound]
      by_cases hlost : before.boundTo? identity = some connection
      · rw [if_pos hlost]
        refine iff_of_false nofun fun hbefore => ?_
        have hmapped := hpaired.inverse.mpr hbefore
        rw [hpaired.inverse.mpr hlost] at hmapped
        exact hother (Option.some.inj hmapped).symm
      · rw [if_neg hlost]
        exact hpaired.inverse

/-! ## The changes that an operation consists of -/

/-- A session that is put into the table is the session of its participant. -/
theorem session?_put (registry : Registry) (session : Session) (identity : Identity) :
    (registry.put session).session? identity =
      if identity = session.identity then some session else registry.session? identity :=
  Table.get?_insert _ _ _ _

/-- Ending a session leaves the others registered. -/
theorem session?_finish (registry : Registry) (session : Session) (identity : Identity) :
    (registry.finish session).session? identity =
      if identity = session.identity then none else registry.session? identity :=
  Table.get?_erase _ _ _

/-- Ending a session frees its connection. -/
theorem identityFor?_finish (registry : Registry) (session : Session)
    (connection : ConnectionId) : (registry.finish session).identityFor? connection =
      if session.connection? = some connection then none
      else registry.identityFor? connection := by
  unfold finish identityFor? emit
  cases session.connection? with
  | none => rfl
  | some bound =>
    refine (Table.get?_erase _ _ _).trans ?_
    simp only [Option.some.injEq, eq_comm]

/-- Forget whom a connection is mapped to. -/
def forget (registry : Registry) (connection : ConnectionId) : Registry :=
  { registry with connections := registry.connections.erase connection }

/-- Forgetting a connection frees that one alone. -/
theorem identityFor?_forget (registry : Registry) (connection other : ConnectionId) :
    (registry.forget connection).identityFor? other =
      if other = connection then none else registry.identityFor? other :=
  Table.get?_erase _ _ _

/-- Losing the connection it is bound to is a change of a session. -/
theorem Paired.change_lose (h : registry.Paired)
    (hsession : registry.session? identity = some session)
    (hbound : session.connection? = some connection) (now : Instant) (cause : Option String) :
    registry.Change identity (.disconnected session.key identity cause)
      ((registry.forget connection).lose now session cause) := by
  have hidentity := h.labeled hsession
  have hafter : ∀ other, ((registry.forget connection).lose now session cause).session? other =
      if other = identity then some (session.unmap now)
      else registry.session? other := by
    intro other
    rw [← hidentity]
    exact session?_put _ _ _
  have hself : ((registry.forget connection).lose now session cause).boundTo? identity = none := by
    rw [boundTo?, hafter, if_pos rfl]
    rfl
  have hbefore : registry.boundTo? identity = some connection := by
    rw [boundTo?, hsession]
    exact hbound
  refine ⟨?_, fun hother => ?_, fun hbound' => ?_, fun other => ?_, ?_⟩
  · rw [hsession, hafter, if_pos rfl]
    exact .disconnected hbound now cause
  · rw [hafter, if_neg hother]
  · cases hself.symm.trans hbound'
  · rw [hself, if_neg nofun, hbefore]
    refine (registry.identityFor?_forget connection other).trans ?_
    simp only [Option.some.injEq, eq_comm]
  · change registry.events ++ [_] = _
    rw [hidentity]

/-- Ending a registered session is a change. -/
theorem Paired.change_finish (h : registry.Paired)
    (hsession : registry.session? identity = some session) :
    registry.Change identity (.ended session.key identity) (registry.finish session) := by
  have hidentity := h.labeled hsession
  have hself : (registry.finish session).boundTo? identity = none := by
    rw [boundTo?, session?_finish, hidentity, if_pos rfl]
    rfl
  have hbefore : registry.boundTo? identity = session.connection? := by
    rw [boundTo?, hsession]
    rfl
  refine ⟨?_, fun hother => ?_, fun hbound => ?_, fun connection => ?_, ?_⟩
  · rw [hsession, session?_finish, hidentity, if_pos rfl]
    exact .ended session
  · rw [session?_finish, hidentity, if_neg hother]
  · cases hself.symm.trans hbound
  · rw [hself, if_neg nofun, hbefore]
    exact registry.identityFor?_finish session connection
  · change registry.events ++ [.ended session.key session.identity] = _
    rw [hidentity]

/-- A session that is bound to a connection takes it over from the one it was bound to before. -/
theorem change_of_bound {connections : Table ConnectionId Identity}
    (turn : Session.Turn identity before.keys (before.session? identity) event after.keys
      (some session))
    (hbound : session.connection? = some connection)
    (free : ∀ {other}, before.identityFor? connection = some other → other = identity)
    (hsessions : after.sessions = before.sessions.insert identity session)
    (hconnections : after.connections = connections.insert connection identity)
    (hothers : ∀ other, other ≠ connection → connections.get? other =
      if before.boundTo? identity = some other then none else before.identityFor? other)
    (hevents : after.events = before.events ++ [event]) :
    before.Change identity event after := by
  have hafter : ∀ other, after.session? other =
      if other = identity then some session else before.session? other := by
    intro other
    rw [session?, hsessions]
    exact Table.get?_insert _ _ _ _
  have hself : after.boundTo? identity = some connection := by
    rw [boundTo?, hafter, if_pos rfl]
    exact hbound
  refine ⟨?_, fun hother => ?_, fun hbound' hmapped => ?_, fun other => ?_, hevents⟩
  · rw [hafter, if_pos rfl]
    exact turn
  · rw [hafter, if_neg hother]
  · rw [hself] at hbound'
    cases hbound'
    exact free hmapped
  · rw [hself, identityFor?, hconnections, Table.get?_insert]
    by_cases hother : other = connection
    · rw [if_pos hother, if_pos (congrArg some hother.symm)]
    · rw [if_neg hother, if_neg fun heq => hother (Option.some.inj heq).symm, hothers other hother]

/-- Binding a session starts it or resumes it. -/
theorem exists_turn (h : registry.Labeled) (identity : Identity) (handle : ConnectionHandle) :
    ∃ event session, Session.Turn identity registry.keys (registry.session? identity) event
        (registry.bind identity handle).2.keys (some session) ∧
      session.connection? = some handle.id ∧
      (registry.bind identity handle).2.sessions = registry.sessions.insert identity session ∧
      (registry.bind identity handle).2.events = registry.events ++ [event] := by
  unfold bind session?
  cases hsession : registry.sessions.get? identity with
  | some session =>
    obtain rfl := h hsession
    exact ⟨_, _, .resumed session handle, rfl, rfl, rfl⟩
  | none => exact ⟨_, _, .started handle, rfl, rfl, rfl⟩

/-- Binding a session to a connection takes the one away that it was bound to. -/
theorem get?_connections_bind (registry : Registry) (identity : Identity)
    (handle : ConnectionHandle) (hother : connection ≠ handle.id) :
    (registry.bind identity handle).2.connections.get? connection =
      if registry.boundTo? identity = some connection then none
      else registry.identityFor? connection := by
  unfold bind boundTo? session?
  cases registry.sessions.get? identity with
  | none => rfl
  | some session =>
    rw [Option.bind_some]
    unfold emit put Session.resume Session.connection?
    dsimp only
    cases session.handle? with
    | none => rfl
    | some superseded =>
      dsimp only [Option.map_some]
      by_cases hsame : superseded.id = handle.id
      · rw [if_pos hsame,
          if_neg fun heq => hother ((Option.some.inj heq).symm.trans hsame)]
        rfl
      · rw [if_neg hsame, Table.get?_erase]
        simp only [Option.some.injEq, eq_comm]
        rfl

/-- Bind the session of a participant to a connection, and map the connection to it. -/
def attach (registry : Registry) (identity : Identity) (handle : ConnectionHandle) : Registry :=
  { (registry.bind identity handle).2 with
    connections := (registry.bind identity handle).2.connections.insert handle.id identity }

/-- Binding a session to a connection that was mapped to nobody else is a change, whether the
connection was forgotten before or not. -/
theorem Paired.change_attach (h : registry.Paired) {handle : ConnectionHandle}
    {connections : Table ConnectionId Identity}
    (free : ∀ {other}, registry.identityFor? handle.id = some other → other = identity)
    (hothers : ∀ other, other ≠ handle.id →
      connections.get? other = registry.identityFor? other) :
    ∃ event, registry.Change identity event
      (attach { registry with connections := connections } identity handle) := by
  have hlabeled : Labeled { registry with connections := connections } := h.labeled
  obtain ⟨event, session, hturn, hbound, hsessions, hevents⟩ :=
    exists_turn hlabeled identity handle
  refine ⟨event, change_of_bound hturn hbound free hsessions rfl (fun other hother => ?_) hevents⟩
  rw [get?_connections_bind _ _ _ hother, ← hothers other hother]
  rfl

/-! ## Operations -/

/-- What can happen to a registry. Its events are left for whoever wants to see them all. -/
inductive Action where
  /-- A connection of a participant is established. -/
  | connect (now : Instant) (connection : ConnectionId) (identity : Identity)
    (capacity : Option Nat)
  /-- A connection went away, by being closed or for the given cause. -/
  | disconnect (now : Instant) (connection : ConnectionId) (cause : Option String)
  /-- The session that a snapshot was taken of is ended. -/
  | endSnapshot (snapshot : Session)
  | endSession (identity : Identity)
  /-- The sessions that have been without a connection for too long are ended, one after the other,
  those of the given participants first. -/
  | expire (order : List Identity) (now : Instant) (grace : Duration)
  deriving DecidableEq, Repr

/-- The registry after an action. -/
def act (registry : Registry) : Action → Registry
  | .connect now connection identity capacity =>
    (registry.connect now connection identity capacity).2
  | .disconnect now connection cause => registry.disconnect now connection cause
  | .endSnapshot snapshot => registry.endSnapshot snapshot
  | .endSession identity => (registry.endSession identity).2
  | .expire order now grace => (registry.expireIn order now grace).2

/-- The registry after a list of actions. -/
def run (registry : Registry) (actions : List Action) : Registry := actions.foldl act registry

/-- A change is a chain of one. -/
theorem Change.changes (h : before.Change identity event after) : before.Changes [event] after :=
  .cons h (.nil after)

/-- A mapped connection belongs to a session that is bound to it. -/
theorem Paired.exists_session (h : registry.Paired)
    (hmapped : registry.identityFor? connection = some identity) :
    ∃ session, registry.session? identity = some session ∧
      session.connection? = some connection :=
  Option.bind_eq_some_iff.mp (h.inverse.mp hmapped)

/-- A connection that is mapped goes away by taking it from the session that is bound to it. -/
theorem Paired.exists_disconnect (h : registry.Paired) (now : Instant) (cause : Option String)
    (hmapped : registry.identityFor? connection = some identity) :
    ∃ session, registry.session? identity = some session ∧
      session.connection? = some connection ∧
      registry.disconnect now connection cause =
        (registry.forget connection).lose now session cause := by
  obtain ⟨session, hsession, hbound⟩ := h.exists_session hmapped
  refine ⟨session, hsession, hbound, ?_⟩
  rw [identityFor?] at hmapped
  rw [session?] at hsession
  rw [disconnect, hmapped]
  dsimp only
  rw [hsession]
  exact if_pos hbound

/-- Disconnecting is a chain of changes. -/
theorem Paired.disconnect_changes (h : registry.Paired) (now : Instant)
    (connection : ConnectionId) (cause : Option String) :
    ∃ events, registry.Changes events (registry.disconnect now connection cause) := by
  cases hmapped : registry.identityFor? connection with
  | none =>
    have hsame : registry.disconnect now connection cause = registry := by
      rw [identityFor?] at hmapped
      rw [disconnect, hmapped]
    rw [hsame]
    exact ⟨[], .nil registry⟩
  | some identity =>
    obtain ⟨session, hsession, hbound, hdisconnect⟩ := h.exists_disconnect now cause hmapped
    rw [hdisconnect]
    exact ⟨_, (h.change_lose hsession hbound now cause).changes⟩

/-- Nothing is to be freed where a connection is mapped to nobody. -/
theorem vacate_of_none (registry : Registry) (now : Instant) (identity : Identity)
    (hmapped : registry.identityFor? connection = none) :
    registry.vacate now connection identity = registry := by
  rw [identityFor?] at hmapped
  rw [vacate, hmapped]

/-- A connection that is mapped to its own participant is forgotten. -/
theorem vacate_of_self (registry : Registry) (now : Instant)
    (hmapped : registry.identityFor? connection = some identity) :
    registry.vacate now connection identity = registry.forget connection := by
  rw [identityFor?] at hmapped
  rw [vacate, hmapped]
  exact if_pos rfl

/-- A connection of somebody else is taken from the session that is bound to it. -/
theorem Paired.exists_vacate (h : registry.Paired) (now : Instant)
    (hmapped : registry.identityFor? connection = some other) (hother : other ≠ identity) :
    ∃ session, registry.session? other = some session ∧ session.connection? = some connection ∧
      registry.vacate now connection identity =
        (registry.forget connection).lose now session (some "connection reused") := by
  obtain ⟨session, hsession, hbound⟩ := h.exists_session hmapped
  refine ⟨session, hsession, hbound, ?_⟩
  rw [identityFor?] at hmapped
  rw [session?] at hsession
  rw [vacate, hmapped]
  dsimp only
  rw [if_neg hother, hsession]
  exact if_pos hbound

/-- A connection is taken from whom it belonged to, if that is somebody else, and then the session
of the participant is bound to it. -/
theorem Paired.exists_attach (h : registry.Paired) (now : Instant) (identity : Identity)
    (handle : ConnectionHandle) :
    ∃ changed event middle events, registry.Change changed event middle ∧
      middle.Changes events ((registry.vacate now handle.id identity).attach identity handle) := by
  cases hmapped : registry.identityFor? handle.id with
  | none =>
    have hfree : ∀ {other}, registry.identityFor? handle.id = some other → other = identity :=
      fun hother => absurd (hmapped.symm.trans hother) (Option.some_ne_none _).symm
    obtain ⟨event, hchange⟩ := h.change_attach hfree fun _ _ => rfl
    rw [registry.vacate_of_none now identity hmapped]
    exact ⟨identity, event, _, _, hchange, .nil _⟩
  | some previous =>
    by_cases hprevious : previous = identity
    · have hfree : ∀ {other}, registry.identityFor? handle.id = some other → other = identity :=
        fun hother => (Option.some.inj (hother.symm.trans hmapped)).trans hprevious
      obtain ⟨event, hchange⟩ := h.change_attach hfree fun other hother =>
        (registry.identityFor?_forget handle.id other).trans (if_neg hother)
      rw [hprevious] at hmapped
      rw [registry.vacate_of_self now hmapped]
      exact ⟨identity, event, _, _, hchange, .nil _⟩
    · obtain ⟨session, hsession, hbound, hvacate⟩ := h.exists_vacate now hmapped hprevious
      have hlost := h.change_lose hsession hbound now (some "connection reused")
      have hnone := (registry.identityFor?_forget handle.id handle.id).trans (if_pos rfl)
      obtain ⟨event, hchange⟩ := (hlost.paired h).change_attach
        (fun hother => absurd (hnone.symm.trans hother) (Option.some_ne_none _).symm)
        fun _ _ => rfl
      rw [hvacate]
      exact ⟨previous, _, _, _, hlost, hchange.changes⟩

/-- A registry with a new mailbox for a connection. -/
def addMailbox (registry : Registry) (connection : ConnectionId) (capacity : Option Nat) :
    Registry :=
  { registry with mailboxes :=
      registry.mailboxes ++ [{ connection := connection, capacity := capacity }] }

/-- Connecting is a chain of changes. -/
theorem Paired.connect_changes (h : registry.Paired) (now : Instant) (connection : ConnectionId)
    (identity : Identity) (capacity : Option Nat) :
    ∃ events, registry.Changes events (registry.connect now connection identity capacity).2 := by
  have hpaired : (registry.addMailbox connection capacity).Paired :=
    ⟨h.labeled, h.present, h.inverse⟩
  obtain ⟨changed, event, middle, events, hfirst, hrest⟩ :=
    hpaired.exists_attach now identity ⟨connection, registry.mailboxes.length⟩
  -- A change does not concern mailboxes.
  have hchange : registry.Change changed event middle :=
    ⟨hfirst.turn, hfirst.others, hfirst.free, hfirst.connections, hfirst.events⟩
  exact ⟨_, .cons hchange hrest⟩

/-- Ending a session by its snapshot is a chain of changes. -/
theorem Paired.endSnapshot_changes (h : registry.Paired) (snapshot : Session) :
    ∃ events, registry.Changes events (registry.endSnapshot snapshot) := by
  unfold endSnapshot
  cases hsession : registry.sessions.get? snapshot.identity with
  | none => exact ⟨[], .nil registry⟩
  | some session =>
    dsimp only
    split
    · exact ⟨[], .nil registry⟩
    · split
      · exact ⟨[], .nil registry⟩
      · exact ⟨_, (h.change_finish hsession).changes⟩

/-- Ending the session of a participant finishes it. -/
theorem Labeled.endSession_eq (h : registry.Labeled)
    (hsession : registry.session? identity = some session) :
    (registry.endSession identity).2 = registry.finish session := by
  have hself : registry.sessions.get? session.identity = some session := by
    rw [h hsession]
    exact hsession
  rw [endSession, hsession]
  change registry.endSnapshot session = _
  rw [endSnapshot, hself]
  simp

/-- Ending a session is a chain of changes. -/
theorem Paired.endSession_changes (h : registry.Paired) (identity : Identity) :
    ∃ events, registry.Changes events (registry.endSession identity).2 := by
  cases hsession : registry.session? identity with
  | none =>
    rw [endSession, hsession]
    exact ⟨[], .nil registry⟩
  | some session =>
    rw [h.labeled.endSession_eq hsession]
    exact ⟨_, (h.change_finish hsession).changes⟩

/-- Finishing a session leaves those of other participants registered. -/
theorem registered_finish {sessions : List Session}
    (hregistered : ∀ other ∈ sessions, registry.session? other.identity = some other)
    (hfresh : session.identity ∉ sessions.map (·.identity)) :
    ∀ other ∈ sessions, (registry.finish session).session? other.identity = some other := by
  intro other hmem
  have hne : other.identity ≠ session.identity := fun heq =>
    hfresh (List.mem_map.mpr ⟨other, hmem, heq⟩)
  rw [session?_finish, if_neg hne]
  exact hregistered other hmem

/-- Ending registered sessions one after the other is a chain of changes. -/
theorem Paired.finish_changes (h : registry.Paired) {sessions : List Session}
    (hregistered : ∀ session ∈ sessions, registry.session? session.identity = some session)
    (hnodup : (sessions.map (·.identity)).Nodup) :
    ∃ events, registry.Changes events (sessions.foldl finish registry) := by
  induction sessions generalizing registry with
  | nil => exact ⟨[], .nil registry⟩
  | cons session rest ih =>
    obtain ⟨hfresh, hnodup⟩ := List.nodup_cons.mp hnodup
    have hfirst := h.change_finish (hregistered session List.mem_cons_self)
    -- The others belong to other participants, so they stay registered.
    have hrest := registered_finish
      (fun other hmem => hregistered other (List.mem_cons_of_mem _ hmem)) hfresh
    obtain ⟨events, hevents⟩ := ih (hfirst.paired h) hrest hnodup
    exact ⟨_, .cons hfirst hevents⟩

/-- The identities of the registered sessions are the keys they are kept under. -/
theorem Labeled.identities_eq (h : registry.Labeled) :
    registry.sessions.values.map (·.identity) = registry.sessions.keys := by
  rw [Table.values, Table.keys, List.map_map]
  refine List.map_congr_left fun binding hmem => ?_
  exact h (Table.get?_eq_some_iff.mpr hmem)

/-- Whatever the order in which sessions are visited, each of them is visited once. -/
theorem visit_perm (order : List Identity) (sessions : List Session) :
    (visit order sessions).Perm sessions := by
  induction order generalizing sessions with
  | nil => exact .refl sessions
  | cons identity order ih =>
    have hsplit := sessions.filter_append_perm (·.identity = identity)
    simp only [← decide_not] at hsplit
    exact ((ih _).append_left _).trans hsplit

/-- The sessions that expire are those that have been without a connection for too long, in some
order. -/
theorem expired_perm (registry : Registry) (order : List Identity) (now : Instant)
    (grace : Duration) : (registry.expired order now grace).Perm
      (registry.sessions.values.filter (·.hasExpired now grace)) :=
  visit_perm order _

/-- Sessions are ended in the order in which those that expire are come upon. -/
theorem expireIn_eq_of_expired_eq {order order' : List Identity} {now : Instant}
    {grace : Duration} (h : registry.expired order now grace = registry.expired order' now grace) :
    registry.expireIn order now grace = registry.expireIn order' now grace := by
  rw [expireIn, expireIn, h]

/-- A session that expires is registered. -/
theorem Labeled.registered_expired (h : registry.Labeled) (order : List Identity) (now : Instant)
    (grace : Duration) : ∀ session ∈ registry.expired order now grace,
      registry.session? session.identity = some session := by
  intro session hmem
  have hvalue := List.mem_of_mem_filter ((registry.expired_perm order now grace).mem_iff.mp hmem)
  obtain ⟨identity, hsession⟩ := Table.mem_values_iff.mp hvalue
  rw [h hsession]
  exact hsession

/-- No participant has two sessions that expire. -/
theorem Labeled.expired_nodup (h : registry.Labeled) (order : List Identity) (now : Instant)
    (grace : Duration) : ((registry.expired order now grace).map (·.identity)).Nodup := by
  have hnodup := registry.sessions.keys_nodup
  rw [← h.identities_eq] at hnodup
  exact ((registry.expired_perm order now grace).map _).nodup_iff.mpr
    (hnodup.sublist (List.filter_sublist.map _))

/-- Expiry ends the sessions one by one. -/
theorem Paired.expireIn_changes (h : registry.Paired) (order : List Identity) (now : Instant)
    (grace : Duration) :
    ∃ events, registry.Changes events (registry.expireIn order now grace).2 :=
  h.finish_changes (h.labeled.registered_expired order now grace)
    (h.labeled.expired_nodup order now grace)

/-- Whatever happens to a registry is a chain of changes of single sessions. -/
theorem Paired.act_changes (h : registry.Paired) (action : Action) :
    ∃ events, registry.Changes events (registry.act action) := by
  cases action with
  | connect now connection identity capacity =>
    exact h.connect_changes now connection identity capacity
  | disconnect now connection cause => exact h.disconnect_changes now connection cause
  | endSnapshot snapshot => exact h.endSnapshot_changes snapshot
  | endSession identity => exact h.endSession_changes identity
  | expire order now grace => exact h.expireIn_changes order now grace

/-- What every change of a session preserves holds after every run. -/
theorem run_changes_induction {P : Registry → Prop} (start : P empty)
    (step : ∀ {before identity event after}, before.Paired →
      before.Change identity event after → P before → P after) (actions : List Action) :
    (empty.run actions).Paired ∧ P (empty.run actions) := by
  have chain : ∀ {before events after}, Changes before events after →
      before.Paired ∧ P before → after.Paired ∧ P after := by
    intro before events after changes
    induction changes with
    | nil registry => exact id
    | cons first later ih => exact fun h => ih ⟨first.paired h.1, step h.1 first h.2⟩
  refine List.foldlRecOn (motive := fun registry => registry.Paired ∧ P registry) actions act
    ⟨paired_empty, start⟩ fun registry h action _ => ?_
  obtain ⟨events, hchanges⟩ := h.1.act_changes action
  exact chain hchanges h

/-! ## Keys -/

/-- The keys of all sessions ever started, in their order. -/
def issuedKeys (registry : Registry) : List SessionKey :=
  registry.events.filterMap SessionEvent.issued?

/-- The keys of sessions come from the generator, each from a number of its own. -/
structure Keyed (registry : Registry) : Prop where
  first : registry.keys.first = 1
  issued : registry.issuedKeys = (List.range registry.keys.issued).map fun number =>
    IdGenerator.peek { first := 1, issued := number }
  registered : ∀ {identity session}, registry.session? identity = some session →
    session.key ∈ registry.issuedKeys
  distinct : registry.issuedKeys.Nodup → ∀ {identity other session session'},
    registry.session? identity = some session → registry.session? other = some session' →
    session.key = session'.key → identity = other

/-- In an empty registry, no key was issued. -/
theorem keyed_empty : Registry.empty.Keyed := by
  have hnone : ∀ identity, Registry.empty.session? identity = none := fun _ => rfl
  refine ⟨rfl, rfl, fun hsession => ?_, fun _ _ _ _ _ hsession => ?_⟩
  · cases (hnone _).symm.trans hsession
  · cases (hnone _).symm.trans hsession

/-- A change issues the key of the session that it starts, if it starts one. -/
theorem Change.issuedKeys_eq (h : before.Change identity event after) :
    after.issuedKeys = before.issuedKeys ++ event.issued?.toList := by
  rw [issuedKeys, issuedKeys, h.events, List.filterMap_append]
  cases hissued : event.issued? <;> simp [hissued]

/-- The session of a participant that starts one is the only session with the new key. -/
theorem Change.keyed_of_issued (h : before.Change identity event after) (hkeyed : before.Keyed)
    (hissued : event.issued? = some before.keys.peek) (hnext : after.keys = before.keys.generate.2)
    (hkey : ∀ session, after.session? identity = some session →
      session.key = before.keys.peek) : after.Keyed := by
  have hkeys := h.issuedKeys_eq
  have hpeek : before.keys.peek =
      IdGenerator.peek { first := 1, issued := before.keys.issued } := by
    rw [← hkeyed.first]
  have hsession : ∀ {other session}, after.session? other = some session →
      other = identity ∧ session.key = before.keys.peek ∨
        before.session? other = some session := by
    intro other session hother
    by_cases heq : other = identity
    · rw [heq] at hother
      exact .inl ⟨heq, hkey session hother⟩
    · rw [h.others heq] at hother
      exact .inr hother
  rw [hissued, Option.toList_some] at hkeys
  refine ⟨?_, ?_, fun hother => ?_, fun hnodup {i j s t} hs ht heq => ?_⟩
  · rw [hnext]
    exact hkeyed.first
  · rw [hkeys, hnext, hkeyed.issued, hpeek]
    exact (List.map_append.trans rfl).symm.trans (congrArg _ List.range_succ.symm)
  · rw [hkeys]
    rcases hsession hother with ⟨-, hnew⟩ | hold
    · exact List.mem_append_right _ (List.mem_singleton.mpr hnew)
    · exact List.mem_append_left _ (hkeyed.registered hold)
  · rw [hkeys] at hnodup
    obtain ⟨hold, -, hdisjoint⟩ := List.nodup_append'.mp hnodup
    have hfresh : ∀ {other session}, before.session? other = some session →
        session.key ≠ before.keys.peek := fun hother hnew =>
      hdisjoint (hkeyed.registered hother) (List.mem_singleton.mpr hnew)
    rcases hsession hs with ⟨hi, hnew⟩ | hbefore
    · rcases hsession ht with ⟨hj, -⟩ | hbefore'
      · rw [hi, hj]
      · exact absurd (heq.symm.trans hnew) (hfresh hbefore')
    · rcases hsession ht with ⟨-, hnew⟩ | hbefore'
      · exact absurd (heq.trans hnew) (hfresh hbefore)
      · exact hkeyed.distinct hold hbefore hbefore' heq

/-- A session that goes on keeps its key. -/
theorem Change.keyed_of_kept (h : before.Change identity event after) (hkeyed : before.Keyed)
    (hissued : event.issued? = none) (hsame : after.keys = before.keys)
    (hkey : ∀ session, after.session? identity = some session →
      ∃ old, before.session? identity = some old ∧ session.key = old.key) : after.Keyed := by
  have hkeys := h.issuedKeys_eq
  have hsession : ∀ {other session}, after.session? other = some session →
      ∃ old, before.session? other = some old ∧ session.key = old.key := by
    intro other session hother
    by_cases heq : other = identity
    · subst heq
      exact hkey session hother
    · rw [h.others heq] at hother
      exact ⟨session, hother, rfl⟩
  rw [hissued, Option.toList_none, List.append_nil] at hkeys
  refine ⟨?_, ?_, fun hother => ?_, fun hnodup {i j s t} hs ht heq => ?_⟩
  · rw [hsame]
    exact hkeyed.first
  · rw [hkeys, hsame]
    exact hkeyed.issued
  · obtain ⟨old, hold, hkept⟩ := hsession hother
    rw [hkeys, hkept]
    exact hkeyed.registered hold
  · obtain ⟨old, hold, hkept⟩ := hsession hs
    obtain ⟨old', hold', hkept'⟩ := hsession ht
    rw [hkeys] at hnodup
    exact hkeyed.distinct hnodup hold hold' (hkept.symm.trans (heq.trans hkept'))

/-- Sessions stay under keys that were issued when one is changed. -/
theorem Change.keyed (h : before.Change identity event after) (hkeyed : before.Keyed) :
    after.Keyed := by
  rcases h.turn.issued with ⟨hissued, hnext, hkey⟩ | ⟨hissued, hsame, hkey⟩
  · exact h.keyed_of_issued hkeyed hissued hnext hkey
  · exact h.keyed_of_kept hkeyed hissued hsame hkey

/-- The generator of keys does not come round before there are too many sessions. -/
theorem Keyed.nodup (h : registry.Keyed) (hissued : registry.keys.issued ≤ 2 ^ 64) :
    registry.issuedKeys.Nodup := by
  rw [h.issued]
  exact IdGenerator.nodup_given hissued

/-! ## Runs -/

/-- The tables of a registry agree, and every session has a key of its own. -/
structure Coherent (registry : Registry) : Prop where
  /-- A connection is mapped to the participant whose session is bound to it. -/
  inverse : ∀ {connection identity}, registry.identityFor? connection = some identity ↔
    ∃ session, registry.session? identity = some session ∧ session.connection? = some connection
  /-- A session is active, with a connection, or waits since it lost the last one. It has not
  ended. -/
  present : ∀ {identity session}, registry.session? identity = some session →
    session.identity = identity ∧ session.state ≠ .ended ∧
      (session.state = .active ∧ session.handle?.isSome = true ∧
          session.disconnectedAt? = none ∨
        session.state = .disconnectedGrace ∧ session.handle? = none ∧
          session.disconnectedAt?.isSome = true)
  /-- No two sessions have the same key. -/
  distinct : ∀ {identity other session session'}, registry.session? identity = some session →
    registry.session? other = some session' → session.key = session'.key → identity = other
  /-- Registered sessions have keys that were issued. -/
  issued : ∀ {identity session}, registry.session? identity = some session →
    session.key ∈ registry.issuedKeys
  /-- Every key that was drawn was issued to a session. -/
  drawn : registry.issuedKeys.length = registry.keys.issued
  /-- No key was issued twice. -/
  nodup : registry.issuedKeys.Nodup
  /-- A connection that goes away is taken from the session that is bound to it. -/
  disconnects : ∀ {connection identity} (now : Instant) (cause : Option String),
    registry.identityFor? connection = some identity →
    ∃ session, registry.session? identity = some session ∧
      session.connection? = some connection ∧
      registry.disconnect now connection cause =
        (registry.forget connection).lose now session cause

/-- Where sessions are paired and keyed, the registry is coherent. -/
theorem Paired.coherent (h : registry.Paired) (hkeyed : registry.Keyed)
    (hissued : registry.keys.issued < 2 ^ 64) : registry.Coherent where
  inverse := h.inverse.trans Option.bind_eq_some_iff
  present hsession := ⟨h.labeled hsession, (h.present hsession).not_ended, h.present hsession⟩
  distinct := hkeyed.distinct (hkeyed.nodup (Nat.le_of_lt hissued))
  issued := hkeyed.registered
  drawn := by rw [hkeyed.issued, List.length_map, List.length_range]
  nodup := hkeyed.nodup (Nat.le_of_lt hissued)
  disconnects now cause := h.exists_disconnect now cause

/-- Whatever happens to a registry, as long as fewer than `2 ^ 64` sessions are started: its tables
are inverse to each other, a session has a connection or has lost it, and keys are issued once. -/
theorem run_coherent (actions : List Action) (h : (empty.run actions).keys.issued < 2 ^ 64) :
    (empty.run actions).Coherent := by
  obtain ⟨hpaired, hkeyed⟩ :=
    run_changes_induction keyed_empty (fun _ hchange hkeyed => hchange.keyed hkeyed) actions
  exact hpaired.coherent hkeyed h

/-- A participant connects again while the first connection is still there, then its second
connection is reused for somebody else, and at last the first one is closed. -/
def handover : List Action :=
  [.connect 0 1 ⟨"ada"⟩ none, .connect 5 2 ⟨"ada"⟩ none, .connect 7 2 ⟨"bo"⟩ none,
    .disconnect 9 1 none]

/-- After the handover, one connection is left, and the first participant waits. -/
theorem handover_coherent :
    (empty.run handover).connections.toList = [(2, ⟨"bo"⟩)] ∧
      (empty.run handover).activeCount = 1 ∧ (empty.run handover).keys.issued < 2 ^ 64 ∧
      (empty.run handover).Coherent :=
  ⟨by decide +kernel, by decide +kernel, by decide +kernel,
    run_coherent handover (by decide +kernel)⟩

end Registry

end SharedWorld
