import SharedWorld.Proofs.SessionEvents

/-!
# What an action does to a session

An action does at most one thing to the session of a participant (`Registry.Fate`): it binds it to a
connection, takes the connection from it, or ends it, and tells of it by one event. Which actions
end a session is decided by what the registry holds (`Registry.Closes`).
-/

namespace SharedWorld

/-- Whether an event tells that a session was bound to a connection. -/
def SessionEvent.isBinding : SessionEvent → Bool
  | .started _ _ | .resumed _ _ => true
  | .disconnected _ _ _ | .ended _ _ => false

/-- A session that is bound to a connection was started or resumed. -/
theorem Session.Turn.binds {identity : Identity} {keys keys' : IdGenerator .session}
    {before : Option Session} {event : SessionEvent} {session : Session}
    {connection : ConnectionId}
    (turn : Session.Turn identity keys before event keys' (some session))
    (hbound : session.connection? = some connection) :
    (before = none ∧ session.key = keys.peek ∧ event = .started session.key identity) ∨
      ∃ previous, before = some previous ∧ session.key = previous.key ∧
        event = .resumed session.key identity := by
  cases turn with
  | started handle => exact .inl ⟨rfl, rfl, rfl⟩
  | resumed previous handle => exact .inr ⟨previous, rfl, rfl, rfl⟩
  | disconnected bound now cause => cases hbound

namespace Registry

variable {registry before middle after : Registry} {identity other : Identity}
  {connection : ConnectionId} {event : SessionEvent} {session snapshot : Session}
  {action : Action} {now : Instant}

/-- The instant at which an action takes place, if it is stamped with one. -/
def Action.instant? : Action → Option Instant
  | .connect now _ _ _ | .disconnect now _ _ => some now
  | .endSnapshot _ | .endSession _ | .expire _ _ _ => none

/-- The participant that an action connects. -/
def Action.connected? : Action → Option Identity
  | .connect _ _ identity _ => some identity
  | .disconnect _ _ _ | .endSnapshot _ | .endSession _ | .expire _ _ _ => none

/-- The events that an action emits. -/
def emitted (registry : Registry) (action : Action) : List SessionEvent :=
  (registry.act action).events.drop registry.events.length

/-- Whether an action ends a registered session, by what is known of the session. -/
inductive Closes (session : Session) : Action → Prop
  | endSession : Closes session (.endSession session.identity)
  | endSnapshot {snapshot : Session} (same : snapshot.identity = session.identity)
    (key : snapshot.key = session.key)
    (fresh : snapshot.state ≠ .disconnectedGrace ∨
      session.disconnectedAt? = snapshot.disconnectedAt?) :
    Closes session (.endSnapshot snapshot)
  | expire {order : List Identity} {now : Instant} {grace : Duration}
    (due : session.hasExpired now grace = true) : Closes session (.expire order now grace)

/-- What an action does to the session of a participant: the event about the participant that it
emits, if any, and the session after it. -/
inductive Fate (registry : Registry) (identity : Identity) :
    Action → Option SessionEvent → Option Session → Prop
  /-- The session stays as it is. -/
  | spared {action : Action} (apart : action.connected? ≠ some identity)
    (stays : ∀ session, registry.session? identity = some session → ¬ Closes session action) :
    Fate registry identity action none (registry.session? identity)
  | started {now : Instant} {connection : ConnectionId} {capacity : Option Nat} {session : Session}
    (vacant : registry.session? identity = none) (active : session.isActive = true)
    (unlost : session.disconnectedAt? = none)
    (key : (registry.connect now connection identity capacity).1 = session.key) :
    Fate registry identity (.connect now connection identity capacity)
      (some (.started session.key identity)) (some session)
  | resumed {now : Instant} {connection : ConnectionId} {capacity : Option Nat}
    {previous session : Session} (found : registry.session? identity = some previous)
    (same : session.key = previous.key) (active : session.isActive = true)
    (unlost : session.disconnectedAt? = none)
    (key : (registry.connect now connection identity capacity).1 = session.key) :
    Fate registry identity (.connect now connection identity capacity)
      (some (.resumed session.key identity)) (some session)
  /-- The session loses its connection. -/
  | lost {action : Action} {session : Session} {now : Instant}
    (apart : action.connected? ≠ some identity) (stamped : action.instant? = some now)
    (found : registry.session? identity = some session) (active : session.isActive = true)
    (cause : Option String) :
    Fate registry identity action (some (.disconnected session.key identity cause))
      (some (session.unmap now))
  /-- The session ends. -/
  | ended {action : Action} {session : Session}
    (found : registry.session? identity = some session) (closes : Closes session action) :
    Fate registry identity action (some (.ended session.key identity)) none

/-- The events of a list that are about a participant. -/
def about (identity : Identity) (events : List SessionEvent) : List SessionEvent :=
  events.filter fun event => event.identity = identity

/-- What an action does to the session of a participant is told by the events that it emits. -/
def Treats (registry : Registry) (action : Action) (after : Registry) : Prop :=
  ∃ events, after.events = registry.events ++ events ∧ ∀ identity, ∃ event,
    Fate registry identity action event (after.session? identity) ∧
      about identity events = event.toList

/-- The events that an action emits are those that it adds. -/
theorem emitted_eq {events : List SessionEvent}
    (h : (registry.act action).events = registry.events ++ events) :
    registry.emitted action = events := by
  rw [emitted, h, List.drop_left]

/-- An action that changes nothing treats nobody, unless it should have ended a session. -/
theorem treats_self (hconnected : action.connected? = none)
    (hopen : ∀ identity session, registry.session? identity = some session →
      ¬ Closes session action) : registry.Treats action registry :=
  ⟨[], (List.append_nil _).symm, fun identity =>
    ⟨none, .spared (by rw [hconnected]; exact nofun) (hopen identity), rfl⟩⟩

/-- Losing a connection unmaps one session and leaves the others alone. -/
theorem session?_lose (registry : Registry) (now : Instant) (session : Session)
    (cause : Option String) (identity : Identity) :
    (registry.lose now session cause).session? identity =
      if identity = session.identity then some (session.unmap now)
      else registry.session? identity :=
  session?_put _ _ _

/-- An action that stamps the time ends no session. -/
theorem not_closes_of_instant? (h : action.instant? = some now) : ¬ Closes session action := by
  rintro (_ | _ | _) <;> cases h

/-- An action that ends a session connects nobody. -/
theorem Closes.not_connected (h : Closes session action) : action.connected? ≠ some identity := by
  cases h <;> exact nofun

/-- A single event is about its own participant. -/
theorem about_singleton (identity : Identity) (event : SessionEvent) :
    about identity [event] = if event.identity = identity then [event] else [] := by
  simp only [about, List.filter_cons, List.filter_nil, decide_eq_true_eq]

/-- What is about a participant in two lists is what is in the one and then in the other. -/
theorem about_append (identity : Identity) (first rest : List SessionEvent) :
    about identity (first ++ rest) = about identity first ++ about identity rest :=
  List.filter_append _ _

/-- A session that loses its connection leaves the others as they are. -/
theorem Paired.fate_lose (h : registry.Paired) (hsession : registry.session? other = some session)
    (hbound : session.connection? = some connection) (hstamped : action.instant? = some now)
    (cause : Option String) (hapart : action.connected? ≠ some identity) :
    ∃ event, Fate registry identity action event
        ((registry.lose now session cause).session? identity) ∧
      about identity [.disconnected session.key session.identity cause] = event.toList := by
  obtain rfl := h.labeled hsession
  rw [session?_lose, about_singleton]
  by_cases heq : identity = session.identity
  · subst heq
    rw [if_pos rfl]
    have hactive := decide_eq_true ((h.present hsession).active hbound).1
    exact ⟨_, .lost hapart hstamped hsession hactive cause, if_pos rfl⟩
  · rw [if_neg heq]
    exact ⟨none, .spared hapart fun _ _ => not_closes_of_instant? hstamped, if_neg (Ne.symm heq)⟩

/-- A disconnection is told to the session that loses its connection. -/
theorem Paired.treats_disconnect (h : registry.Paired) (now : Instant) (connection : ConnectionId)
    (cause : Option String) :
    registry.Treats (.disconnect now connection cause)
      (registry.disconnect now connection cause) := by
  cases hmapped : registry.identityFor? connection with
  | none =>
    have hsame : registry.disconnect now connection cause = registry := by
      rw [identityFor?] at hmapped
      rw [disconnect, hmapped]
    rw [hsame]
    have hstamped : (Action.disconnect now connection cause).instant? = some now := rfl
    exact treats_self rfl fun _ _ _ => not_closes_of_instant? hstamped
  | some loser =>
    obtain ⟨session, hsession, hbound, hdisconnect⟩ := h.exists_disconnect now cause hmapped
    rw [hdisconnect]
    have hapart : ∀ {other : Identity},
        (Action.disconnect now connection cause).connected? ≠ some other :=
      fun {other} => (Option.some_ne_none other).symm
    exact ⟨_, rfl, fun _ => h.fate_lose hsession hbound rfl cause hapart⟩

/-- What is left of a registry when a connection was forgotten for a participant to use it: the
session of somebody else may have lost it. -/
structure Vacated (registry : Registry) (identity : Identity) (action : Action)
    (lost : List SessionEvent) (vacated : Registry) : Prop where
  labeled : vacated.Labeled
  keys : vacated.keys = registry.keys
  events : vacated.events = registry.events ++ lost
  same : vacated.session? identity = registry.session? identity
  silent : about identity lost = []
  others : ∀ {other}, other ≠ identity → ∃ event,
    Fate registry other action event (vacated.session? other) ∧ about other lost = event.toList

/-- When a connection is freed for a participant, only the session that had it is told. -/
theorem Paired.vacated (h : registry.Paired) (identity : Identity) (connection : ConnectionId)
    (capacity : Option Nat) (hstamped : action.instant? = some now)
    (hconnected : action.connected? = some identity) :
    ∃ lost, registry.Vacated identity action lost
      ((registry.addMailbox connection capacity).vacate now connection identity) := by
  have hadded : (registry.addMailbox connection capacity).Paired :=
    ⟨h.labeled, h.present, h.inverse⟩
  have hopen : ∀ (other : Identity) (session : Session), registry.session? other = some session →
      ¬ Closes session action := fun _ _ _ => not_closes_of_instant? hstamped
  have hapart : ∀ {other : Identity}, other ≠ identity → action.connected? ≠ some other :=
    fun hother heq => hother (Option.some.inj (heq.symm.trans hconnected))
  cases hmapped : (registry.addMailbox connection capacity).identityFor? connection with
  | none =>
    rw [vacate_of_none _ now identity hmapped]
    exact ⟨[], h.labeled, rfl, (List.append_nil _).symm, rfl, rfl,
      fun hother => ⟨none, .spared (hapart hother) (hopen _), rfl⟩⟩
  | some previous =>
    by_cases hprevious : previous = identity
    · rw [hprevious] at hmapped
      rw [vacate_of_self _ now hmapped]
      exact ⟨[], h.labeled, rfl, (List.append_nil _).symm, rfl, rfl,
        fun hother => ⟨none, .spared (hapart hother) (hopen _), rfl⟩⟩
    · obtain ⟨session, hsession, hbound, hvacate⟩ := hadded.exists_vacate now hmapped hprevious
      have hlost := hadded.change_lose hsession hbound now (some "connection reused")
      have hsame := h.labeled hsession
      rw [hvacate]
      refine ⟨_, hlost.labeled h.labeled, rfl, rfl, ?_, ?_, fun hother =>
        h.fate_lose hsession hbound hstamped _ (hapart hother)⟩
      · rw [session?_lose, hsame, if_neg (Ne.symm hprevious)]
        rfl
      · rw [about_singleton]
        exact if_neg fun heq => hprevious (hsame.symm.trans heq)

/-- The result of binding a session is its key. -/
theorem bind_key (registry : Registry) (identity : Identity) (handle : ConnectionHandle) :
    (registry.bind identity handle).1 =
      (registry.session? identity).elim registry.keys.peek Session.key := by
  unfold bind session?
  cases registry.sessions.get? identity with
  | some session => rfl
  | none => rfl

/-- A connection is told to the session that it binds, and to the one that had it before. -/
theorem Paired.treats_connect (h : registry.Paired) (now : Instant) (connection : ConnectionId)
    (identity : Identity) (capacity : Option Nat) :
    registry.Treats (.connect now connection identity capacity)
      (registry.connect now connection identity capacity).2 := by
  have hstamped : (Action.connect now connection identity capacity).instant? = some now := rfl
  obtain ⟨lost, hvacated⟩ := h.vacated identity connection capacity hstamped rfl
  obtain ⟨event, session, hturn, hbound, hsessions, hevents⟩ :=
    exists_turn hvacated.labeled identity ⟨connection, registry.mailboxes.length⟩
  rw [hvacated.keys, hvacated.same] at hturn
  have hafter : ∀ other, (registry.connect now connection identity capacity).2.session? other =
      if other = identity then some session else
        ((registry.addMailbox connection capacity).vacate now connection identity).session?
          other := by
    intro other
    refine (congrArg (Table.get? · other) hsessions).trans ?_
    exact Table.get?_insert _ _ _ _
  have hresult : (registry.connect now connection identity capacity).1 =
      (registry.session? identity).elim registry.keys.peek Session.key := by
    have hbind := bind_key
      ((registry.addMailbox connection capacity).vacate now connection identity) identity
      ⟨connection, registry.mailboxes.length⟩
    rw [hvacated.keys, hvacated.same] at hbind
    exact hbind
  obtain ⟨hstate, hunlost⟩ := (hturn.present rfl).active hbound
  have hactive : session.isActive = true := decide_eq_true hstate
  obtain ⟨hidentity, hfate⟩ : event.identity = identity ∧
      Fate registry identity (.connect now connection identity capacity) (some event)
        (some session) := by
    rcases hturn.binds hbound with ⟨hnone, hkey, rfl⟩ | ⟨previous, hsome, hkey, rfl⟩
    · rw [hnone] at hresult
      exact ⟨rfl, .started hnone hactive hunlost (hresult.trans hkey.symm)⟩
    · rw [hsome] at hresult
      exact ⟨rfl, .resumed hsome hkey hactive hunlost (hresult.trans hkey.symm)⟩
  refine ⟨lost ++ [event], ?_, fun other => ?_⟩
  · refine hevents.trans ?_
    rw [hvacated.events, List.append_assoc]
  · rw [hafter, about_append, about_singleton, hidentity]
    by_cases hother : other = identity
    · subst hother
      rw [if_pos rfl, if_pos rfl, hvacated.silent]
      exact ⟨some event, hfate, rfl⟩
    · rw [if_neg hother, if_neg (Ne.symm hother), List.append_nil]
      exact hvacated.others hother

/-- Finishing the one session that an action ends. -/
theorem Labeled.treats_finish (h : registry.Labeled)
    (hsession : registry.session? identity = some session) (hcloses : Closes session action)
    (honly : ∀ other session', registry.session? other = some session' →
      Closes session' action → other = identity) :
    registry.Treats action (registry.finish session) := by
  obtain rfl := h hsession
  refine ⟨[.ended session.key session.identity], rfl, fun other => ?_⟩
  rw [session?_finish, about_singleton]
  by_cases hother : other = session.identity
  · subst hother
    rw [if_pos rfl]
    exact ⟨_, .ended hsession hcloses, if_pos rfl⟩
  · rw [if_neg hother]
    exact ⟨none, .spared hcloses.not_connected fun session' hsession' hcloses' =>
      hother (honly other session' hsession' hcloses'), if_neg (Ne.symm hother)⟩

/-- Only the session of its own participant is ended by ending a snapshot. -/
theorem Labeled.closes_endSnapshot (h : registry.Labeled)
    (hsession : registry.session? identity = some session)
    (hcloses : Closes session (.endSnapshot snapshot)) : snapshot.identity = identity := by
  cases hcloses with
  | endSnapshot same key fresh => exact same.trans (h hsession)

/-- Ending a snapshot changes nothing but the session that it closes. -/
theorem endSnapshot_of_not_closes
    (h : ∀ session, registry.session? snapshot.identity = some session →
      session.identity = snapshot.identity ∧ ¬ Closes session (.endSnapshot snapshot)) :
    registry.endSnapshot snapshot = registry := by
  cases hsession : registry.session? snapshot.identity with
  | none =>
    rw [session?] at hsession
    rw [endSnapshot, hsession]
  | some session =>
    obtain ⟨hidentity, hopen⟩ := h session hsession
    rw [session?] at hsession
    rw [endSnapshot, hsession]
    dsimp only
    by_cases hkey : session.key = snapshot.key
    · rw [if_neg (not_not.mpr hkey)]
      have hstale := mt (.endSnapshot hidentity.symm hkey.symm) hopen
      rw [not_or, not_not] at hstale
      exact if_pos (by rw [decide_eq_true hstale.1, decide_eq_true hstale.2, Bool.and_self])
    · exact if_pos hkey

/-- A session whose snapshot is to end it is ended. -/
theorem endSnapshot_of_closes (hsession : registry.session? snapshot.identity = some session)
    (hcloses : Closes session (.endSnapshot snapshot)) :
    registry.endSnapshot snapshot = registry.finish session := by
  cases hcloses with
  | endSnapshot same key fresh =>
    rw [session?] at hsession
    rw [endSnapshot, hsession]
    dsimp only
    rw [if_neg (not_not.mpr key.symm)]
    refine if_neg ?_
    rcases fresh with hstate | hsame
    · simp [hstate]
    · simp [hsame]

/-- Ending a session by its snapshot is told to that session alone. -/
theorem Labeled.treats_endSnapshot (h : registry.Labeled) (snapshot : Session) :
    registry.Treats (.endSnapshot snapshot) (registry.endSnapshot snapshot) := by
  by_cases hcloses : ∃ session, registry.session? snapshot.identity = some session ∧
      Closes session (.endSnapshot snapshot)
  · obtain ⟨session, hsession, hcloses⟩ := hcloses
    rw [endSnapshot_of_closes hsession hcloses]
    exact h.treats_finish hsession hcloses fun other session' hother hcloses' =>
      (h.closes_endSnapshot hother hcloses').symm
  · rw [not_exists] at hcloses
    rw [endSnapshot_of_not_closes fun session hsession =>
      ⟨h hsession, fun h => hcloses session ⟨hsession, h⟩⟩]
    refine treats_self rfl fun other session hother hclosed => hcloses session ⟨?_, hclosed⟩
    rw [h.closes_endSnapshot hother hclosed]
    exact hother

/-- Ending a session is told to that session alone. -/
theorem Labeled.treats_endSession (h : registry.Labeled) (identity : Identity) :
    registry.Treats (.endSession identity) (registry.endSession identity).2 := by
  have honly : ∀ other session', registry.session? other = some session' →
      Closes session' (.endSession identity) → other = identity := by
    intro other session' hother hcloses
    cases hcloses
    exact (h hother).symm
  cases hsession : registry.session? identity with
  | none =>
    rw [endSession, hsession]
    refine treats_self rfl fun other session' hother hcloses => ?_
    rw [honly other session' hother hcloses, hsession] at hother
    cases hother
  | some session =>
    rw [h.endSession_eq hsession]
    refine h.treats_finish hsession ?_ honly
    rw [← h hsession]
    exact .endSession

/-- Ending sessions leaves the others registered as they are. -/
theorem session?_foldl_finish (registry : Registry) (sessions : List Session)
    (identity : Identity) :
    (sessions.foldl finish registry).session? identity =
      if identity ∈ sessions.map (·.identity) then none else registry.session? identity := by
  induction sessions generalizing registry with
  | nil => rfl
  | cons session rest ih =>
    rw [List.foldl_cons, ih, session?_finish, List.map_cons]
    by_cases hrest : identity ∈ rest.map (·.identity)
    · rw [if_pos hrest, if_pos (List.mem_cons_of_mem _ hrest)]
    · rw [if_neg hrest]
      exact if_congr (by rw [List.mem_cons, or_iff_left hrest]) rfl rfl

/-- Each session that is ended is told so, in their order. -/
theorem events_foldl_finish (registry : Registry) (sessions : List Session) :
    (sessions.foldl finish registry).events =
      registry.events ++ sessions.map fun session => .ended session.key session.identity := by
  induction sessions generalizing registry with
  | nil => exact (List.append_nil _).symm
  | cons session rest ih =>
    rw [List.foldl_cons, ih, List.map_cons]
    exact List.append_assoc _ _ _

/-- Of sessions of different participants, at most one is a participant's. -/
theorem about_map_ended {sessions : List Session} (hnodup : (sessions.map (·.identity)).Nodup)
    (hmem : session ∈ sessions) :
    about session.identity (sessions.map fun session => .ended session.key session.identity) =
      [.ended session.key session.identity] := by
  induction sessions with
  | nil => cases hmem
  | cons head rest ih =>
    obtain ⟨hfresh, hrest⟩ := List.nodup_cons.mp hnodup
    rw [List.map_cons, ← List.singleton_append, about_append, about_singleton]
    rcases List.mem_cons.mp hmem with rfl | hmem
    · have hnone : about session.identity
          (rest.map fun session => .ended session.key session.identity) = [] := by
        refine List.filter_eq_nil_iff.mpr fun event hevent => ?_
        obtain ⟨other, hother, rfl⟩ := List.mem_map.mp hevent
        intro heq
        exact hfresh (List.mem_map.mpr ⟨other, hother, of_decide_eq_true heq⟩)
      rw [hnone, List.append_nil]
      exact if_pos rfl
    · have hne : head.identity ≠ session.identity := fun heq =>
        hfresh (List.mem_map.mpr ⟨session, hmem, heq.symm⟩)
      rw [ih hrest hmem]
      exact congrArg (· ++ _) (if_neg hne)

/-- The sessions that expire are registered, and have been without a connection for too long. -/
theorem Labeled.mem_expired_iff (h : registry.Labeled) (order : List Identity) (now : Instant)
    (grace : Duration) : session ∈ registry.expired order now grace ↔
      registry.session? session.identity = some session ∧ session.hasExpired now grace = true := by
  rw [(registry.expired_perm order now grace).mem_iff, List.mem_filter]
  refine and_congr_left fun _ => ⟨fun hvalue => ?_, fun hsession => ?_⟩
  · obtain ⟨identity, hsession⟩ := Table.mem_values_iff.mp hvalue
    rw [h hsession]
    exact hsession
  · exact Table.mem_values_iff.mpr ⟨_, hsession⟩

/-- Expiry ends the sessions that have been without a connection for too long, and no others. -/
theorem Labeled.treats_expireIn (h : registry.Labeled) (order : List Identity) (now : Instant)
    (grace : Duration) :
    registry.Treats (.expire order now grace) (registry.expireIn order now grace).2 := by
  have hafter := session?_foldl_finish registry (registry.expired order now grace)
  refine ⟨_, events_foldl_finish registry (registry.expired order now grace), fun identity => ?_⟩
  change ∃ event, Fate _ _ _ _ (((registry.expired order now grace).foldl finish registry).session?
    identity) ∧ _
  rw [hafter identity]
  by_cases hmem : identity ∈ (registry.expired order now grace).map (·.identity)
  · obtain ⟨session, hexpired, rfl⟩ := List.mem_map.mp hmem
    obtain ⟨hsession, hdue⟩ := (h.mem_expired_iff order now grace).mp hexpired
    rw [if_pos hmem]
    exact ⟨some (.ended session.key session.identity), .ended hsession (.expire hdue),
      about_map_ended (h.expired_nodup order now grace) hexpired⟩
  · rw [if_neg hmem]
    refine ⟨none, .spared nofun fun session hsession hcloses => hmem ?_,
      List.filter_eq_nil_iff.mpr fun event hevent => ?_⟩
    · obtain rfl := h hsession
      cases hcloses with
      | expire due =>
        exact List.mem_map_of_mem ((h.mem_expired_iff order now grace).mpr ⟨hsession, due⟩)
    · obtain ⟨session, hexpired, rfl⟩ := List.mem_map.mp hevent
      intro heq
      obtain rfl : session.identity = identity := of_decide_eq_true heq
      exact hmem (List.mem_map_of_mem hexpired)

/-- Every action does one thing at most to the session of each participant. -/
theorem Paired.treats_act (h : registry.Paired) (action : Action) :
    registry.Treats action (registry.act action) := by
  cases action with
  | connect now connection identity capacity =>
    exact h.treats_connect now connection identity capacity
  | disconnect now connection cause => exact h.treats_disconnect now connection cause
  | endSnapshot snapshot => exact h.labeled.treats_endSnapshot snapshot
  | endSession identity => exact h.labeled.treats_endSession identity
  | expire order now grace => exact h.labeled.treats_expireIn order now grace

/-- Sessions and connections stay paired through changes of sessions. -/
theorem Changes.paired {events : List SessionEvent} (h : before.Changes events after)
    (hpaired : before.Paired) : after.Paired := by
  induction h with
  | nil registry => exact hpaired
  | cons first later ih => exact ih (first.paired hpaired)

/-- Sessions and connections stay paired through every action. -/
theorem paired_act (h : registry.Paired) (action : Action) : (registry.act action).Paired := by
  obtain ⟨events, hchanges⟩ := h.act_changes action
  exact hchanges.paired h

/-- What an action does to the session of a participant is all that it tells of it. -/
theorem Paired.exists_fate (h : registry.Paired) (action : Action) (identity : Identity) :
    ∃ event, Fate registry identity action event ((registry.act action).session? identity) ∧
      about identity (registry.emitted action) = event.toList := by
  obtain ⟨events, hevents, hfate⟩ := h.treats_act action
  rw [emitted_eq hevents]
  exact hfate identity

/-- An action adds the events that it emits. -/
theorem events_act (h : registry.Paired) (action : Action) :
    (registry.act action).events = registry.events ++ registry.emitted action := by
  obtain ⟨events, hevents, -⟩ := h.treats_act action
  rw [emitted_eq hevents]
  exact hevents

/-- A registered session is gone after an action exactly if the action closes it. -/
theorem Fate.eq_none_iff {event : Option SessionEvent} {result : Option Session}
    (h : Fate registry identity action event result)
    (hsession : registry.session? identity = some session) :
    result = none ↔ Closes session action := by
  cases h with
  | spared apart stays =>
    rw [hsession]
    exact iff_of_false nofun (stays session hsession)
  | started vacant active unlost key => cases vacant.symm.trans hsession
  | resumed found same active unlost key => exact iff_of_false nofun nofun
  | lost apart stamped found active cause =>
    exact iff_of_false nofun (not_closes_of_instant? stamped)
  | ended found closes =>
    cases found.symm.trans hsession
    exact iff_of_true rfl closes

/-- A session that stays registered keeps its key. -/
theorem Fate.key_eq {event : Option SessionEvent} {session' : Session}
    (h : Fate registry identity action event (some session'))
    (hsession : registry.session? identity = some session) : session'.key = session.key := by
  generalize hresult : some session' = result at h
  cases h with
  | spared apart stays =>
    cases hresult.trans hsession
    rfl
  | started vacant active unlost key => cases vacant.symm.trans hsession
  | resumed found same active unlost key =>
    cases hresult
    cases found.symm.trans hsession
    exact same
  | lost apart stamped found active cause =>
    cases hresult
    cases found.symm.trans hsession
    rfl
  | ended found closes => cases hresult

/-- Only a session that is closed is told of as ended. -/
theorem Fate.eq_ended_iff {event : Option SessionEvent} {result : Option Session}
    {key : SessionKey} (h : Fate registry identity action event result) :
    event = some (.ended key identity) ↔ ∃ session, registry.session? identity = some session ∧
      session.key = key ∧ Closes session action := by
  cases h with
  | spared apart stays =>
    exact iff_of_false nofun fun ⟨session, hsession, _, hcloses⟩ => stays session hsession hcloses
  | started vacant active unlost key =>
    exact iff_of_false nofun fun ⟨_, _, _, hcloses⟩ => nomatch hcloses
  | resumed found same active unlost key =>
    exact iff_of_false nofun fun ⟨_, _, _, hcloses⟩ => nomatch hcloses
  | lost apart stamped found active cause =>
    exact iff_of_false nofun fun ⟨_, _, _, hcloses⟩ => not_closes_of_instant? stamped hcloses
  | @ended action session found closes =>
    constructor
    · intro hevent
      cases hevent
      exact ⟨session, found, rfl, closes⟩
    · rintro ⟨session', hsession', rfl, -⟩
      cases found.symm.trans hsession'
      rfl

end Registry

end SharedWorld
