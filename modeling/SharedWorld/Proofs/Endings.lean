import Mathlib.Data.List.Induction
import SharedWorld.Proofs.Fates

/-!
# When a session ends

Which actions end a session is told here by what has happened to it, and not by what the registry
holds: its participant may end it, somebody may end it by a snapshot, which is stale as soon as the
participant has connected again if it was taken without a connection, and it may expire after the
last loss of its connection. The registry recognises a stale snapshot by its key and the instant of
its loss alone, so this holds as long as no two losses bear the same instant
(`Registry.run_endings`).
-/

namespace SharedWorld

/-- Events, each with the instant at which it was told, if there is one. -/
abbrev Chronicle := List (SessionEvent × Option Instant)

namespace Chronicle

/-- The part of a chronicle that is about a participant. -/
def of (chronicle : Chronicle) (identity : Identity) : Chronicle :=
  chronicle.filter fun entry => entry.1.identity = identity

/-- The instants at which sessions lost their connections. -/
def losses (chronicle : Chronicle) : List Instant :=
  chronicle.filterMap fun entry => match entry.1 with
    | .disconnected _ _ _ => entry.2
    | .started _ _ | .resumed _ _ | .ended _ _ => none

/-- Whether a session was started or resumed. -/
def binds (chronicle : Chronicle) : Bool := chronicle.any (·.1.isBinding)

/-- What concerns a participant in two chronicles concerns it in the one and then in the other. -/
theorem of_append (earlier later : Chronicle) (identity : Identity) :
    (earlier ++ later).of identity = earlier.of identity ++ later.of identity :=
  List.filter_append _ _

/-- The losses of two chronicles are those of the one and then of the other. -/
theorem losses_append (earlier later : Chronicle) :
    losses (earlier ++ later) = earlier.losses ++ later.losses :=
  List.filterMap_append

/-- Two chronicles bind a session if one of them does. -/
theorem binds_append (earlier later : Chronicle) :
    binds (earlier ++ later) = (earlier.binds || later.binds) :=
  List.any_append

/-- The losses of one participant are among all losses. -/
theorem losses_of_sublist (chronicle : Chronicle) (identity : Identity) :
    (chronicle.of identity).losses.Sublist chronicle.losses :=
  List.filter_sublist.filterMap _

end Chronicle

namespace Session

variable {session : Session}

/-- A session without a connection has noted when it lost the last one. -/
theorem Present.exists_disconnectedAt? (h : session.Present)
    (hinactive : session.isActive = false) :
    session.state = .disconnectedGrace ∧ ∃ since, session.disconnectedAt? = some since := by
  rcases h with ⟨hactive, -⟩ | ⟨hgrace, -, hsince⟩
  · exact absurd hactive (of_decide_eq_false hinactive)
  · exact ⟨hgrace, Option.isSome_iff_exists.mp hsince⟩

/-- A session that is active is not waiting for its participant. -/
theorem isActive_eq_false_of_state (h : session.state = .disconnectedGrace) :
    session.isActive = false := by
  rw [isActive, h]
  rfl

/-- Only a session that is not active expires, and when depends on the instant of its loss. -/
theorem Present.hasExpired_iff (h : session.Present) {now : Instant} {grace : Duration} :
    session.hasExpired now grace = true ↔ session.isActive = false ∧
      ∃ since, session.disconnectedAt? = some since ∧ grace ≤ now - since := by
  unfold hasExpired
  rw [Bool.and_eq_true, decide_eq_true_eq, Option.any_eq_true]
  refine and_congr ⟨isActive_eq_false_of_state, fun hinactive => ?_⟩ ?_
  · exact (h.exists_disconnectedAt? hinactive).1
  · simp only [decide_eq_true_eq]

end Session

namespace Registry

variable {registry : Registry} {identity : Identity} {session snapshot : Session}
  {action : Action} {heard : Chronicle} {event : Option SessionEvent} {after : Option Session}
  {past earlier later : List Action}

/-! ## What is told of a participant -/

/-- What an action tells. -/
def told (registry : Registry) (action : Action) : Chronicle :=
  (registry.emitted action).map fun event => (event, action.instant?)

/-- What a run of actions tells. -/
def chronicle (registry : Registry) (actions : List Action) : Chronicle :=
  history act told registry actions

/-- The chronicle of a run is that of its first part and then that of the rest. -/
theorem chronicle_append (registry : Registry) (earlier later : List Action) :
    registry.chronicle (earlier ++ later) =
      registry.chronicle earlier ++ (registry.run earlier).chronicle later :=
  history_append registry earlier later

/-- A registry takes its actions one after the other. -/
theorem run_append (registry : Registry) (earlier later : List Action) :
    registry.run (earlier ++ later) = (registry.run earlier).run later :=
  List.foldl_append

/-- Whatever was done with a registry, its sessions and connections are paired. -/
theorem run_paired (actions : List Action) : (empty.run actions).Paired :=
  (run_changes_induction (P := fun _ => True) trivial (fun _ _ _ => trivial) actions).1

/-- An action of which a participant heard something, with its instant. -/
def heardOf (action : Action) (event : Option SessionEvent) : Chronicle :=
  (event.map fun event => (event, action.instant?)).toList

/-- What an action tells of a participant is what it does to the participant's session. -/
theorem Paired.exists_heard (h : registry.Paired) (action : Action) (identity : Identity) :
    ∃ event, Fate registry identity action event ((registry.act action).session? identity) ∧
      (registry.told action).of identity = heardOf action event := by
  obtain ⟨event, hfate, habout⟩ := h.exists_fate action identity
  refine ⟨event, hfate, ?_⟩
  have hof : (registry.told action).of identity =
      (about identity (registry.emitted action)).map fun event => (event, action.instant?) := by
    rw [told, Chronicle.of, List.filter_map]
    rfl
  rw [hof, habout]
  cases event <;> rfl

/-- What a registered session has to do with what was heard of its participant, if it stays so
whatever is done to the session. -/
def Remembered (identity : Identity) (P : Chronicle → Session → Prop) : Prop :=
  ∀ {registry action event after heard}, Fate registry identity action event after →
    (∀ session, registry.session? identity = some session → P heard session) →
    ∀ session, after = some session → P (heard ++ heardOf action event) session

/-- What is remembered of a session from a moment on. -/
theorem Remembered.run {P : Chronicle → Session → Prop} (h : Remembered identity P)
    (hpaired : registry.Paired)
    (start : ∀ session, registry.session? identity = some session → P [] session)
    (actions : List Action) : ∀ session, (registry.run actions).session? identity = some session →
      P ((registry.chronicle actions).of identity) session := by
  have hstep : ∀ (seen : Chronicle) (registry : Registry) (action : Action),
      (registry.Paired ∧ ∀ session, registry.session? identity = some session →
        P (seen.of identity) session) →
      (registry.act action).Paired ∧
        ∀ session, (registry.act action).session? identity = some session →
          P ((seen ++ registry.told action).of identity) session := by
    intro seen registry action hseen
    obtain ⟨event, hfate, hheard⟩ := hseen.1.exists_heard action identity
    refine ⟨paired_act hseen.1 action, fun session hsession => ?_⟩
    rw [Chronicle.of_append, hheard]
    exact h hfate hseen.2 session hsession
  have hstart : registry.Paired ∧ ∀ session, registry.session? identity = some session →
      P (Chronicle.of [] identity) session := ⟨hpaired, start⟩
  exact (foldl_history_induction hstep hstart actions).2

/-- A session without a connection lost it at the latest loss. -/
def SinceLast (heard : Chronicle) (session : Session) : Prop :=
  ∀ since, session.disconnectedAt? = some since → heard.losses.getLast? = some since

/-- Whatever happens, a session without a connection has lost it at the latest loss. -/
theorem remembered_sinceLast (identity : Identity) : Remembered identity SinceLast := by
  intro registry action event after heard hfate hbefore session hafter
  cases hfate with
  | spared apart stays =>
    rw [heardOf, Option.map_none, Option.toList_none, List.append_nil]
    exact hbefore session hafter
  | started vacant active unlost key =>
    cases hafter
    intro since hsince
    cases unlost.symm.trans hsince
  | resumed found same active unlost key =>
    cases hafter
    intro since hsince
    cases unlost.symm.trans hsince
  | lost apart stamped found active cause =>
    intro since hsince
    cases hafter
    cases hsince
    rw [Chronicle.losses_append]
    refine List.getLast?_append.trans ?_
    simp [heardOf, stamped, Chronicle.losses]
  | ended found closes => cases hafter

/-- What has become of the session a snapshot was taken of, by what was heard since: as long as the
participant did not connect it is the same, and a loss after that was heard of. -/
structure Since (snapshot : Session) (heard : Chronicle) (session : Session) : Prop where
  unbound : heard.binds = false →
    session.key = snapshot.key ∧ (snapshot.isActive = false → session = snapshot)
  lost : heard.binds = true → ∀ since, session.disconnectedAt? = some since →
    since ∈ heard.losses
  /-- The session is the one that is known, or it was started since. -/
  known : (session.key = snapshot.key ∧ ∀ entry ∈ heard, entry.1.isBinding = true →
      entry.1 = .resumed snapshot.key snapshot.identity) ∨
    ∃ entry ∈ heard, entry.1 = .started session.key snapshot.identity

/-- A session goes on from itself when nothing was heard of it. -/
theorem since_self (snapshot : Session) : Since snapshot [] snapshot where
  unbound _ := ⟨rfl, fun _ => rfl⟩
  lost hbinds := by cases hbinds
  known := .inl ⟨rfl, fun _ hmem => by cases hmem⟩

/-- A session that was just bound to a connection. -/
theorem Since.of_bound (hbinds : Chronicle.binds heard = true)
    (hunlost : session.disconnectedAt? = none)
    (hknown : (session.key = snapshot.key ∧ ∀ entry ∈ heard, entry.1.isBinding = true →
        entry.1 = .resumed snapshot.key snapshot.identity) ∨
      ∃ entry ∈ heard, entry.1 = .started session.key snapshot.identity) :
    Since snapshot heard session where
  unbound hnone := by cases hbinds.symm.trans hnone
  lost _ _ hsince := by cases hunlost.symm.trans hsince
  known := hknown

/-- Whatever happens, a session goes on from its snapshot by what was heard of it since. -/
theorem remembered_since (snapshot : Session) :
    Remembered snapshot.identity (Since snapshot) := by
  intro registry action event after heard hfate hbefore session hafter
  cases hfate with
  | spared apart stays =>
    rw [heardOf, Option.map_none, Option.toList_none, List.append_nil]
    exact hbefore session hafter
  | started vacant active unlost key =>
    cases hafter
    refine .of_bound (by simp [heardOf, Chronicle.binds, SessionEvent.isBinding]) unlost ?_
    exact .inr ⟨_, List.mem_append_right _ (List.mem_singleton_self _), rfl⟩
  | resumed found same active unlost key =>
    cases hafter
    refine .of_bound (by simp [heardOf, Chronicle.binds, SessionEvent.isBinding]) unlost ?_
    rcases (hbefore _ found).known with ⟨hkey, hresumed⟩ | ⟨entry, hmem, hstarted⟩
    · have hkey := same.trans hkey
      refine .inl ⟨hkey, fun entry hmem hbinding => ?_⟩
      rcases List.mem_append.mp hmem with hmem | hmem
      · exact hresumed entry hmem hbinding
      · obtain rfl := List.mem_singleton.mp hmem
        exact congrArg (SessionEvent.resumed · _) hkey
    · rw [← same] at hstarted
      exact .inr ⟨entry, List.mem_append_left _ hmem, hstarted⟩
  | @lost action session' now apart stamped found active cause =>
    cases hafter
    have hsince := hbefore _ found
    refine ⟨fun hnone => ?_, fun _ since hlost => ?_, ?_⟩
    · rw [Chronicle.binds_append, Bool.or_eq_false_iff] at hnone
      obtain ⟨hkey, hsame⟩ := hsince.unbound hnone.1
      refine ⟨hkey, fun hgrace => ?_⟩
      rw [hsame hgrace, hgrace] at active
      cases active
    · cases hlost
      rw [Chronicle.losses_append]
      exact List.mem_append_right _ (by simp [heardOf, stamped, Chronicle.losses])
    · rcases hsince.known with ⟨hkey, hresumed⟩ | ⟨entry, hmem, hstarted⟩
      · refine .inl ⟨hkey, fun entry hmem hbinding => ?_⟩
        rcases List.mem_append.mp hmem with hmem | hmem
        · exact hresumed entry hmem hbinding
        · obtain rfl := List.mem_singleton.mp hmem
          cases hbinding
      · exact .inr ⟨entry, List.mem_append_left _ hmem, hstarted⟩
  | ended found closes => cases hafter

/-! ## Which actions end a session -/

/-- Whether an action ends a registered session, by what has happened before. A snapshot is one that
was taken of the participant's session at some moment of the past. -/
inductive Ends (past : List Action) (session : Session) : Action → Prop
  | endSession : Ends past session (.endSession session.identity)
  | endSnapshot {earlier later : List Action} {snapshot : Session}
    (split : past = earlier ++ later)
    (taken : (empty.run earlier).session? session.identity = some snapshot)
    (key : snapshot.key = session.key)
    (fresh : snapshot.isActive = true ∨
      (((empty.run earlier).chronicle later).of session.identity).binds = false) :
    Ends past session (.endSnapshot snapshot)
  | expire {order : List Identity} {now since : Instant} {grace : Duration}
    (inactive : session.isActive = false)
    (last : ((empty.chronicle past).of session.identity).losses.getLast? = some since)
    (due : grace ≤ now - since) : Ends past session (.expire order now grace)

/-- A snapshot is never made up: it was taken at some moment of the past. -/
def Genuine (past : List Action) : Action → Prop
  | .endSnapshot snapshot => ∃ earlier later, past = earlier ++ later ∧
      (empty.run earlier).session? snapshot.identity = some snapshot
  | .connect _ _ _ _ | .disconnect _ _ _ | .endSession _ | .expire _ _ _ => True

/-- A registered session lost its connection at the latest loss, if it has none. -/
theorem run_sinceLast (past : List Action)
    (hsession : (empty.run past).session? identity = some session) :
    SinceLast ((empty.chronicle past).of identity) session :=
  Remembered.run (remembered_sinceLast identity) paired_empty
    (fun _ hsession => by cases hsession) past session hsession

/-- What became of a snapshot's session since the snapshot was taken. -/
theorem run_since (earlier later : List Action)
    (htaken : (empty.run earlier).session? identity = some snapshot)
    (hsession : (empty.run (earlier ++ later)).session? identity = some session) :
    Since snapshot (((empty.run earlier).chronicle later).of identity) session := by
  obtain rfl := (run_paired earlier).labeled htaken
  rw [run_append] at hsession
  refine Remembered.run (remembered_since snapshot) (run_paired earlier)
    (fun session' hsession' => ?_) later session hsession
  obtain rfl := Option.some.inj (htaken.symm.trans hsession')
  exact since_self snapshot

/-- A snapshot without a connection that is still in step with the registered session was taken
after the latest connection, as the losses before and after it differ. -/
theorem not_binds_of_disconnectedAt? (earlier later : List Action)
    (hdistinct : (empty.chronicle (earlier ++ later)).losses.Nodup)
    (htaken : (empty.run earlier).session? identity = some snapshot)
    (hsession : (empty.run (earlier ++ later)).session? identity = some session)
    (hinactive : snapshot.isActive = false)
    (hsame : session.disconnectedAt? = snapshot.disconnectedAt?) :
    (((empty.run earlier).chronicle later).of identity).binds = false := by
  obtain ⟨-, since, hlost⟩ := ((run_paired earlier).present htaken).exists_disconnectedAt? hinactive
  by_contra hbinds
  rw [Bool.not_eq_false] at hbinds
  have hlater := (run_since earlier later htaken hsession).lost hbinds since (hsame.trans hlost)
  have hearlier := List.mem_of_getLast? (run_sinceLast earlier htaken since hlost)
  rw [chronicle_append, Chronicle.losses_append] at hdistinct
  exact (List.nodup_append'.mp hdistinct).2.2
    ((Chronicle.losses_of_sublist _ _).subset hearlier)
    ((Chronicle.losses_of_sublist _ _).subset hlater)

/-- What the registry goes by when it ends a session is what has happened to the session. -/
theorem closes_iff_ends (hdistinct : (empty.chronicle past).losses.Nodup)
    (hgenuine : Genuine past action)
    (hsession : (empty.run past).session? identity = some session) :
    Closes session action ↔ Ends past session action := by
  obtain rfl := (run_paired past).labeled hsession
  have hpresent : session.Present := (run_paired past).present hsession
  constructor
  · intro hcloses
    cases hcloses with
    | endSession => exact .endSession
    | @endSnapshot snapshot same key fresh =>
      obtain ⟨earlier, later, rfl, htaken⟩ := hgenuine
      rw [same] at htaken
      refine .endSnapshot rfl htaken key ?_
      cases hactive : snapshot.isActive with
      | true => exact .inl rfl
      | false =>
        -- Losses are told apart by their instants, so the snapshot tells of the last one.
        obtain ⟨hgrace, -⟩ :=
          ((run_paired earlier).present htaken).exists_disconnectedAt? hactive
        exact .inr (not_binds_of_disconnectedAt? earlier later hdistinct htaken hsession hactive
          (fresh.resolve_left (not_not.mpr hgrace)))
    | @expire order now grace due =>
      obtain ⟨hinactive, since, hlost, hdue⟩ := hpresent.hasExpired_iff.mp due
      exact .expire hinactive (run_sinceLast past hsession since hlost) hdue
  · intro hends
    cases hends with
    | endSession => exact .endSession
    | @endSnapshot earlier later snapshot split taken key fresh =>
      subst split
      refine .endSnapshot ((run_paired earlier).labeled taken) key ?_
      by_cases hgrace : snapshot.state = .disconnectedGrace
      · have hinactive := Session.isActive_eq_false_of_state hgrace
        have hunbound := fresh.resolve_left (by simp [hinactive])
        obtain ⟨-, hsame⟩ := (run_since earlier later taken hsession).unbound hunbound
        exact .inr (congrArg Session.disconnectedAt? (hsame hinactive))
      · exact .inl hgrace
    | @expire order now since grace inactive last due =>
      obtain ⟨-, lost, hlost⟩ := hpresent.exists_disconnectedAt? inactive
      obtain rfl := Option.some.inj (last.symm.trans (run_sinceLast past hsession lost hlost))
      exact .expire (hpresent.hasExpired_iff.mpr ⟨inactive, since, hlost, due⟩)

/-! ## Stale snapshots -/

/-- The events of a run are those of its chronicle. -/
theorem events_run (h : registry.Paired) (actions : List Action) :
    (registry.run actions).events = registry.events ++ (registry.chronicle actions).map (·.1) := by
  induction actions generalizing registry with
  | nil => exact (List.append_nil _).symm
  | cons action rest ih =>
    have htold : (registry.told action).map (·.1) = registry.emitted action := by
      simp [told, Function.comp_def]
    rw [run, List.foldl_cons, chronicle, history, List.map_append, htold, ← List.append_assoc,
      ← events_act h]
    exact ih (paired_act h action)

/-- A snapshot of another session, or one taken without a connection before the participant
connected again, changes nothing. -/
theorem endSnapshot_stale (hdistinct : (empty.chronicle (earlier ++ later)).losses.Nodup)
    (htaken : (empty.run earlier).session? identity = some snapshot)
    (hstale : (∀ session, (empty.run (earlier ++ later)).session? identity = some session →
        session.key ≠ snapshot.key) ∨
      (snapshot.isActive = false ∧
        (((empty.run earlier).chronicle later).of identity).binds = true)) :
    (empty.run (earlier ++ later)).endSnapshot snapshot = empty.run (earlier ++ later) := by
  obtain rfl := (run_paired earlier).labeled htaken
  refine endSnapshot_of_not_closes fun session hsession =>
    ⟨(run_paired _).labeled hsession, fun hcloses => ?_⟩
  cases hcloses with
  | endSnapshot same key fresh =>
    rcases hstale with hother | ⟨hinactive, hbinds⟩
    · exact hother session hsession key.symm
    · obtain ⟨hgrace, -⟩ :=
        ((run_paired earlier).present htaken).exists_disconnectedAt? hinactive
      have hunbound := not_binds_of_disconnectedAt? earlier later hdistinct htaken hsession
        hinactive (fresh.resolve_left (not_not.mpr hgrace))
      cases hbinds.symm.trans hunbound

/-- As long as keys do not come round, connecting again means that the very session is resumed. -/
theorem binds_iff_resumed (hissued : (empty.run (earlier ++ later)).keys.issued ≤ 2 ^ 64)
    (htaken : (empty.run earlier).session? identity = some snapshot)
    (hsession : (empty.run (earlier ++ later)).session? identity = some session)
    (hkey : session.key = snapshot.key) :
    (((empty.run earlier).chronicle later).of identity).binds = true ↔
      .resumed session.key identity ∈ ((empty.run earlier).chronicle later).map (·.1) := by
  obtain rfl := (run_paired earlier).labeled htaken
  have hkeyed (actions : List Action) : (empty.run actions).Keyed :=
    (run_changes_induction keyed_empty (fun _ hchange hkeyed => hchange.keyed hkeyed) actions).2
  rw [Chronicle.binds, List.any_eq_true, List.mem_map]
  constructor
  · rintro ⟨entry, hmem, hbinding⟩
    rcases (run_since earlier later htaken hsession).known with ⟨-, hresumed⟩ | ⟨start, hstart, heq⟩
    · exact ⟨entry, (List.mem_filter.mp hmem).1, (hresumed entry hmem hbinding).trans
        (congrArg (SessionEvent.resumed · _) hkey.symm)⟩
    · -- the key of the snapshot would have been issued a second time
      have hnodup := (hkeyed _).nodup hissued
      rw [issuedKeys, run_append, events_run (run_paired earlier), List.filterMap_append] at hnodup
      refine absurd ?_ ((List.nodup_append'.mp hnodup).2.2 ((hkeyed earlier).registered htaken))
      refine List.mem_filterMap.mpr
        ⟨start.1, List.mem_map_of_mem (List.mem_filter.mp hstart).1, ?_⟩
      rw [heq, ← hkey]
      rfl
  · rintro ⟨entry, hmem, hresumed⟩
    refine ⟨entry, List.mem_filter.mpr ⟨hmem, ?_⟩, ?_⟩
    · rw [hresumed]
      exact decide_eq_true rfl
    · rw [hresumed]
      rfl

/-! ## The keys of a participant -/

/-- The key that a participant gets when it connects. -/
def keyGiven (identity : Identity) (registry : Registry) : Action → List SessionKey
  | .connect now connection other capacity =>
    if other = identity then [(registry.connect now connection other capacity).1] else []
  | .disconnect _ _ _ | .endSnapshot _ | .endSession _ | .expire _ _ _ => []

/-- All keys that a participant gets when it connects. -/
def keysGiven (identity : Identity) (actions : List Action) : List SessionKey :=
  history act (keyGiven identity) empty actions

/-- Whether no action ends a session of the participant. -/
def Spared (identity : Identity) (past : List Action) : Prop :=
  ∀ {earlier action later}, past = earlier ++ action :: later →
    Genuine earlier action ∧ ∀ session, (empty.run earlier).session? identity = some session →
      ¬ Ends earlier session action

/-- Nobody is given a key but by connecting. -/
theorem keyGiven_eq_nil (h : action.connected? ≠ some identity) :
    keyGiven identity registry action = [] := by
  cases action with
  | connect now connection other capacity => exact if_neg fun heq => h (congrArg some heq)
  | disconnect now connection cause => rfl
  | endSnapshot snapshot => rfl
  | endSession other => rfl
  | expire order now grace => rfl

/-- The key that a participant gets is the one of the session it is left with. -/
theorem Fate.key_of_given (h : Fate registry identity action event after) {key : SessionKey}
    (hkey : key ∈ keyGiven identity registry action) :
    ∃ session, after = some session ∧ session.key = key := by
  cases h with
  | spared apart stays =>
    rw [keyGiven_eq_nil apart] at hkey
    cases hkey
  | started vacant active unlost given =>
    rw [keyGiven, if_pos rfl, List.mem_singleton, given] at hkey
    exact ⟨_, rfl, hkey.symm⟩
  | resumed found same active unlost given =>
    rw [keyGiven, if_pos rfl, List.mem_singleton, given] at hkey
    exact ⟨_, rfl, hkey.symm⟩
  | lost apart stamped found active cause =>
    rw [keyGiven_eq_nil apart] at hkey
    cases hkey
  | ended found closes =>
    rw [keyGiven_eq_nil closes.not_connected] at hkey
    cases hkey

/-- The last action gives a key or not, after those before it. -/
theorem keysGiven_concat (identity : Identity) (past : List Action) (action : Action) :
    keysGiven identity (past ++ [action]) =
      keysGiven identity past ++ keyGiven identity (empty.run past) action := by
  rw [keysGiven, history_append]
  exact congrArg (_ ++ ·) (List.append_nil _)

/-- A participant that is spared keeps the key that it got first. -/
theorem Spared.keys (h : Spared identity past)
    (hdistinct : (empty.chronicle past).losses.Nodup) :
    keysGiven identity past = [] ∨ ∃ session,
      (empty.run past).session? identity = some session ∧
        ∀ key ∈ keysGiven identity past, key = session.key := by
  induction past using List.reverseRecOn with
  | nil => exact .inl rfl
  | append_singleton past action ih =>
    have hbefore : (empty.chronicle past).losses.Nodup := by
      rw [chronicle_append, Chronicle.losses_append] at hdistinct
      exact (List.nodup_append'.mp hdistinct).1
    have hspared : Spared identity past := fun hsplit =>
      h (by rw [hsplit, List.append_assoc, List.cons_append])
    obtain ⟨hgenuine, hopen⟩ := h rfl
    obtain ⟨event, hfate, -⟩ := (run_paired past).exists_fate action identity
    rw [keysGiven_concat, run_append]
    change _ ∨ ∃ session, ((empty.run past).act action).session? identity = some session ∧ _
    rcases ih hspared hbefore with hnone | ⟨session, hsession, hkeys⟩
    · -- the first key, if there is one, is that of the session
      rw [hnone, List.nil_append]
      cases hgiven : keyGiven identity (empty.run past) action with
      | nil => exact .inl rfl
      | cons first rest =>
        rw [← hgiven]
        have hfirst : first ∈ keyGiven identity (empty.run past) action := by
          rw [hgiven]
          exact List.mem_cons_self
        obtain ⟨session, hsession, -⟩ := hfate.key_of_given hfirst
        refine .inr ⟨session, hsession, fun key hkey => ?_⟩
        obtain ⟨session', hsession', hsame⟩ := hfate.key_of_given hkey
        cases hsession.symm.trans hsession'
        exact hsame.symm
    · -- the session is not ended, so it keeps its key
      have hstays : ((empty.run past).act action).session? identity ≠ none := fun hnone =>
        hopen session hsession
          ((closes_iff_ends hbefore hgenuine hsession).mp ((hfate.eq_none_iff hsession).mp hnone))
      obtain ⟨session', hsession'⟩ := Option.ne_none_iff_exists'.mp hstays
      rw [hsession'] at hfate
      have hsame := hfate.key_eq hsession
      refine .inr ⟨session', hsession', fun key hkey => ?_⟩
      rcases List.mem_append.mp hkey with hkey | hkey
      · exact (hkeys key hkey).trans hsame.symm
      · obtain ⟨session'', hsession'', hkey⟩ := hfate.key_of_given hkey
        cases hsession''
        exact hkey.symm

/-! ## Runs -/

/-- When sessions end in the action after a run. -/
structure Endings (past : List Action) : Prop where
  /-- A session is removed by the actions that end it, and by no others. -/
  gone_iff {identity : Identity} {session : Session} {action : Action} :
    Genuine past action → (empty.run past).session? identity = some session →
    (((empty.run past).act action).session? identity = none ↔ Ends past session action)
  /-- Under any other action it stays, with its key. -/
  kept {identity : Identity} {session : Session} {action : Action} : Genuine past action →
    (empty.run past).session? identity = some session → ¬ Ends past session action →
    ∃ session', ((empty.run past).act action).session? identity = some session' ∧
      session'.key = session.key
  /-- The end of a session is told exactly of those that are ended. -/
  ended_iff {identity : Identity} {key : SessionKey} {action : Action} : Genuine past action →
    (.ended key identity ∈ (empty.run past).emitted action ↔
      ∃ session, (empty.run past).session? identity = some session ∧ session.key = key ∧
        Ends past session action)
  /-- A snapshot of another session, or one that was taken without a connection before the
  participant connected again, changes nothing. -/
  stale {identity : Identity} {earlier later : List Action} {snapshot : Session} :
    past = earlier ++ later → (empty.run earlier).session? identity = some snapshot →
    ((∀ session, (empty.run past).session? identity = some session →
        session.key ≠ snapshot.key) ∨
      (snapshot.isActive = false ∧
        (((empty.run earlier).chronicle later).of identity).binds = true)) →
    (empty.run past).endSnapshot snapshot = empty.run past
  /-- Connecting again means that the session of the snapshot was resumed, as long as keys do not
  come round. -/
  resumed {identity : Identity} {earlier later : List Action} {session snapshot : Session} :
    (empty.run past).keys.issued ≤ 2 ^ 64 → past = earlier ++ later →
    (empty.run earlier).session? identity = some snapshot →
    (empty.run past).session? identity = some session → session.key = snapshot.key →
    ((((empty.run earlier).chronicle later).of identity).binds = true ↔
      .resumed session.key identity ∈ ((empty.run earlier).chronicle later).map (·.1))
  /-- A participant whose sessions no action ended got the same key whenever it connected. -/
  same_key {identity : Identity} : Spared identity past →
    ∀ key ∈ keysGiven identity past, ∀ key' ∈ keysGiven identity past, key = key'

/-- When no two losses bear the same instant, sessions end exactly as they should. -/
theorem run_endings (past : List Action) (h : (empty.chronicle past).losses.Nodup) :
    Endings past where
  gone_iff {identity session action} hgenuine hsession := by
    obtain ⟨event, hfate, -⟩ := (run_paired past).exists_fate action identity
    exact (hfate.eq_none_iff hsession).trans (closes_iff_ends h hgenuine hsession)
  kept {identity session action} hgenuine hsession hends := by
    obtain ⟨event, hfate, -⟩ := (run_paired past).exists_fate action identity
    have hstays : ((empty.run past).act action).session? identity ≠ none := fun hnone =>
      hends ((closes_iff_ends h hgenuine hsession).mp ((hfate.eq_none_iff hsession).mp hnone))
    obtain ⟨session', hsession'⟩ := Option.ne_none_iff_exists'.mp hstays
    rw [hsession'] at hfate
    exact ⟨session', hsession', hfate.key_eq hsession⟩
  ended_iff {identity key action} hgenuine := by
    obtain ⟨event, hfate, habout⟩ := (run_paired past).exists_fate action identity
    have hmem : .ended key identity ∈ (empty.run past).emitted action ↔
        event = some (.ended key identity) := by
      rw [← Option.mem_toList, ← habout, about, List.mem_filter]
      exact (and_iff_left (decide_eq_true rfl)).symm
    rw [hmem, hfate.eq_ended_iff]
    refine exists_congr fun session => and_congr_right fun hsession => and_congr_right fun _ => ?_
    exact closes_iff_ends h hgenuine hsession
  stale {identity earlier later snapshot} hsplit htaken hstale := by
    subst hsplit
    exact endSnapshot_stale h htaken hstale
  resumed {identity earlier later session snapshot} hissued hsplit htaken hsession hkey := by
    subst hsplit
    exact binds_iff_resumed hissued htaken hsession hkey
  same_key {identity} hspared key hkey key' hkey' := by
    rcases hspared.keys h with hnone | ⟨session, -, hkeys⟩
    · rw [hnone] at hkey
      cases hkey
    · exact (hkeys key hkey).trans (hkeys key' hkey').symm

/-- A participant loses its connection twice, and comes back once in between. -/
def lapses : List Action :=
  [.connect 0 1 ⟨"ada"⟩ none, .disconnect 3 1 (some "reset by peer"), .connect 5 2 ⟨"ada"⟩ none,
    .disconnect 8 2 none]

/-- The session of the participant while it has been without a connection since an instant. -/
def lapsed (since : Instant) : Session :=
  { key := 1
    identity := ⟨"ada"⟩
    handle? := none
    state := .disconnectedGrace
    disconnectedAt? := some since }

/-- A snapshot that was taken at the first lapse is stale after the second one. -/
theorem lapses_endings :
    (empty.run (lapses.take 2)).session? ⟨"ada"⟩ = some (lapsed 3) ∧
      (empty.run lapses).session? ⟨"ada"⟩ = some (lapsed 8) ∧
      (empty.run lapses).endSnapshot (lapsed 3) = empty.run lapses ∧
      (empty.chronicle lapses).losses.Nodup ∧ Endings lapses := by
  have hdistinct : (empty.chronicle lapses).losses.Nodup := by decide +kernel
  have htaken : (empty.run (lapses.take 2)).session? ⟨"ada"⟩ = some (lapsed 3) := by
    decide +kernel
  refine ⟨htaken, by decide +kernel, ?_, hdistinct, run_endings lapses hdistinct⟩
  have hrebound : (((empty.run (lapses.take 2)).chronicle (lapses.drop 2)).of ⟨"ada"⟩).binds =
      true := by decide +kernel
  exact (run_endings lapses hdistinct).stale rfl htaken (.inr ⟨rfl, hrebound⟩)

end Registry

end SharedWorld
