import SharedWorld.Proofs.Sessions

/-!
# What the events of sessions tell

The rest of the server learns about sessions only from the events of their registry. Heard from the
first one on, they give the table of sessions after every run, and each of them is legal when it
comes: a session starts, it is resumed and loses its connection while it is registered, and once it
has ended nothing more is heard of its key (`Registry.run_told`).
-/

namespace SharedWorld

/-- The session key an event is about. -/
def SessionEvent.key : SessionEvent → SessionKey
  | .started key _ | .resumed key _ | .disconnected key _ _ | .ended key _ => key

/-- What is known of sessions from their events: the key of each participant's session, and whether
it is active. -/
abbrev Roll := Table Identity (SessionKey × Bool)

namespace Roll

/-- What is known after an event. -/
def hear (roll : Roll) : SessionEvent → Roll
  | .started key identity => roll.insert identity (key, true)
  | .resumed _ identity => roll.modify identity fun entry => (entry.1, true)
  | .disconnected _ identity _ => roll.modify identity fun entry => (entry.1, false)
  | .ended _ identity => roll.erase identity

/-- What is known after a list of events. -/
def of (events : List SessionEvent) : Roll := events.foldl hear Table.empty

/-- Whether an event is legal after what is known: only absent participants start a session, the
events of a session carry its key, and only an active one loses its connection. -/
def Allows (roll : Roll) : SessionEvent → Prop
  | .started _ identity => roll.get? identity = none
  | .resumed key identity | .ended key identity =>
    ∃ isActive, roll.get? identity = some (key, isActive)
  | .disconnected key identity _ => roll.get? identity = some (key, true)

end Roll

/-- The events of one session, from its start on, and whether it is still registered after them. -/
inductive Life (key : SessionKey) (identity : Identity) : List SessionEvent → Bool → Prop
  | started : Life key identity [.started key identity] true
  | resumed {events : List SessionEvent} (life : Life key identity events true) :
    Life key identity (events ++ [.resumed key identity]) true
  | disconnected {events : List SessionEvent} (life : Life key identity events true)
    (cause : Option String) :
    Life key identity (events ++ [.disconnected key identity cause]) true
  | ended {events : List SessionEvent} (life : Life key identity events true) :
    Life key identity (events ++ [.ended key identity]) false

/-- The life of a session begins with its start. -/
theorem Life.exists_cons {key : SessionKey} {identity : Identity} {events : List SessionEvent}
    {lives : Bool} (h : Life key identity events lives) :
    ∃ rest, events = .started key identity :: rest := by
  induction h with
  | started => exact ⟨[], rfl⟩
  | resumed life ih =>
    obtain ⟨rest, rfl⟩ := ih
    exact ⟨_, List.cons_append⟩
  | disconnected life cause ih =>
    obtain ⟨rest, rfl⟩ := ih
    exact ⟨_, List.cons_append⟩
  | ended life ih =>
    obtain ⟨rest, rfl⟩ := ih
    exact ⟨_, List.cons_append⟩

/-- The life of a session has its start. -/
theorem Life.started_mem {key : SessionKey} {identity : Identity} {events : List SessionEvent}
    {lives : Bool} (h : Life key identity events lives) : .started key identity ∈ events := by
  obtain ⟨rest, rfl⟩ := h.exists_cons
  exact List.mem_cons_self

/-! ## One event -/

namespace Session

/-- What is known of a session from its events. -/
def entry (session : Session) : SessionKey × Bool := (session.key, session.isActive)

namespace Turn

variable {identity : Identity} {keys keys' : IdGenerator .session} {before after : Option Session}
  {event : SessionEvent}

/-- The event of a change is legal where the session is known and has not ended. -/
theorem allowed (turn : Turn identity keys before event keys' after) {roll : Roll}
    (hpresent : ∀ {session}, before = some session → session.Present)
    (h : roll.get? identity = before.map entry) : roll.Allows event := by
  cases turn with
  | started handle => exact h
  | resumed session handle => exact ⟨_, h⟩
  | disconnected bound now cause =>
    have hactive := decide_eq_true ((hpresent rfl).active bound).1
    rw [Option.map_some, entry, isActive, hactive] at h
    exact h
  | ended session => exact ⟨_, h⟩

/-- The event of a change tells what has become of the session. -/
theorem get?_hear (turn : Turn identity keys before event keys' after) {roll : Roll}
    (h : roll.get? identity = before.map entry) (other : Identity) :
    (roll.hear event).get? other =
      if other = identity then after.map entry else roll.get? other := by
  cases turn with
  | started handle => exact Table.get?_insert _ _ _ _
  | resumed session handle =>
    refine (Table.get?_modify _ _ _ _).trans ?_
    rw [h]
    rfl
  | disconnected bound now cause =>
    refine (Table.get?_modify _ _ _ _).trans ?_
    rw [h]
    rfl
  | ended session => exact Table.get?_erase _ _ _

/-- The event of a change carries the key of the session. -/
theorem key_eq (turn : Turn identity keys before event keys' after) {session : Session}
    (h : before = some session ∨ after = some session) : session.key = event.key := by
  cases turn with
  | started handle =>
    rcases h with h | h
    · cases h
    · cases h
      rfl
  | resumed session handle => rcases h with h | h <;> cases h <;> rfl
  | disconnected bound now cause => rcases h with h | h <;> cases h <;> rfl
  | ended session =>
    rcases h with h | h
    · cases h
      rfl
    · cases h

/-- A change continues the life of the session, or begins a new one. -/
theorem life (turn : Turn identity keys before event keys' after) :
    (before = none ∧ event = .started event.key identity ∧ after.isSome = true) ∨
      ∃ session, before = some session ∧ session.key = event.key ∧
        ∀ {events}, Life event.key identity events true →
          Life event.key identity (events ++ [event]) after.isSome := by
  cases turn with
  | started handle => exact .inl ⟨rfl, rfl, rfl⟩
  | resumed session handle => exact .inr ⟨session, rfl, rfl, .resumed⟩
  | @disconnected session connection bound now cause =>
    exact .inr ⟨session, rfl, rfl, fun life => life.disconnected cause⟩
  | ended session => exact .inr ⟨session, rfl, rfl, .ended⟩

end Turn

end Session

/-! ## All events -/

namespace Registry

variable {registry before after : Registry} {identity : Identity} {event : SessionEvent}
  {session : Session} {key : SessionKey}

/-- The events of the session with the given key, in their order. -/
def eventsOf (registry : Registry) (key : SessionKey) : List SessionEvent :=
  registry.events.filter fun event => event.key = key

/-- The events tell which sessions are registered, and each of them was legal when it came. -/
structure Tells (registry : Registry) : Prop where
  roll : ∀ identity,
    (Roll.of registry.events).get? identity = (registry.session? identity).map Session.entry
  legal : ∀ {earlier event later}, registry.events = earlier ++ event :: later →
    (Roll.of earlier).Allows event

/-- An empty registry has nothing to tell. -/
theorem tells_empty : Registry.empty.Tells where
  roll _ := rfl
  legal h := by
    change [] = _ at h
    simp at h

/-- The event of a change tells what has become of the sessions. -/
theorem Change.tells (h : before.Change identity event after) (hpaired : before.Paired)
    (htells : before.Tells) : after.Tells := by
  have hroll : Roll.of after.events = (Roll.of before.events).hear event := by
    rw [h.events, Roll.of, Roll.of, List.foldl_append]
    rfl
  refine ⟨fun other => ?_, fun {earlier next later} hsplit => ?_⟩
  · rw [hroll, h.turn.get?_hear (htells.roll identity)]
    by_cases hother : other = identity
    · rw [if_pos hother, hother]
    · rw [if_neg hother, h.others hother]
      exact htells.roll other
  · rw [h.events] at hsplit
    rcases List.eq_nil_or_concat later with rfl | ⟨later, last, rfl⟩
    · -- the event is the last one
      obtain ⟨rfl, hevent⟩ := List.append_inj' hsplit rfl
      cases hevent
      exact h.turn.allowed hpaired.present (htells.roll identity)
    · have hsplit : before.events ++ [event] = (earlier ++ next :: later) ++ [last] := by
        rw [hsplit, List.concat_eq_append, List.append_assoc, List.cons_append]
      exact htells.legal (List.append_inj' hsplit rfl).1

/-- The events of a key are those of the life of a session, and the session is registered exactly if
it did not end. -/
inductive Lives (registry : Registry) (key : SessionKey) : Prop
  | unborn (unheard : registry.eventsOf key = [])
  | registered {identity : Identity} {session : Session}
    (life : Life key identity (registry.eventsOf key) true)
    (found : registry.session? identity = some session) (carries : session.key = key)
  | ended {identity : Identity} (life : Life key identity (registry.eventsOf key) false)
    (gone : ∀ {other session}, registry.session? other = some session → session.key ≠ key)

/-- A key was issued just if a session was started with it. -/
theorem mem_issuedKeys_iff :
    key ∈ registry.issuedKeys ↔ ∃ identity, .started key identity ∈ registry.events := by
  rw [issuedKeys, List.mem_filterMap]
  constructor
  · rintro ⟨event, hmem, hissued⟩
    cases event with
    | started issued identity =>
      cases hissued
      exact ⟨identity, hmem⟩
    | resumed issued identity => cases hissued
    | disconnected issued identity cause => cases hissued
    | ended issued identity => cases hissued
  · rintro ⟨identity, hmem⟩
    exact ⟨_, hmem, rfl⟩

/-- The session of a key that is registered is the one whose life the events tell. -/
theorem Lives.registered_life (h : registry.Lives key) (hkeyed : registry.Keyed)
    (hnodup : registry.issuedKeys.Nodup)
    (hsession : registry.session? identity = some session) (hkey : session.key = key) :
    Life key identity (registry.eventsOf key) true := by
  cases h with
  | unborn unheard =>
    have hissued := hkeyed.registered hsession
    rw [hkey] at hissued
    obtain ⟨starter, hstarted⟩ := mem_issuedKeys_iff.mp hissued
    have hmem : SessionEvent.started key starter ∈ registry.eventsOf key :=
      List.mem_filter.mpr ⟨hstarted, decide_eq_true rfl⟩
    rw [unheard] at hmem
    cases hmem
  | registered life found carries =>
    rw [hkeyed.distinct hnodup hsession found (hkey.trans carries.symm)]
    exact life
  | ended life gone => exact absurd hkey (gone hsession)

/-- The events of a key are none, or the life of a session. -/
theorem Lives.life (h : registry.Lives key) : registry.eventsOf key = [] ∨
    ∃ identity lives, Life key identity (registry.eventsOf key) lives := by
  cases h with
  | unborn unheard => exact .inl unheard
  | registered life found carries => exact .inr ⟨_, _, life⟩
  | ended life gone => exact .inr ⟨_, _, life⟩

/-- A key that was not issued was not heard of. -/
theorem Lives.eventsOf_eq_nil (h : registry.Lives key) (hfresh : key ∉ registry.issuedKeys) :
    registry.eventsOf key = [] := by
  rcases h.life with hnil | ⟨identity, lives, life⟩
  · exact hnil
  · have hstarted := (List.mem_filter.mp life.started_mem).1
    exact absurd (mem_issuedKeys_iff.mpr ⟨identity, hstarted⟩) hfresh

/-- A key is not issued twice, so what is heard of it begins with the start of its session. -/
theorem Lives.fresh (h : registry.Lives key) (hnodup : registry.issuedKeys.Nodup)
    {earlier later : List SessionEvent}
    (hsplit : registry.events = earlier ++ .started key identity :: later) :
    ∀ event ∈ earlier, event.key ≠ key := by
  intro event hmem hkey
  have hevents : registry.eventsOf key = earlier.filter (fun event => event.key = key) ++
      List.filter (fun event => event.key = key) (.started key identity :: later) := by
    rw [eventsOf, hsplit, List.filter_append]
  have hearlier : event ∈ earlier.filter fun event => event.key = key :=
    List.mem_filter.mpr ⟨hmem, decide_eq_true hkey⟩
  rcases h.life with hnil | ⟨starter, lives, life⟩
  · rw [hnil] at hevents
    rw [(List.append_eq_nil_iff.mp hevents.symm).1] at hearlier
    cases hearlier
  · obtain ⟨rest, hrest⟩ := life.exists_cons
    obtain ⟨first, tail, hfirst⟩ := List.exists_cons_of_ne_nil (List.ne_nil_of_mem hearlier)
    have hstarted : .started key starter ∈ earlier := by
      rw [hrest, hfirst] at hevents
      obtain ⟨rfl, -⟩ := List.cons.inj hevents
      have hmine : SessionEvent.started key starter ∈ earlier.filter (·.key = key) := by
        rw [hfirst]
        exact List.mem_cons_self
      exact (List.mem_filter.mp hmine).1
    have hissued : registry.issuedKeys = earlier.filterMap SessionEvent.issued? ++
        key :: later.filterMap SessionEvent.issued? := by
      rw [issuedKeys, hsplit, List.filterMap_append]
      rfl
    rw [hissued] at hnodup
    refine (List.nodup_append'.mp hnodup).2.2 ?_ List.mem_cons_self
    exact List.mem_filterMap.mpr ⟨_, hstarted, rfl⟩

/-- The keys that were issued before a change were fresh if those after it are. -/
theorem Change.nodup_before (h : before.Change identity event after)
    (hnodup : after.issuedKeys.Nodup) : before.issuedKeys.Nodup := by
  rw [h.issuedKeys_eq] at hnodup
  exact (List.nodup_append'.mp hnodup).1

/-- A change adds its event to those of its own key. -/
theorem Change.eventsOf_eq (h : before.Change identity event after) (key : SessionKey) :
    after.eventsOf key = before.eventsOf key ++ if event.key = key then [event] else [] := by
  rw [eventsOf, h.events, List.filter_append]
  split <;> simp [eventsOf, *]

/-- A change tells of no other key. -/
theorem Change.lives_of_ne (h : before.Change identity event after) (hkey : event.key ≠ key)
    (hlives : before.Lives key) : after.Lives key := by
  have hevents := h.eventsOf_eq key
  rw [if_neg hkey, List.append_nil] at hevents
  cases hlives with
  | unborn unheard => exact .unborn (hevents.trans unheard)
  | @registered other session life found carries =>
    have hne : other ≠ identity := by
      rintro rfl
      exact hkey ((h.turn.key_eq (.inl found)).symm.trans carries)
    rw [← hevents] at life
    exact .registered life ((h.others hne).trans found) carries
  | @ended other life gone =>
    rw [← hevents] at life
    refine .ended life fun {other found} hfound hsame => ?_
    by_cases hother : other = identity
    · subst hother
      exact hkey ((h.turn.key_eq (.inr hfound)).symm.trans hsame)
    · exact gone ((h.others hother).symm.trans hfound) hsame

/-- A session that starts with a fresh key begins its life. -/
theorem Change.lives_of_started (h : before.Change identity event after)
    (hnodup : after.issuedKeys.Nodup) (hstarted : event = .started event.key identity)
    (hsome : (after.session? identity).isSome = true) (hlives : before.Lives event.key) :
    after.Lives event.key := by
  obtain ⟨session, hsession⟩ := Option.isSome_iff_exists.mp hsome
  have hissued : event.issued? = some event.key := congrArg SessionEvent.issued? hstarted
  have hfresh : event.key ∉ before.issuedKeys := by
    rw [h.issuedKeys_eq, hissued] at hnodup
    exact fun hmem => (List.nodup_append'.mp hnodup).2.2 hmem (List.mem_singleton_self _)
  have hfirst : [event] = [.started event.key identity] :=
    congrArg (fun event => [event]) hstarted
  refine .registered ?_ hsession (h.turn.key_eq (.inr hsession))
  rw [h.eventsOf_eq, if_pos rfl, hlives.eventsOf_eq_nil hfresh, List.nil_append, hfirst]
  exact .started

/-- A session that is registered goes on with its life, and it is still registered or has ended. -/
theorem Change.lives_of_life (h : before.Change identity event after) (hkeyed : before.Keyed)
    (hnodup : before.issuedKeys.Nodup) (hsession : before.session? identity = some session)
    (hlife : Life event.key identity (after.eventsOf event.key)
      (after.session? identity).isSome) : after.Lives event.key := by
  cases hafter : after.session? identity with
  | some session' =>
    rw [hafter] at hlife
    exact .registered hlife hafter (h.turn.key_eq (.inr hafter))
  | none =>
    rw [hafter] at hlife
    refine .ended hlife fun {other found} hother hsame => ?_
    have hne : other ≠ identity := by
      rintro rfl
      cases hafter.symm.trans hother
    have hcarries := h.turn.key_eq (.inl hsession)
    rw [h.others hne] at hother
    exact hne (hkeyed.distinct hnodup hother hsession (hsame.trans hcarries.symm))

/-- A change goes on with the life of one session, or begins it. -/
theorem Change.lives (h : before.Change identity event after) (hkeyed : before.Keyed)
    (hnodup : after.issuedKeys.Nodup) (hlives : before.Lives key) : after.Lives key := by
  by_cases hkey : event.key = key
  · subst hkey
    rcases h.turn.life with ⟨-, hstarted, hsome⟩ | ⟨session, hsession, hcarries, hgoesOn⟩
    · exact h.lives_of_started hnodup hstarted hsome hlives
    · have hbefore := h.nodup_before hnodup
      have hlife := hgoesOn (hlives.registered_life hkeyed hbefore hsession hcarries)
      refine h.lives_of_life hkeyed hbefore hsession ?_
      rw [h.eventsOf_eq, if_pos rfl]
      exact hlife
  · exact h.lives_of_ne hkey hlives

/-! ## Runs -/

/-- The events of a registry tell everything about its sessions, and nothing else. The last two
parts hold until the keys come round, as there are only `2 ^ 64` of them. -/
structure Told (registry : Registry) : Prop where
  /-- Put together, the events give the table of sessions. -/
  roll : ∀ identity, (Roll.of registry.events).get? identity =
    (registry.session? identity).map fun session => (session.key, session.isActive)
  /-- Each event was legal when it came. -/
  legal : ∀ {earlier event later}, registry.events = earlier ++ event :: later →
    (Roll.of earlier).Allows event
  /-- A session starts with a key that was not heard of before. -/
  fresh : registry.keys.issued ≤ 2 ^ 64 → ∀ {earlier key identity later},
    registry.events = earlier ++ .started key identity :: later →
    ∀ event ∈ earlier, event.key ≠ key
  /-- The events of a key start a session, resume it or take its connection, and end it at most
  once. Nothing comes after that. -/
  life : registry.keys.issued ≤ 2 ^ 64 → ∀ key,
    registry.eventsOf key = [] ∨ ∃ identity lives, Life key identity (registry.eventsOf key) lives

/-- Whatever happens to a registry, its events tell the whole truth about its sessions. -/
theorem run_told (actions : List Action) : (empty.run actions).Told := by
  obtain ⟨-, hkeyed, htells, hlives⟩ := run_changes_induction
    (P := fun registry => registry.Keyed ∧ registry.Tells ∧
      (registry.issuedKeys.Nodup → ∀ key, registry.Lives key))
    ⟨keyed_empty, tells_empty, fun _ _ => .unborn rfl⟩
    (fun hpaired hchange h => ⟨hchange.keyed h.1, hchange.tells hpaired h.2.1, fun hnodup key =>
      hchange.lives h.1 hnodup (h.2.2 (hchange.nodup_before hnodup) key)⟩) actions
  refine ⟨htells.roll, htells.legal, fun hissued {earlier key identity later} hsplit => ?_,
    fun hissued key => ?_⟩
  · have hnodup := hkeyed.nodup hissued
    exact (hlives hnodup key).fresh hnodup hsplit
  · exact (hlives (hkeyed.nodup hissued) key).life

/-- A participant comes back in time, ends its session, and starts another one on the same
connection. -/
def comeback : List Action :=
  [.connect 0 1 ⟨"ada"⟩ none, .disconnect 3 1 (some "reset by peer"), .connect 5 2 ⟨"ada"⟩ none,
    .endSession ⟨"ada"⟩, .connect 9 2 ⟨"ada"⟩ none]

/-- The events of the comeback tell of two sessions. -/
theorem comeback_told :
    (empty.run comeback).events =
        [.started 1 ⟨"ada"⟩, .disconnected 1 ⟨"ada"⟩ (some "reset by peer"), .resumed 1 ⟨"ada"⟩,
          .ended 1 ⟨"ada"⟩, .started 2 ⟨"ada"⟩] ∧
      (empty.run comeback).keys.issued ≤ 2 ^ 64 ∧ (empty.run comeback).Told :=
  ⟨by decide +kernel, by decide +kernel, run_told comeback⟩

end Registry

end SharedWorld
