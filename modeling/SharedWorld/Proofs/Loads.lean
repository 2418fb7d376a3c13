import SharedWorld.Proofs.Histories
import SharedWorld.Proofs.References

/-!
# One load under way for a key

A load is outstanding from its start until its outcome is settled: first the loader has it, then its
outcome waits among those that arrived. An entry is pending exactly as long as one load of its key
is outstanding, and there never are two (`Cache.run_loadsOnce`). What an operation does to pending
entries is stated through one view of them, the tickets that wait under a key (`Cache.waiters?`).
-/

namespace SharedWorld

/-- The tickets that wait for a payload that is being loaded. -/
def EntryState.waiters? {π : Type} : EntryState π → Option (List Ticket)
  | .pending waiters => some waiters
  | _ => none

namespace Cache

open Std

variable {κ π : Type} [Ord κ]

/-- The tickets that wait for the load of `key`, if its entry is pending. -/
def waiters? (cache : Cache κ π) (key : κ) : Option (List Ticket) :=
  ((cache.entries.get? key).map Entry.state).bind EntryState.waiters?

/-- Whether the entry under `key` is pending. -/
def isPending (cache : Cache κ π) (key : κ) : Bool := (cache.waiters? key).isSome

/-- The number of pending entries. -/
def pendingCount (cache : Cache κ π) : Nat :=
  cache.entries.values.countP fun entry => entry.state.waiters?.isSome

/-- The keys of the loads that were started and not settled. -/
def outstanding (cache : Cache κ π) : List κ := cache.loading ++ cache.arrived.map (·.1)

/-- Whether there is no entry under `key`, or a failed one. -/
def lacks (cache : Cache κ π) (key : κ) : Bool :=
  match cache.entries.get? key with
  | none => true
  | some ⟨.failed, _⟩ => true
  | some _ => false

/-- An entry in the same state has the same waiters. -/
theorem SameState.waiters? {before after : Cache κ π} {key : κ} (h : before.SameState after key) :
    after.waiters? key = before.waiters? key :=
  congrArg (Option.bind · EntryState.waiters?) h

/-- With the same readers, every entry has the same waiters. -/
theorem SameReaders.waiters? {before after : Cache κ π} (h : before.SameReaders after) (key : κ) :
    after.waiters? key = before.waiters? key := by
  rw [Cache.waiters?, Cache.waiters?, h.entries]

/-- A key has waiters just if its entry is pending. -/
theorem waiters?_eq_some_iff {cache : Cache κ π} {key : κ} {waiters : List Ticket} :
    cache.waiters? key = some waiters ↔
      ∃ refs, cache.entries.get? key = some ⟨.pending waiters, refs⟩ := by
  unfold waiters?
  cases cache.entries.get? key with
  | none => simp
  | some entry =>
    obtain ⟨state, refs⟩ := entry
    cases state <;> simp [EntryState.waiters?]

/-- A key whose entry is not pending has no waiters. -/
theorem waiters?_eq_none {cache : Cache κ π} {key : κ}
    (h : ∀ waiters refs, cache.entries.get? key ≠ some ⟨.pending waiters, refs⟩) :
    cache.waiters? key = none := by
  cases hwaiters : cache.waiters? key with
  | none => rfl
  | some waiters =>
    obtain ⟨refs, hentry⟩ := waiters?_eq_some_iff.mp hwaiters
    exact absurd hentry (h waiters refs)

/-- A waiter is listed exactly where it is seen. -/
theorem lists_iff_exists {cache : Cache κ π} {key : κ} {ticket : Ticket} :
    cache.Lists key ticket ↔ ∃ waiters, cache.waiters? key = some waiters ∧ ticket ∈ waiters := by
  simp only [Lists, waiters?_eq_some_iff]
  constructor
  · rintro ⟨waiters, refs, hentry, hmem⟩
    exact ⟨waiters, ⟨refs, hentry⟩, hmem⟩
  · rintro ⟨waiters, ⟨refs, hentry⟩, hmem⟩
    exact ⟨waiters, refs, hentry, hmem⟩

/-- A key without a ready entry is pending or lacks its payload. -/
theorem peek?_eq_none_iff {cache : Cache κ π} {key : κ} :
    cache.peek? key = none ↔ cache.isPending key = true ∨ cache.lacks key = true := by
  unfold peek? isPending waiters? lacks
  cases cache.entries.get? key with
  | none => simp
  | some entry =>
    obtain ⟨state, refs⟩ := entry
    cases state <;> simp [EntryState.waiters?]

/-- Nobody waits where there is no entry or a failed one. -/
theorem waiters?_eq_none_of_lacks {cache : Cache κ π} {key : κ} (h : cache.lacks key = true) :
    cache.waiters? key = none := by
  refine waiters?_eq_none fun waiters refs hentry => ?_
  rw [lacks, hentry] at h
  cases h

/-! ## What operations do to pending entries -/

/-- The caches have started the same loads, which have come equally far, and issued the same
tickets. -/
structure SameLoads (before after : Cache κ π) : Prop where
  loader : after.loader = before.loader
  started : after.started = before.started
  loading : after.loading = before.loading
  arrived : after.arrived = before.arrived
  nextTicket : after.nextTicket = before.nextTicket

/-- A cache has the same loads as itself. -/
theorem SameLoads.refl (cache : Cache κ π) : cache.SameLoads cache := ⟨rfl, rfl, rfl, rfl, rfl⟩

/-- With the same loads, the same ones are outstanding. -/
theorem SameLoads.outstanding {before after : Cache κ π} (h : before.SameLoads after) :
    after.outstanding = before.outstanding := by
  rw [Cache.outstanding, Cache.outstanding, h.loading, h.arrived]

/-- An operation that leaves the loads and those who wait for them alone. -/
structure Spares (before after : Cache κ π) : Prop where
  loads : before.SameLoads after
  waiters : ∀ key, after.waiters? key = before.waiters? key
  delivered : after.delivered = before.delivered

/-- Doing nothing spares those who wait. -/
theorem Spares.refl (cache : Cache κ π) : cache.Spares cache := ⟨.refl cache, fun _ => rfl, rfl⟩

/-- Those who wait are spared step by step. -/
theorem Spares.trans {before middle after : Cache κ π} (first : before.Spares middle)
    (rest : middle.Spares after) : before.Spares after where
  loads := ⟨rest.loads.loader.trans first.loads.loader,
    rest.loads.started.trans first.loads.started, rest.loads.loading.trans first.loads.loading,
    rest.loads.arrived.trans first.loads.arrived,
    rest.loads.nextTicket.trans first.loads.nextTicket⟩
  waiters key := (rest.waiters key).trans (first.waiters key)
  delivered := rest.delivered.trans first.delivered

/-- An idle entry is not pending. -/
theorem Sound.waiters?_of_mem_idle {Fits : κ → π → Prop} {cache : Cache κ π} {key : κ}
    (h : cache.Sound Fits) (hmem : key ∈ cache.idle) : cache.waiters? key = none := by
  obtain ⟨payload, hready⟩ := h.idle_ready hmem
  rw [waiters?, hready]
  rfl

section Operations

variable [DecidableEq κ] {cache : Cache κ π} {key : κ}

/-- Touching a key spares those who wait. -/
theorem promote_spares (cache : Cache κ π) (key : κ) : cache.Spares (cache.promote key) := by
  unfold promote
  split
  · exact ⟨⟨rfl, rfl, rfl, rfl, rfl⟩, fun _ => rfl, rfl⟩
  · exact .refl cache

/-- Loads have come further: outcomes may have arrived of loads that were under way. -/
structure Reports (before after : Cache κ π) : Prop where
  readers : before.SameReaders after
  loader : after.loader = before.loader
  started : after.started = before.started
  outstanding : after.outstanding.Perm before.outstanding

/-- Reporting an outcome settles nothing yet. -/
theorem report_reports (cache : Cache κ π) (key : κ) (outcome : LoadOutcome π) :
    cache.Reports (cache.report key outcome).2 := by
  unfold report
  by_cases hmem : key ∈ cache.loading
  · rw [if_pos hmem]
    refine ⟨⟨rfl, rfl, rfl⟩, rfl, rfl, ?_⟩
    change (cache.loading.erase key ++ (cache.arrived ++ [(key, outcome)]).map (·.1)).Perm _
    rw [List.map_append, ← List.append_assoc]
    calc (cache.loading.erase key ++ cache.arrived.map (·.1) ++ [key]).Perm
          (key :: cache.loading.erase key ++ cache.arrived.map (·.1)) :=
        List.perm_append_singleton _ _
      List.Perm _ cache.outstanding := (List.perm_cons_erase hmem).symm.append_right _
  · rw [if_neg hmem]
    exact ⟨⟨rfl, rfl, rfl⟩, rfl, rfl, .refl _⟩

/-- Reporting outcomes settles nothing yet. -/
theorem foldl_report_reports (cache : Cache κ π) (reports : List (κ × LoadOutcome π)) :
    cache.Reports
      (reports.foldl (fun cache report => (cache.report report.1 report.2).2) cache) := by
  induction reports generalizing cache with
  | nil => exact ⟨⟨rfl, rfl, rfl⟩, rfl, rfl, .refl _⟩
  | cons report rest ih =>
    have hfirst := cache.report_reports report.1 report.2
    have hrest := ih (cache.report report.1 report.2).2
    exact ⟨⟨hrest.readers.entries.trans hfirst.readers.entries,
      hrest.readers.nextTicket.trans hfirst.readers.nextTicket,
      hrest.readers.delivered.trans hfirst.readers.delivered⟩, hrest.loader.trans hfirst.loader,
      hrest.started.trans hfirst.started, hrest.outstanding.trans hfirst.outstanding⟩

variable [TransOrd κ]

/-- Those who wait for a key are delivered the outcome when it is settled, and nobody else is. -/
theorem get?_delivered_settle (cache : Cache κ π) (key : κ) (outcome : LoadOutcome π)
    (ticket : Ticket) :
    (cache.settle key outcome).delivered.get? ticket =
      if ticket ∈ (cache.waiters? key).getD [] then some outcome
      else cache.delivered.get? ticket := by
  rcases cache.pending_or_settle_eq key with ⟨waiters, refs, hentry⟩ | ⟨hstray, hstays⟩
  · rw [waiters?_eq_some_iff.mpr ⟨refs, hentry⟩, Option.getD_some]
    simp only [Cache.settle, hentry]
    cases outcome with
    | loaded payload =>
      dsimp only
      split
      · exact get?_foldl_insert _ _ _ _
      · exact get?_foldl_insert _ _ _ _
    | failed error =>
      dsimp only
      split
      · exact get?_foldl_insert _ _ _ _
      · exact get?_foldl_insert _ _ _ _
  · rw [waiters?_eq_none hstray, hstays]
    rfl

/-- Settling an entry leaves the loads alone. -/
theorem settle_sameLoads (cache : Cache κ π) (key : κ) (outcome : LoadOutcome π) :
    cache.SameLoads (cache.settle key outcome) := by
  rcases cache.pending_or_settle_eq key with ⟨waiters, refs, hentry⟩ | ⟨-, hstays⟩
  · simp only [Cache.settle, hentry]
    cases outcome with
    | loaded payload =>
      dsimp only
      split
      · exact ⟨rfl, rfl, rfl, rfl, rfl⟩
      · exact ⟨rfl, rfl, rfl, rfl, rfl⟩
    | failed error =>
      dsimp only
      split
      · exact ⟨rfl, rfl, rfl, rfl, rfl⟩
      · exact ⟨rfl, rfl, rfl, rfl, rfl⟩
  · rw [hstays]
    exact .refl cache

/-- Settling what arrived first starts no load. -/
theorem started_settleNext (cache : Cache κ π) : cache.settleNext.started = cache.started := by
  unfold Cache.settleNext
  cases harrived : cache.arrived with
  | nil => rfl
  | cons arrival rest =>
    exact (settle_sameLoads { cache with arrived := rest } arrival.1 arrival.2).started

/-- What resolving a key comes to, by the entry it finds. -/
inductive ResolveOutcome (cache : Cache κ π) (key : κ) : Resolution κ π → Cache κ π → Prop where
  | reads {payload : π} (ready : cache.peek? key = some payload) :
    ResolveOutcome cache key (.settled (some (.loaded payload))) (cache.promote key)
  | joins {waiters : List Ticket} {refs : Nat}
    (pending : cache.entries.get? key = some ⟨.pending waiters, refs⟩) :
    ResolveOutcome cache key (.waiting key cache.nextTicket) { cache with
      entries := cache.entries.insert key ⟨.pending (waiters ++ [cache.nextTicket]), refs⟩
      nextTicket := cache.nextTicket + 1 }
  | loads (lacking : cache.lacks key = true) :
    ResolveOutcome cache key (.waiting key cache.nextTicket) (cache.startLoad key (cache.refs key))

/-- What becomes of a key that is resolved is one of the outcomes. -/
theorem resolve_outcome (cache : Cache κ π) (key : κ) :
    ResolveOutcome cache key (cache.resolve key).1 (cache.resolve key).2 := by
  unfold resolve
  cases hentry : cache.entries.get? key with
  | none =>
    have hrefs : cache.refs key = 0 := by rw [refs, hentry]; rfl
    have hload : ResolveOutcome cache key (.waiting key cache.nextTicket)
        (cache.startLoad key (cache.refs key)) := .loads (by rw [lacks, hentry])
    rwa [hrefs] at hload
  | some entry =>
    obtain ⟨state, refs⟩ := entry
    cases state with
    | pending waiters => exact .joins hentry
    | ready payload => exact .reads (peek?_eq_some_iff.mpr ⟨refs, hentry⟩)
    | failed =>
      have hrefs : cache.refs key = refs := by rw [Cache.refs, hentry]; rfl
      have hload : ResolveOutcome cache key (.waiting key cache.nextTicket)
          (cache.startLoad key (cache.refs key)) := .loads (by rw [lacks, hentry])
      rwa [hrefs] at hload

/-- A load that is started has one waiter and is outstanding. -/
theorem startLoad_starts (cache : Cache κ π) (key : κ) (refs : Nat) :
    Reports { cache with
        entries := cache.entries.insert key ⟨.pending [cache.nextTicket], refs⟩
        started := cache.started ++ [key]
        loading := cache.loading ++ [key]
        nextTicket := cache.nextTicket + 1 } (cache.startLoad key refs) :=
  foldl_report_reports _ _

/-- Starting a load adds it to those that are outstanding. -/
theorem outstanding_startLoad (cache : Cache κ π) (key : κ) (refs : Nat) :
    (cache.startLoad key refs).outstanding.Perm (key :: cache.outstanding) := by
  refine (cache.startLoad_starts key refs).outstanding.trans ?_
  change (cache.loading ++ [key] ++ cache.arrived.map (·.1)).Perm _
  exact (List.perm_append_singleton _ _).append_right _

variable [LawfulEqOrd κ]

/-- Writing one entry leaves the waiters of the others alone. -/
theorem waiters?_of_insert {after : Cache κ π} {entry : Entry π}
    (h : after.entries = cache.entries.insert key entry) (other : κ) :
    after.waiters? other =
      if other = key then entry.state.waiters? else cache.waiters? other := by
  rw [waiters?, h, Table.get?_insert]
  split <;> rfl

/-- Erasing one entry leaves the waiters of the others alone. -/
theorem waiters?_of_erase {after : Cache κ π} (h : after.entries = cache.entries.erase key)
    (other : κ) :
    after.waiters? other = if other = key then none else cache.waiters? other := by
  rw [waiters?, h, Table.get?_erase]
  split <;> rfl

/-- Eviction removes no pending entry if none is idle. -/
theorem waiters?_trim (h : ∀ other ∈ cache.idle, cache.waiters? other = none) (other : κ) :
    cache.trim.waiters? other = cache.waiters? other := by
  have hget : cache.trim.entries.get? other =
      if other ∈ cache.idle.take (cache.idle.length - cache.idleCapacity) then none
      else cache.entries.get? other := get?_foldl_erase _ _ _
  rw [waiters?, hget]
  by_cases hmem : other ∈ cache.idle.take (cache.idle.length - cache.idleCapacity)
  · rw [if_pos hmem]
    exact (h other (List.mem_of_mem_take hmem)).symm
  · rw [if_neg hmem]
    rfl

/-- Making an entry idle leaves all waiters alone, as nobody waits for idle ones. -/
theorem waiters?_makeIdle (h : ∀ other ∈ cache.idle, cache.waiters? other = none)
    (hkey : cache.waiters? key = none) (other : κ) :
    (cache.makeIdle key).waiters? other = cache.waiters? other := by
  refine (waiters?_trim fun idle hmem => ?_) other
  rcases List.mem_append.mp hmem with hold | hnew
  · exact h idle (List.mem_of_mem_erase hold)
  · rw [List.mem_singleton.mp hnew]
    exact hkey

/-- Taking a reference spares those who wait. -/
theorem retain_spares (cache : Cache κ π) (key : κ) : cache.Spares (cache.retain key).2 := by
  unfold retain
  cases hentry : cache.entries.get? key with
  | none => exact .refl cache
  | some entry =>
    exact ⟨⟨rfl, rfl, rfl, rfl, rfl⟩, fun other =>
      (sameState_of_insert hentry rfl other).waiters?, rfl⟩

/-- A pending entry stays when its last reference is given back. -/
theorem Sound.release_spares {Fits : κ → π → Prop} (h : cache.Sound Fits) (key : κ) :
    cache.Spares (cache.release key) := by
  unfold Cache.release
  cases hentry : cache.entries.get? key with
  | none => exact .refl cache
  | some entry =>
    obtain ⟨state, refs⟩ := entry
    cases refs with
    | zero => exact .refl cache
    | succ refs =>
      have hkey : cache.waiters? key = state.waiters? := by
        rw [waiters?, hentry]
        rfl
      have hsame : ∀ other, Cache.waiters?
          { cache with entries := cache.entries.insert key ⟨state, refs⟩ } other =
            cache.waiters? other :=
        fun other => (sameState_of_insert hentry rfl other).waiters?
      have hlowered : cache.Spares
          { cache with entries := cache.entries.insert key ⟨state, refs⟩ } :=
        ⟨⟨rfl, rfl, rfl, rfl, rfl⟩, hsame, rfl⟩
      cases refs with
      | succ refs => exact hlowered
      | zero =>
        cases state with
        | pending waiters => exact hlowered
        | ready payload =>
          refine ⟨⟨rfl, rfl, rfl, rfl, rfl⟩, fun other => ?_, rfl⟩
          refine (waiters?_makeIdle (fun idle hmem => ?_) ?_ other).trans (hsame other)
          · exact (hsame idle).trans (h.waiters?_of_mem_idle hmem)
          · exact (hsame key).trans hkey
        | failed =>
          refine ⟨⟨rfl, rfl, rfl, rfl, rfl⟩, fun other => ?_, rfl⟩
          rw [waiters?_of_erase rfl]
          by_cases heq : other = key
          · rw [if_pos heq, heq]
            exact hkey.symm
          · rw [if_neg heq]
            exact hsame other

/-- Giving references back spares those who wait. -/
theorem Sound.releases_spares {Fits : κ → π → Prop} (h : cache.Sound Fits) (keys : List κ) :
    cache.Spares (keys.foldl Cache.release cache) := by
  induction keys generalizing cache with
  | nil => exact .refl cache
  | cons key rest ih => exact (h.release_spares key).trans (ih (h.release key).1)

/-- Settling an outcome ends the waiting for its key and for no other. -/
theorem Sound.waiters?_settle {Fits : κ → π → Prop} (h : cache.Sound Fits) (key : κ)
    (outcome : LoadOutcome π) (other : κ) :
    (cache.settle key outcome).waiters? other =
      if other = key then none else cache.waiters? other := by
  rcases cache.pending_or_settle_eq key with ⟨waiters, refs, hentry⟩ | ⟨hstray, hstays⟩
  · simp only [Cache.settle, hentry]
    have hsettled : ∀ state : EntryState π, state.waiters? = none → ∀ other, Cache.waiters?
        { cache.deliver waiters outcome with
          entries := cache.entries.insert key ⟨state, refs⟩ } other =
          if other = key then none else cache.waiters? other := by
      intro state hstate other
      exact (waiters?_of_insert rfl other).trans (by rw [hstate])
    cases outcome with
    | loaded payload =>
      dsimp only
      split
      · refine (waiters?_makeIdle (fun idle hmem => ?_) ?_ other).trans (hsettled _ rfl other)
        · refine (hsettled _ rfl idle).trans ?_
          rw [h.waiters?_of_mem_idle hmem, ite_self]
        · exact (hsettled _ rfl key).trans (if_pos rfl)
      · exact hsettled _ rfl other
    | failed error =>
      dsimp only
      split
      · exact waiters?_of_erase rfl other
      · exact hsettled _ rfl other
  · rw [hstays]
    by_cases heq : other = key
    · rw [if_pos heq, heq]
      exact waiters?_eq_none hstray
    · rw [if_neg heq]

/-- A load that is started has the one waiter that started it. -/
theorem waiters?_startLoad (cache : Cache κ π) (key : κ) (refs : Nat) (other : κ) :
    (cache.startLoad key refs).waiters? other =
      if other = key then some [cache.nextTicket] else cache.waiters? other := by
  rw [(cache.startLoad_starts key refs).readers.waiters? other]
  exact (waiters?_of_insert rfl other).trans rfl

end Operations

/-! ## Actions -/

/-- What can happen to a cache. -/
inductive Action (κ π : Type) where
  /-- A key is resolved. -/
  | resolve (key : κ)
  /-- A reference is taken. -/
  | retain (key : κ)
  /-- A reference is given back. -/
  | release (key : κ)
  /-- The load of a key ends, and its outcome arrives. -/
  | report (key : κ) (outcome : LoadOutcome π)
  /-- The load of a key is given up. -/
  | abandon (key : κ)
  /-- The outcomes that have arrived are settled. -/
  | maintain
  deriving DecidableEq, Repr

/-- Settle outcomes in their order. -/
def settleAll [TransOrd κ] [DecidableEq κ] (cache : Cache κ π)
    (arrivals : List (κ × LoadOutcome π)) : Cache κ π :=
  arrivals.foldl (fun cache arrival => cache.settle arrival.1 arrival.2) cache

/-- The cache after an action. -/
def act [TransOrd κ] [DecidableEq κ] (cache : Cache κ π) : Action κ π → Cache κ π
  | .resolve key => (cache.resolve key).2
  | .retain key => (cache.retain key).2
  | .release key => cache.release key
  | .report key outcome => (cache.report key outcome).2
  | .abandon key => (cache.abandon key).2
  | .maintain => cache.maintain.2

/-- The cache after a list of actions. -/
def run [TransOrd κ] [DecidableEq κ] (cache : Cache κ π) (actions : List (Action κ π)) :
    Cache κ π :=
  actions.foldl act cache

/-- The key that an action resolves if its payload is lacking. -/
def misses (cache : Cache κ π) : Action κ π → List κ
  | .resolve key => if cache.lacks key then [key] else []
  | _ => []

/-! ## Single flight -/

/-- A key has an outstanding load exactly while its entry is pending, and never two. -/
structure SingleFlight (cache : Cache κ π) : Prop where
  sound : cache.Sound fun _ _ => True
  nodup : cache.outstanding.Nodup
  pending_iff : ∀ key, cache.isPending key = true ↔ key ∈ cache.outstanding

/-- In a new cache, no load is under way. -/
theorem singleFlight_new (idleCapacity : Nat) (loader : Loader κ π) :
    (new idleCapacity loader).SingleFlight where
  sound := sound_new idleCapacity fun _ => trivial
  nodup := List.nodup_nil
  pending_iff key := by
    have hnone : (new idleCapacity loader).entries.get? key = none := rfl
    rw [isPending, waiters?, hnone]
    exact ⟨nofun, nofun⟩

section Steps

variable {cache after : Cache κ π} {key : κ}

/-- There stays one load for a key while those who wait are spared. -/
theorem SingleFlight.of_spares (h : cache.SingleFlight) (spares : cache.Spares after)
    (hsound : after.Sound fun _ _ => True) : after.SingleFlight where
  sound := hsound
  nodup := by
    rw [spares.loads.outstanding]
    exact h.nodup
  pending_iff key := by
    rw [isPending, spares.waiters, spares.loads.outstanding]
    exact h.pending_iff key

/-- No load is outstanding for a key that lacks its payload. -/
theorem SingleFlight.not_mem_outstanding (h : cache.SingleFlight)
    (lacking : cache.lacks key = true) : key ∉ cache.outstanding := by
  intro hmem
  have hpending := (h.pending_iff key).mpr hmem
  rw [isPending, waiters?_eq_none_of_lacks lacking] at hpending
  cases hpending

/-- What arrived can be taken out to be settled. -/
theorem SingleFlight.withoutArrived (h : cache.SingleFlight) :
    ({ cache with arrived := [] } : Cache κ π).Sound fun _ _ => True :=
  ⟨h.sound.idle_nodup, h.sound.idle_ready, fun _ => trivial, nofun, fun _ => trivial,
    h.sound.listed_lt, h.sound.delivered_lt⟩

variable [DecidableEq κ]

/-- There stays one load for a key when an outcome is reported. -/
theorem SingleFlight.report (h : cache.SingleFlight) (key : κ) (outcome : LoadOutcome π) :
    (cache.report key outcome).2.SingleFlight := by
  have hreports := cache.report_reports key outcome
  refine ⟨(h.sound.report fun _ _ => trivial).1, hreports.outstanding.nodup_iff.mpr h.nodup,
    fun other => ?_⟩
  rw [isPending, hreports.readers.waiters?, hreports.outstanding.mem_iff]
  exact h.pending_iff other

variable [TransOrd κ]

/-- Settling entries leaves the loads alone. -/
theorem settleAll_sameLoads (cache : Cache κ π) (arrivals : List (κ × LoadOutcome π)) :
    cache.SameLoads (cache.settleAll arrivals) := by
  induction arrivals generalizing cache with
  | nil => exact .refl cache
  | cons arrival rest ih =>
    have hfirst := cache.settle_sameLoads arrival.1 arrival.2
    have hrest := ih (cache.settle arrival.1 arrival.2)
    exact ⟨hrest.loader.trans hfirst.loader, hrest.started.trans hfirst.started,
      hrest.loading.trans hfirst.loading, hrest.arrived.trans hfirst.arrived,
      hrest.nextTicket.trans hfirst.nextTicket⟩

/-- When everything was settled, only the loads under way are outstanding. -/
theorem outstanding_maintain (cache : Cache κ π) :
    cache.maintain.2.outstanding = cache.loading := by
  have hloads := settleAll_sameLoads { cache with arrived := [] } cache.arrived
  exact hloads.outstanding.trans (List.append_nil _)

/-- Resolving a key starts a load exactly if its payload is lacking. -/
theorem ResolveOutcome.started_eq {resolution : Resolution κ π}
    (outcome : ResolveOutcome cache key resolution after) :
    after.started = cache.started ++ cache.misses (.resolve key) := by
  rw [misses]
  cases outcome with
  | reads ready =>
    rw [if_neg, List.append_nil]
    · exact (cache.promote_spares key).loads.started
    · intro hlacks
      rw [peek?_eq_none_iff.mpr (.inr hlacks)] at ready
      cases ready
  | @joins waiters refs pending =>
    have hlacks : cache.lacks key = false := by rw [lacks, pending]
    simp [hlacks]
  | loads lacking =>
    rw [if_pos lacking]
    exact (cache.startLoad_starts key (cache.refs key)).started

variable [LawfulEqOrd κ]

/-- A load is started only where none is outstanding. -/
theorem ResolveOutcome.singleFlight {resolution : Resolution κ π}
    (outcome : ResolveOutcome cache key resolution after) (h : cache.SingleFlight)
    (hsound : after.Sound fun _ _ => True) : after.SingleFlight := by
  cases outcome with
  | reads ready => exact h.of_spares (cache.promote_spares key) hsound
  | @joins waiters refs pending =>
    refine ⟨hsound, h.nodup, fun other => ?_⟩
    rw [isPending, waiters?_of_insert rfl]
    by_cases heq : other = key
    · rw [if_pos heq]
      have hpending : cache.isPending key = true := by
        rw [isPending, waiters?_eq_some_iff.mpr ⟨refs, pending⟩]
        rfl
      rw [heq]
      exact ⟨fun _ => (h.pending_iff key).mp hpending, fun _ => rfl⟩
    · rw [if_neg heq]
      exact h.pending_iff other
  | loads lacking =>
    have hperm := cache.outstanding_startLoad key (cache.refs key)
    have hnew : key ∉ cache.outstanding := h.not_mem_outstanding lacking
    refine ⟨hsound, hperm.nodup_iff.mpr (List.nodup_cons.mpr ⟨hnew, h.nodup⟩), fun other => ?_⟩
    rw [isPending, waiters?_startLoad, hperm.mem_iff, List.mem_cons, ← h.pending_iff other]
    by_cases heq : other = key
    · rw [if_pos heq]
      simp [heq]
    · rw [if_neg heq]
      simp [heq, isPending]

/-- A cache stays sound when entries are settled. -/
theorem Sound.settleAll (h : cache.Sound fun _ _ => True) (arrivals : List (κ × LoadOutcome π)) :
    (cache.settleAll arrivals).Sound fun _ _ => True :=
  List.foldlRecOn (motive := fun cache : Cache κ π => cache.Sound fun _ _ => True) arrivals _ h
    fun _ hsound _ _ => (hsound.settle fun _ _ => trivial).1

/-- Settling outcomes ends the waiting for their keys and for no others. -/
theorem Sound.waiters?_settleAll (h : cache.Sound fun _ _ => True)
    (arrivals : List (κ × LoadOutcome π)) (key : κ) :
    (cache.settleAll arrivals).waiters? key =
      if key ∈ arrivals.map (·.1) then none else cache.waiters? key := by
  induction arrivals generalizing cache with
  | nil => rfl
  | cons arrival rest ih =>
    refine (ih (h.settle fun _ _ => trivial).1).trans ?_
    rw [h.waiters?_settle, List.map_cons]
    by_cases hrest : key ∈ rest.map (·.1)
    · simp [hrest]
    · by_cases hkey : key = arrival.1
      · simp [hkey]
      · simp [hkey, hrest]

/-- When everything was settled, just the keys without an outcome are still pending. -/
theorem SingleFlight.isPending_maintain (h : cache.SingleFlight) (key : κ) :
    cache.maintain.2.isPending key =
      (cache.isPending key && decide (key ∉ cache.arrived.map (·.1))) := by
  have hwaiters := h.withoutArrived.waiters?_settleAll cache.arrived key
  change (Cache.waiters? (settleAll _ cache.arrived) key).isSome = _
  rw [hwaiters]
  split
  · simp [*]
  · simp [*, isPending, waiters?]

/-- Settling what arrived leaves the loads that are under way. -/
theorem SingleFlight.maintain (h : cache.SingleFlight) : cache.maintain.2.SingleFlight := by
  have hnodup := List.nodup_append'.mp h.nodup
  refine ⟨h.withoutArrived.settleAll cache.arrived, ?_, fun key => ?_⟩
  · rw [outstanding_maintain]
    exact hnodup.1
  · rw [h.isPending_maintain, outstanding_maintain, Bool.and_eq_true, h.pending_iff,
      decide_eq_true_iff, outstanding, List.mem_append]
    constructor
    · rintro ⟨hloading | harrived, hnot⟩
      · exact hloading
      · exact absurd harrived hnot
    · exact fun hloading => ⟨.inl hloading, hnodup.2.2 hloading⟩

/-- No action starts a second load of a key. -/
theorem SingleFlight.act (h : cache.SingleFlight) (action : Action κ π) :
    (cache.act action).SingleFlight := by
  cases action with
  | resolve key => exact (cache.resolve_outcome key).singleFlight h (h.sound.resolve key).sound
  | retain key => exact h.of_spares (cache.retain_spares key) (h.sound.retain key).1
  | release key => exact h.of_spares (h.sound.release_spares key) (h.sound.release key).1
  | report key outcome => exact h.report key outcome
  | abandon key => exact h.report key _
  | maintain => exact h.maintain

/-- Each outcome finds the entry of its key pending when its turn comes to be settled. -/
theorem SingleFlight.isPending_settleAll (h : cache.SingleFlight)
    {first rest : List (κ × LoadOutcome π)} {outcome : LoadOutcome π}
    (harrived : cache.arrived = first ++ (key, outcome) :: rest) :
    (settleAll { cache with arrived := [] } first).isPending key = true := by
  have hpending : cache.isPending key = true := by
    rw [h.pending_iff, outstanding, harrived]
    simp
  have hfirst : key ∉ first.map (·.1) := by
    have hnodup := (List.nodup_append'.mp h.nodup).2.1
    rw [harrived, List.map_append, List.map_cons] at hnodup
    exact fun hmem => (List.nodup_append'.mp hnodup).2.2 hmem List.mem_cons_self
  rw [isPending, h.withoutArrived.waiters?_settleAll, if_neg hfirst]
  exact hpending

/-- A load is started exactly by resolving a key whose payload is lacking. -/
theorem SingleFlight.started_act (h : cache.SingleFlight) (action : Action κ π) :
    (cache.act action).started = cache.started ++ cache.misses action := by
  cases action with
  | resolve key => exact (cache.resolve_outcome key).started_eq
  | retain key => exact (cache.retain_spares key).loads.started.trans (List.append_nil _).symm
  | release key =>
    exact (h.sound.release_spares key).loads.started.trans (List.append_nil _).symm
  | report key outcome =>
    exact (cache.report_reports key outcome).started.trans (List.append_nil _).symm
  | abandon key => exact (cache.report_reports key _).started.trans (List.append_nil _).symm
  | maintain =>
    have hloads := settleAll_sameLoads { cache with arrived := [] } cache.arrived
    exact hloads.started.trans (List.append_nil _).symm

end Steps

/-! ## Loads of a run -/

section Runs

variable [TransOrd κ] [LawfulEqOrd κ]

/-- In single flight, there are as many pending entries as outstanding loads. -/
theorem SingleFlight.pendingCount_eq {cache : Cache κ π} (h : cache.SingleFlight) :
    cache.pendingCount = cache.outstanding.length := by
  refine Table.countP_values_eq_length h.nodup fun key => ?_
  rw [← h.pending_iff, isPending, waiters?]
  cases cache.entries.get? key with
  | none => simp
  | some entry => simp

/-- Each pending entry has the one outstanding load of its key. -/
structure LoadsOnce [DecidableEq κ] (cache : Cache κ π) : Prop where
  /-- No key has two outstanding loads. -/
  count_le : ∀ key, cache.outstanding.count key ≤ 1
  /-- An entry is pending exactly while one load of its key is outstanding. -/
  pending_iff : ∀ key, cache.isPending key = true ↔ cache.outstanding.count key = 1
  /-- Each outcome finds a pending entry when its turn comes to be settled. -/
  finds_pending : ∀ {first key outcome rest}, cache.arrived = first ++ (key, outcome) :: rest →
    (settleAll { cache with arrived := [] } first).isPending key = true
  /-- The entries that are settled are the pending ones whose outcomes have arrived. -/
  settles_pending : ∀ key, cache.maintain.2.isPending key =
    (cache.isPending key && decide (key ∉ cache.arrived.map (·.1)))
  /-- As many pending entries are settled as outcomes are counted. -/
  maintain_count : cache.maintain.1 + cache.maintain.2.pendingCount = cache.pendingCount

variable [DecidableEq κ]

/-- Where there is one load for a key at most, keys are loaded once. -/
theorem SingleFlight.loadsOnce {cache : Cache κ π} (h : cache.SingleFlight) : cache.LoadsOnce where
  count_le := List.nodup_iff_count_le_one.mp h.nodup
  pending_iff key := by
    have hcount := List.nodup_iff_count_le_one.mp h.nodup key
    rw [h.pending_iff, ← List.count_pos_iff]
    omega
  finds_pending := h.isPending_settleAll
  settles_pending := h.isPending_maintain
  maintain_count := by
    rw [h.maintain.pendingCount_eq, h.pendingCount_eq, outstanding_maintain, outstanding,
      List.length_append, List.length_map, Nat.add_comm]
    rfl

/-- Whatever happens to a cache, an entry is pending exactly while one load of its key is
outstanding, no key ever has two, and loads are started exactly by resolving keys without an entry
or with a failed one. -/
theorem run_loadsOnce (idleCapacity : Nat) (loader : Loader κ π) (actions : List (Action κ π)) :
    ((new idleCapacity loader).run actions).LoadsOnce ∧
      ((new idleCapacity loader).run actions).loadsStarted =
        (history act misses (new idleCapacity loader) actions).length := by
  have hrun : ((new idleCapacity loader).run actions).SingleFlight ∧
      ((new idleCapacity loader).run actions).started =
        [] ++ history act misses (new idleCapacity loader) actions :=
    foldl_history_induction
      (P := fun seen (cache : Cache κ π) => cache.SingleFlight ∧ cache.started = seen)
      (fun seen cache action h => ⟨h.1.act action, by rw [h.1.started_act, h.2]⟩)
      ⟨singleFlight_new idleCapacity loader, rfl⟩ actions
  exact ⟨hrun.1.loadsOnce, congrArg List.length hrun.2⟩

/-- Two readers share a load that fails, a third has the failed entry loaded again, and another
key is being loaded besides. -/
def retry : List (Action CacheKey String) :=
  [.resolve (.zone 1), .resolve (.zone 1), .retain (.zone 1),
    .report (.zone 1) (.failed .abandoned), .maintain, .resolve (.zone 1), .resolve (.scene 1),
    .report (.zone 1) (.loaded "square")]

/-- After the retry, one load has arrived and another is under way. -/
theorem retry_loadsOnce :
    ((new 0 .manual).run retry).outstanding = [.scene 1, .zone 1] ∧
      ((new 0 .manual).run retry).LoadsOnce ∧ ((new 0 .manual).run retry).loadsStarted =
        (history act misses (new 0 .manual) retry).length :=
  ⟨by decide +kernel, run_loadsOnce 0 .manual retry⟩

end Runs

end Cache

end SharedWorld
