import SharedWorld.Proofs.Loads

/-!
# Evictions

An entry goes through its life by steps (`Cache.Move`): it is created and loaded, joined and read,
referenced and unreferenced, and perhaps loaded once more. A step moves one entry at most, and then
evicts what no longer fits (`Cache.Course`). Whatever happens to a cache, its idle keys are those of
the entries that are ready and unreferenced, in the order of their last touch, so only the least
recently touched of them are evicted (`Cache.run_evictions`).
-/

namespace SharedWorld

/-- Whether an entry is ready and unreferenced. -/
def Entry.isIdle {π : Type} : Entry π → Bool
  | ⟨.ready _, 0⟩ => true
  | _ => false

/-- An idle entry is ready and has no references. -/
theorem Entry.exists_of_isIdle {π : Type} {entry : Entry π} (h : entry.isIdle = true) :
    ∃ payload, entry = ⟨.ready payload, 0⟩ := by
  unfold isIdle at h
  split at h
  · exact ⟨_, rfl⟩
  · cases h

/-- An entry is there and idle just if it is ready and has no references. -/
theorem Entry.any_isIdle_iff {π : Type} {entry : Option (Entry π)} : entry.any Entry.isIdle = true ↔
    ∃ payload, entry = some ⟨.ready payload, 0⟩ := by
  cases entry with
  | none => exact iff_of_false Bool.false_ne_true nofun
  | some entry =>
    constructor
    · intro hidle
      obtain ⟨payload, rfl⟩ := Entry.exists_of_isIdle hidle
      exact ⟨payload, rfl⟩
    · rintro ⟨payload, ⟨⟩⟩
      rfl

namespace Cache

open Std

variable {κ π : Type}

/-! ## Steps -/

/-- What happens to a cache at a time. Outcomes that have arrived are settled one by one. -/
inductive Step (κ π : Type) where
  | resolve (key : κ)
  | retain (key : κ)
  | release (key : κ)
  | report (key : κ) (outcome : LoadOutcome π)
  /-- The outcome that arrived first is settled. -/
  | settle
  deriving DecidableEq, Repr

/-- What is counted of the references on an entry. -/
inductive Account (κ : Type) where
  | created (key : κ)
  | retained (key : κ)
  | released (key : κ)
  deriving DecidableEq, Repr

/-- What happens last to `other` happens after everything that happens to `key`. -/
def Precedes (touched : List κ) (key other : κ) : Prop :=
  ∃ earlier later, touched = earlier ++ later ∧ key ∉ later ∧ other ∈ later

/-- A key still comes before another one when a third is touched. -/
theorem Precedes.append_of_ne {touched : List κ} {key other last : κ}
    (h : Precedes touched key other) (hne : key ≠ last) :
    Precedes (touched ++ [last]) key other := by
  obtain ⟨earlier, later, rfl, hkey, hother⟩ := h
  refine ⟨earlier, later ++ [last], List.append_assoc _ _ _, ?_, List.mem_append_left _ hother⟩
  rw [List.mem_append, List.mem_singleton, not_or]
  exact ⟨hkey, hne⟩

/-- Every other key comes before the one that was touched last. -/
theorem precedes_append_self {touched : List κ} {key last : κ} (hne : key ≠ last) :
    Precedes (touched ++ [last]) key last :=
  ⟨touched, [last], rfl, mt List.mem_singleton.mp hne, List.mem_singleton_self last⟩

/-- The key of the entry that is accounted for. -/
def Account.key : Account κ → κ
  | .created key | .retained key | .released key => key

/-- An entry was created, and has as many references as were taken since less those given back. -/
def Balance [DecidableEq κ] (seen : List (Account κ)) (key : κ) (refs : Nat) : Prop :=
  ∃ earlier later, seen = earlier ++ .created key :: later ∧ .created key ∉ later ∧
    refs + later.count (.released key) = later.count (.retained key)

/-- The balance of a key is carried on with the references that are taken and given back. -/
theorem Balance.append [DecidableEq κ] {seen new : List (Account κ)} {key : κ} {refs refs' : Nat}
    (h : Balance seen key refs) (hnew : .created key ∉ new)
    (hrefs : refs' + new.count (.released key) = refs + new.count (.retained key)) :
    Balance (seen ++ new) key refs' := by
  obtain ⟨earlier, later, rfl, hlater, hcount⟩ := h
  refine ⟨earlier, later ++ new, List.append_assoc _ _ _, ?_, ?_⟩
  · rw [List.mem_append, not_or]
    exact ⟨hlater, hnew⟩
  · rw [List.count_append, List.count_append]
    omega

variable [Ord κ]

/-- What a step adds to the accounts: the creation of an entry, and the references that it takes and
gives back. -/
def accounts (cache : Cache κ π) : Step κ π → List (Account κ)
  | .resolve key => if (cache.entries.get? key).isNone then [.created key] else []
  | .retain key => if (cache.entries.get? key).isSome then [.retained key] else []
  | .release key => if 0 < cache.refs key then [.released key] else []
  | .report _ _ | .settle => []

/-- The key that a step touches: its entry becomes idle by settling or by its last release, or it is
idle and read. -/
def touches (cache : Cache κ π) : Step κ π → List κ
  | .resolve key =>
    match cache.entries.get? key with
    | some ⟨.ready _, 0⟩ => [key]
    | _ => []
  | .release key =>
    match cache.entries.get? key with
    | some ⟨.ready _, 1⟩ => [key]
    | _ => []
  | .settle =>
    match cache.arrived with
    | (key, .loaded _) :: _ =>
      match cache.entries.get? key with
      | some ⟨.pending _, 0⟩ => [key]
      | _ => []
    | _ => []
  | .retain _ | .report _ _ => []

section

variable [TransOrd κ] [DecidableEq κ]

/-- The cache after a step. -/
def step (cache : Cache κ π) : Step κ π → Cache κ π
  | .resolve key => (cache.resolve key).2
  | .retain key => (cache.retain key).2
  | .release key => cache.release key
  | .report key outcome => (cache.report key outcome).2
  | .settle => cache.settleNext

/-- The cache after a list of steps. -/
def walk (cache : Cache κ π) (steps : List (Step κ π)) : Cache κ π := steps.foldl step cache

/-- The steps that an action consists of. -/
def stepsOf (cache : Cache κ π) : Action κ π → List (Step κ π)
  | .resolve key => [.resolve key]
  | .retain key => [.retain key]
  | .release key => [.release key]
  | .report key outcome => [.report key outcome]
  | .abandon key => [.report key (.failed .abandoned)]
  | .maintain => List.replicate cache.arrived.length .settle

/-- Settling all that has arrived is to settle it step by step. -/
theorem maintain_eq_walk (cache : Cache κ π) :
    cache.maintain.2 = cache.walk (List.replicate cache.arrived.length .settle) := by
  suffices h : ∀ arrived (cache : Cache κ π), cache.arrived = arrived →
      settleAll { cache with arrived := [] } arrived =
        cache.walk (List.replicate arrived.length .settle) from h _ cache rfl
  intro arrived
  induction arrived with
  | nil =>
    intro cache hnil
    have hcache : { cache with arrived := [] } = cache := by rw [← hnil]
    exact hcache
  | cons arrival rest ih =>
    intro cache hcons
    have hnext : cache.settleNext =
        { cache.settle arrival.1 arrival.2 with arrived := rest } := by
      rw [← settle_withArrived]
      simp only [settleNext, hcons]
    have hrest := ih cache.settleNext (by rw [hnext])
    rw [hnext] at hrest
    have hfirst := settle_withArrived cache [] arrival.1 arrival.2
    rw [settleAll, List.foldl_cons, hfirst, List.length_cons, List.replicate_succ, walk,
      List.foldl_cons, step, hnext]
    exact hrest

/-- Every action on a cache is a walk of steps. -/
theorem act_eq_walk (cache : Cache κ π) (action : Action κ π) :
    cache.act action = cache.walk (cache.stepsOf action) := by
  cases action with
  | resolve key => rfl
  | retain key => rfl
  | release key => rfl
  | report key outcome => rfl
  | abandon key => rfl
  | maintain => exact cache.maintain_eq_walk

/-- Actions are nothing but their steps, one after the other. -/
theorem run_eq_walk (cache : Cache κ π) (actions : List (Action κ π)) :
    cache.run actions = cache.walk (history act stepsOf cache actions) := by
  induction actions generalizing cache with
  | nil => rfl
  | cons action rest ih =>
    rw [run, List.foldl_cons, history, walk, List.foldl_append]
    rw [act_eq_walk] at *
    exact ih _

end

/-! ## The life of an entry -/

/-- How a step changes the entry under a key, evictions apart. -/
inductive Move (cache : Cache κ π) (key : κ) :
    Step κ π → Option (Entry π) → Option (Entry π) → Prop where
  | created : Move cache key (.resolve key) none (some ⟨.pending [cache.nextTicket], 0⟩)
  | joined {waiters : List Ticket} {refs : Nat} :
    Move cache key (.resolve key) (some ⟨.pending waiters, refs⟩)
      (some ⟨.pending (waiters ++ [cache.nextTicket]), refs⟩)
  | read {payload : π} {refs : Nat} :
    Move cache key (.resolve key) (some ⟨.ready payload, refs⟩) (some ⟨.ready payload, refs⟩)
  | reloaded {refs : Nat} :
    Move cache key (.resolve key) (some ⟨.failed, refs⟩)
      (some ⟨.pending [cache.nextTicket], refs⟩)
  | retained {state : EntryState π} {refs : Nat} :
    Move cache key (.retain key) (some ⟨state, refs⟩) (some ⟨state, refs + 1⟩)
  | released {state : EntryState π} {refs : Nat} (wanted : state = .failed → 0 < refs) :
    Move cache key (.release key) (some ⟨state, refs + 1⟩) (some ⟨state, refs⟩)
  /-- The last reference on a failed entry is given back. -/
  | dropped : Move cache key (.release key) (some ⟨.failed, 1⟩) none
  | loaded {waiters : List Ticket} {refs : Nat} {payload : π} {rest : List (κ × LoadOutcome π)}
    (arrived : cache.arrived = (key, .loaded payload) :: rest) :
    Move cache key .settle (some ⟨.pending waiters, refs⟩) (some ⟨.ready payload, refs⟩)
  | failed {waiters : List Ticket} {refs : Nat} {error : LoadError}
    {rest : List (κ × LoadOutcome π)} (arrived : cache.arrived = (key, .failed error) :: rest)
    (wanted : 0 < refs) :
    Move cache key .settle (some ⟨.pending waiters, refs⟩) (some ⟨.failed, refs⟩)
  /-- The load of an unreferenced entry fails. -/
  | forgotten {waiters : List Ticket} {error : LoadError} {rest : List (κ × LoadOutcome π)}
    (arrived : cache.arrived = (key, .failed error) :: rest) :
    Move cache key .settle (some ⟨.pending waiters, 0⟩) none

variable {cache middle : Cache κ π} {key : κ} {step : Step κ π}
  {before after : Option (Entry π)}

/-- The idle keys are those of the entries that are ready and unreferenced, listed once each, and
failed entries are referenced. -/
structure Tidy (cache : Cache κ π) : Prop where
  nodup : cache.idle.Nodup
  mem_idle_iff : ∀ {key}, key ∈ cache.idle ↔ (cache.entries.get? key).any Entry.isIdle = true
  failed : ∀ {key refs}, cache.entries.get? key = some ⟨.failed, refs⟩ → 0 < refs

/-- A new cache is tidy. -/
theorem tidy_new (idleCapacity : Nat) (loader : Loader κ π) : (new idleCapacity loader).Tidy where
  nodup := .nil
  mem_idle_iff := ⟨nofun, nofun⟩
  failed hentry := by cases hentry

/-- An entry that has failed keeps a reference. -/
theorem Move.not_failed (h : Move cache key step before after) {refs : Nat}
    (hbefore : ∀ refs, before = some ⟨.failed, refs⟩ → 0 < refs)
    (hafter : after = some ⟨.failed, refs⟩) : 0 < refs := by
  cases h with
  | created => cases hafter
  | joined => cases hafter
  | read => cases hafter
  | reloaded => cases hafter
  | retained =>
    cases hafter
    exact Nat.succ_pos _
  | released wanted =>
    cases hafter
    exact wanted rfl
  | dropped => cases hafter
  | loaded arrived => cases hafter
  | failed arrived wanted =>
    cases hafter
    exact wanted
  | forgotten arrived => cases hafter

/-- A move touches the key exactly if it leaves an idle entry. -/
theorem Move.touches_eq (h : Move cache key step before after)
    (hfound : cache.entries.get? key = before) :
    cache.touches step = if after.any Entry.isIdle then [key] else [] := by
  cases h with
  | created => simp [touches, hfound, Entry.isIdle]
  | joined => simp [touches, hfound, Entry.isIdle]
  | @read payload refs =>
    cases refs with
    | zero => simp [touches, hfound, Entry.isIdle]
    | succ refs => simp [touches, hfound, Entry.isIdle]
  | reloaded => simp [touches, hfound, Entry.isIdle]
  | @retained state refs => cases state <;> rfl
  | @released state refs wanted =>
    cases state with
    | pending waiters => simp [touches, hfound, Entry.isIdle]
    | failed => simp [touches, hfound, Entry.isIdle]
    | ready payload =>
      cases refs with
      | zero => simp [touches, hfound, Entry.isIdle]
      | succ refs => simp [touches, hfound, Entry.isIdle]
  | dropped => simp [touches, hfound]
  | @loaded waiters refs payload rest arrived =>
    cases refs with
    | zero => simp [touches, arrived, hfound, Entry.isIdle]
    | succ refs => simp [touches, arrived, hfound, Entry.isIdle]
  | failed arrived wanted => simp [touches, arrived, Entry.isIdle]
  | forgotten arrived => simp [touches, arrived]

/-- Nothing is trimmed where there are not too many idle entries. -/
theorem trim_of_le (h : cache.idle.length ≤ cache.idleCapacity) : cache.trim = cache := by
  rw [trim, Nat.sub_eq_zero_of_le h]
  rfl

/-- The idle keys are those that are trimmed and then those that stay. -/
theorem idle_eq_append_trim (cache : Cache κ π) : cache.idle =
    cache.idle.take (cache.idle.length - cache.idleCapacity) ++ cache.trim.idle :=
  (List.take_append_drop _ _).symm

/-- Only resolving, retaining and releasing a key goes into its accounts. -/
theorem mem_accounts {account : Account κ} (h : account ∈ cache.accounts step) :
    step = .resolve account.key ∨ step = .retain account.key ∨ step = .release account.key := by
  cases step with
  | resolve key =>
    rw [accounts] at h
    split at h
    · rw [List.mem_singleton.mp h]
      exact .inl rfl
    · cases h
  | retain key =>
    rw [accounts] at h
    split at h
    · rw [List.mem_singleton.mp h]
      exact .inr (.inl rfl)
    · cases h
  | release key =>
    rw [accounts] at h
    split at h
    · rw [List.mem_singleton.mp h]
      exact .inr (.inr rfl)
    · cases h
  | report key outcome => cases h
  | settle => cases h

/-- Only what happens to the entry that is moved is counted. -/
theorem Move.account_key (h : Move cache key step before after) {account : Account κ}
    (hmem : account ∈ cache.accounts step) : account.key = key := by
  rcases mem_accounts hmem with rfl | rfl | rfl <;> cases h <;> rfl

/-- The references on an entry stay unless its key is retained or released. -/
theorem Move.carried (h : Move cache key step before after) (hretain : step ≠ .retain key)
    (hrelease : step ≠ .release key) {old new : Entry π} (hbefore : before = some old)
    (hafter : after = some new) : new.refs = old.refs := by
  cases h <;> cases hbefore <;> cases hafter
  all_goals first
    | rfl
    | exact absurd rfl hretain
    | exact absurd rfl hrelease

section

variable [DecidableEq κ]

/-- The references on an entry are in balance from its creation on. -/
def Counted (seen : List (Account κ)) (cache : Cache κ π) : Prop :=
  ∀ {key entry}, cache.entries.get? key = some entry → Balance seen key entry.refs

/-- The references on an entry go by its accounts. -/
theorem Move.balance (h : Move cache key step before after)
    (hfound : cache.entries.get? key = before) {seen : List (Account κ)}
    (hbefore : ∀ entry, before = some entry → Balance seen key entry.refs) {entry : Entry π}
    (hafter : after = some entry) : Balance (seen ++ cache.accounts step) key entry.refs := by
  -- All other moves leave the references as they are, and nothing is counted.
  have hsame : cache.accounts step = [] → ∀ old, before = some old → old.refs = entry.refs →
      Balance (seen ++ cache.accounts step) key entry.refs := by
    intro hnone old hold hrefs
    rw [hnone, List.append_nil, ← hrefs]
    exact hbefore old hold
  cases h with
  | created =>
    cases hafter
    exact ⟨seen, [], by simp [accounts, hfound], List.not_mem_nil, rfl⟩
  | joined =>
    cases hafter
    exact hsame (by simp [accounts, hfound]) _ rfl rfl
  | read =>
    cases hafter
    exact hsame (by simp [accounts, hfound]) _ rfl rfl
  | reloaded =>
    cases hafter
    exact hsame (by simp [accounts, hfound]) _ rfl rfl
  | retained =>
    cases hafter
    exact (hbefore _ rfl).append (by simp [accounts, hfound]) (by simp [accounts, hfound])
  | released wanted =>
    cases hafter
    exact (hbefore _ rfl).append (by simp [accounts, hfound, refs])
      (by simp [accounts, hfound, refs])
  | dropped => cases hafter
  | loaded arrived =>
    cases hafter
    exact hsame rfl _ rfl rfl
  | failed arrived wanted =>
    cases hafter
    exact hsame rfl _ rfl rfl
  | forgotten arrived => cases hafter

/-- What a step preserves of a cache, given what was touched and counted so far. -/
structure Kept (idleCapacity : Nat) (touched : List κ) (seen : List (Account κ))
    (cache : Cache κ π) : Prop where
  tidy : cache.Tidy
  capacity : cache.idleCapacity = idleCapacity
  le : cache.idle.length ≤ idleCapacity
  ordered : cache.idle.Pairwise (Precedes touched)
  counted : Counted seen cache

/-- A new cache has been kept well. -/
theorem kept_new (idleCapacity : Nat) (loader : Loader κ π) :
    Kept idleCapacity [] [] (new idleCapacity loader) :=
  ⟨tidy_new idleCapacity loader, rfl, Nat.zero_le _, .nil, fun hentry => by cases hentry⟩

/-- A busy key is not among the idle ones. -/
theorem Tidy.erase_eq_self (h : cache.Tidy)
    (hbusy : (cache.entries.get? key).any Entry.isIdle = false) :
    cache.idle.erase key = cache.idle :=
  List.erase_of_not_mem fun hmem => nomatch hbusy.symm.trans (h.mem_idle_iff.mp hmem)

/-- What a step makes of a cache before it evicts anything: it leaves the entries as they are, or
moves one of them, which is then listed last among the idle ones if it is idle. -/
inductive Course (cache : Cache κ π) (step : Step κ π) (middle : Cache κ π) : Prop where
  | quiet (entries : middle.entries = cache.entries) (idle : middle.idle = cache.idle)
    (untouched : cache.touches step = []) (uncounted : cache.accounts step = [])
  | moves {key : κ} {before after : Option (Entry π)} (move : Move cache key step before after)
    (found : cache.entries.get? key = before)
    (entries : ∀ other, middle.entries.get? other =
      if other = key then after else cache.entries.get? other)
    (idle : middle.idle = cache.idle.erase key ++ if after.any Entry.isIdle then [key] else [])

/-- A tidy cache stays tidy until it is trimmed. -/
theorem Course.tidy (h : Course cache step middle) (htidy : cache.Tidy) : middle.Tidy := by
  cases h with
  | quiet entries idle untouched uncounted =>
    constructor
    case nodup =>
      rw [idle]
      exact htidy.nodup
    case mem_idle_iff =>
      rw [idle, entries]
      exact htidy.mem_idle_iff
    case failed =>
      rw [entries]
      exact htidy.failed
  | @moves key before after move found entries idle =>
    have hfresh : key ∉ cache.idle.erase key := htidy.nodup.not_mem_erase
    refine ⟨?_, fun {other} => ?_, fun {other refs} hfailed => ?_⟩
    · rw [idle]
      refine (htidy.nodup.erase key).append ?_ ?_
      · split
        · exact List.nodup_singleton key
        · exact .nil
      · intro other hother hkey
        split at hkey
        · rw [List.mem_singleton.mp hkey] at hother
          exact hfresh hother
        · cases hkey
    · rw [idle, entries, List.mem_append]
      by_cases hother : other = key
      · subst hother
        rw [if_pos rfl, or_iff_right hfresh]
        by_cases hidle : after.any Entry.isIdle = true
        · rw [if_pos hidle]
          exact iff_of_true (List.mem_singleton_self _) hidle
        · rw [if_neg hidle]
          exact iff_of_false List.not_mem_nil hidle
      · rw [if_neg hother, ← htidy.mem_idle_iff, List.mem_erase_of_ne hother]
        refine or_iff_left fun hmem => hother ?_
        split at hmem
        · exact List.mem_singleton.mp hmem
        · cases hmem
    · rw [entries] at hfailed
      split at hfailed
      · exact move.not_failed (fun refs hrefs => htidy.failed (found.trans hrefs)) hfailed
      · exact htidy.failed hfailed

/-! ## Evictions -/

/-- The references go by the accounts after a step too. -/
theorem Course.counted (h : Course cache step middle) {seen : List (Account κ)}
    (hcounted : Counted seen cache) : Counted (seen ++ cache.accounts step) middle := by
  intro other entry hentry
  cases h with
  | quiet entries idle untouched uncounted =>
    rw [uncounted, List.append_nil]
    rw [entries] at hentry
    exact hcounted hentry
  | @moves key before after move found entries idle =>
    rw [entries] at hentry
    by_cases hother : other = key
    · rw [if_pos hother] at hentry
      subst hother
      exact move.balance found (fun old hold => hcounted (found.trans hold)) hentry
    · rw [if_neg hother] at hentry
      have hnone : ∀ account ∈ cache.accounts step, account.key ≠ other := fun account hmem heq =>
        hother (heq.symm.trans (move.account_key hmem))
      refine (hcounted hentry).append (fun hmem => hnone _ hmem rfl) ?_
      rw [List.count_eq_zero.mpr fun hmem => hnone _ hmem rfl,
        List.count_eq_zero.mpr fun hmem => hnone _ hmem rfl]

/-- A step makes something of a cache first, and then evicts what does not fit. -/
def Steps (cache : Cache κ π) (step : Step κ π) (after : Cache κ π) : Prop :=
  ∃ middle, after = middle.trim ∧ middle.idleCapacity = cache.idleCapacity ∧
    Course cache step middle

/-- A step after which there are not too many idle entries needs no trimming. -/
theorem Course.steps (h : Course cache step middle)
    (hcapacity : middle.idleCapacity = cache.idleCapacity)
    (hle : middle.idle.length ≤ cache.idleCapacity) : Steps cache step middle :=
  ⟨middle, (trim_of_le (Nat.le_trans hle (Nat.le_of_eq hcapacity.symm))).symm, hcapacity, h⟩

/-- Reporting an outcome leaves the idle entries alone. -/
theorem idle_report (cache : Cache κ π) (key : κ) (outcome : LoadOutcome π) :
    (cache.report key outcome).2.idle = cache.idle ∧
      (cache.report key outcome).2.idleCapacity = cache.idleCapacity := by
  unfold report
  split
  · exact ⟨rfl, rfl⟩
  · exact ⟨rfl, rfl⟩

/-- Reporting outcomes leaves the idle entries alone. -/
theorem idle_foldl_report (cache : Cache κ π) (reports : List (κ × LoadOutcome π)) :
    (reports.foldl (fun cache report => (cache.report report.1 report.2).2) cache).idle =
        cache.idle ∧
      (reports.foldl (fun cache report => (cache.report report.1 report.2).2) cache).idleCapacity =
        cache.idleCapacity := by
  induction reports generalizing cache with
  | nil => exact ⟨rfl, rfl⟩
  | cons report rest ih =>
    have hfirst := cache.idle_report report.1 report.2
    have hrest := ih (cache.report report.1 report.2).2
    exact ⟨hrest.1.trans hfirst.1, hrest.2.trans hfirst.2⟩

/-- Reporting an outcome is a step. -/
theorem steps_report (hle : cache.idle.length ≤ cache.idleCapacity) (key : κ)
    (outcome : LoadOutcome π) :
    Steps cache (.report key outcome) (cache.report key outcome).2 := by
  obtain ⟨hidle, hcapacity⟩ := cache.idle_report key outcome
  have hentries := (cache.report_reports key outcome).readers.entries
  rw [← hidle] at hle
  exact Course.steps (.quiet hentries hidle rfl rfl) hcapacity hle

/-- The idle keys stay in the order of their last touch. -/
theorem Course.ordered (h : Course cache step middle) (htidy : cache.Tidy) {touched : List κ}
    (hordered : cache.idle.Pairwise (Precedes touched)) :
    middle.idle.Pairwise (Precedes (touched ++ cache.touches step)) := by
  cases h with
  | quiet entries idle untouched uncounted =>
    rw [idle, untouched, List.append_nil]
    exact hordered
  | @moves key before after move found entries idle =>
    have hne : ∀ other ∈ cache.idle.erase key, other ≠ key := fun other hmem =>
      ne_of_mem_of_not_mem hmem htidy.nodup.not_mem_erase
    have hrest := hordered.sublist (List.erase_sublist (a := key))
    rw [idle, move.touches_eq found]
    split
    · refine List.pairwise_append.mpr
        ⟨hrest.imp_of_mem fun hmem _ hbefore => hbefore.append_of_ne (hne _ hmem),
          List.pairwise_singleton _ _, fun other hmem last hlast => ?_⟩
      rw [List.mem_singleton.mp hlast]
      exact precedes_append_self (hne other hmem)
    · rw [List.append_nil, List.append_nil]
      exact hrest

variable [TransOrd κ]

/-- Starting a load leaves the idle entries alone. -/
theorem idle_startLoad (cache : Cache κ π) (key : κ) (refs : Nat) :
    (cache.startLoad key refs).idle = cache.idle ∧
      (cache.startLoad key refs).idleCapacity = cache.idleCapacity :=
  idle_foldl_report _ _

variable [LawfulEqOrd κ]

/-- Trimming removes the entries of the keys that were touched least recently, and no other. -/
theorem get?_trim (cache : Cache κ π) (key : κ) : cache.trim.entries.get? key =
    if key ∈ cache.idle.take (cache.idle.length - cache.idleCapacity) then none
    else cache.entries.get? key :=
  get?_foldl_erase _ _ _

/-- A tidy cache stays tidy when it is trimmed. -/
theorem Tidy.trim (h : cache.Tidy) : cache.trim.Tidy := by
  have hnodup := h.nodup
  rw [idle_eq_append_trim] at hnodup
  obtain ⟨-, hleft, hdisjoint⟩ := List.nodup_append'.mp hnodup
  refine ⟨hleft, fun {key} => ?_, fun {key refs} hfailed => ?_⟩
  · rw [get?_trim]
    by_cases hevicted : key ∈ cache.idle.take (cache.idle.length - cache.idleCapacity)
    · rw [if_pos hevicted]
      exact iff_of_false (hdisjoint hevicted) Bool.false_ne_true
    · rw [if_neg hevicted, ← h.mem_idle_iff, cache.idle_eq_append_trim, List.mem_append]
      exact (or_iff_right hevicted).symm
  · rw [get?_trim] at hfailed
    split at hfailed
    · cases hfailed
    · exact h.failed hfailed

/-- What is evicted is idle, and was touched before all that is left idle. -/
theorem Tidy.evicted (h : cache.Tidy) {touched : List κ}
    (hordered : cache.idle.Pairwise (Precedes touched)) {entry : Entry π}
    (hentry : cache.entries.get? key = some entry) (hgone : cache.trim.entries.get? key = none) :
    (∃ payload, entry = ⟨.ready payload, 0⟩) ∧
      ∀ other ∈ cache.trim.idle, Precedes touched key other := by
  rw [get?_trim] at hgone
  by_cases hevicted : key ∈ cache.idle.take (cache.idle.length - cache.idleCapacity)
  · rw [if_pos hevicted] at hgone
    have hidle := h.mem_idle_iff.mp (List.mem_of_mem_take hevicted)
    rw [hentry] at hidle
    rw [idle_eq_append_trim] at hordered
    exact ⟨Entry.exists_of_isIdle hidle, fun other hmem =>
      (List.pairwise_append.mp hordered).2.2 key hevicted other hmem⟩
  · rw [if_neg hevicted] at hgone
    cases hentry.symm.trans hgone

/-! ## Each step -/

/-- A busy entry that stays busy leaves the idle keys alone. -/
theorem Tidy.course_of_busy (h : cache.Tidy) {entry : Entry π}
    (move : Move cache key step before (some entry)) (found : cache.entries.get? key = before)
    (hentries : middle.entries = cache.entries.insert key entry)
    (hidle : middle.idle = cache.idle) (hbefore : before.any Entry.isIdle = false)
    (hentry : entry.isIdle = false) : Course cache step middle := by
  refine .moves move found (fun other => ?_) ?_
  · rw [hentries]
    exact Table.get?_insert _ _ _ _
  · rw [← found] at hbefore
    rw [hidle, h.erase_eq_self hbefore, Option.any_some, hentry]
    exact (List.append_nil _).symm

/-- Resolving a key is a step. -/
theorem Tidy.steps_resolve (h : cache.Tidy) (hle : cache.idle.length ≤ cache.idleCapacity)
    (key : κ) : Steps cache (.resolve key) (cache.resolve key).2 := by
  cases hentry : cache.entries.get? key with
  | none =>
    have hstarted := cache.startLoad_starts key 0
    obtain ⟨hidle, hcapacity⟩ := cache.idle_startLoad key 0
    rw [← hidle] at hle
    simp only [resolve, hentry]
    exact (h.course_of_busy .created hentry hstarted.readers.entries hidle rfl rfl).steps
      hcapacity hle
  | some entry =>
    obtain ⟨state, refs⟩ := entry
    cases state with
    | pending waiters =>
      simp only [resolve, hentry]
      exact Course.steps (h.course_of_busy .joined hentry rfl rfl rfl rfl) rfl hle
    | failed =>
      have hstarted := cache.startLoad_starts key refs
      obtain ⟨hidle, hcapacity⟩ := cache.idle_startLoad key refs
      rw [← hidle] at hle
      simp only [resolve, hentry]
      exact (h.course_of_busy .reloaded hentry hstarted.readers.entries hidle rfl rfl).steps
        hcapacity hle
    | ready payload =>
      have hsame : ∀ other, cache.entries.get? other =
          if other = key then some ⟨.ready payload, refs⟩ else cache.entries.get? other := by
        intro other
        by_cases heq : other = key
        · rw [if_pos heq, heq, hentry]
        · rw [if_neg heq]
      have hidle : key ∈ cache.idle ↔ _ := h.mem_idle_iff
      rw [hentry, Option.any_some] at hidle
      simp only [resolve, hentry, promote]
      by_cases hmem : key ∈ cache.idle
      · rw [if_pos hmem]
        have hlength := List.length_erase_add_one hmem
        refine Course.steps (.moves .read hentry hsame ?_) rfl ?_
        · rw [Option.any_some, if_pos (hidle.mp hmem)]
        · rw [List.length_append, List.length_singleton, hlength]
          exact hle
      · rw [if_neg hmem]
        refine Course.steps (.moves .read hentry hsame ?_) rfl hle
        rw [Option.any_some, if_neg (mt hidle.mpr hmem), List.append_nil,
          List.erase_of_not_mem hmem]

/-- Retaining a key is a step. -/
theorem steps_retain (hle : cache.idle.length ≤ cache.idleCapacity) (key : κ) :
    Steps cache (.retain key) (cache.retain key).2 := by
  cases hentry : cache.entries.get? key with
  | none =>
    simp only [retain, hentry]
    exact Course.steps (.quiet rfl rfl rfl (by simp [accounts, hentry])) rfl hle
  | some entry =>
    obtain ⟨state, refs⟩ := entry
    simp only [retain, hentry]
    refine Course.steps (.moves .retained hentry (fun other => Table.get?_insert _ _ _ _) ?_) rfl ?_
    · cases state <;> exact (List.append_nil _).symm
    · exact Nat.le_trans List.length_erase_le hle

/-- Releasing a key is a step. -/
theorem Tidy.steps_release (h : cache.Tidy) (hle : cache.idle.length ≤ cache.idleCapacity)
    (key : κ) : Steps cache (.release key) (cache.release key) := by
  cases hentry : cache.entries.get? key with
  | none =>
    simp only [release, hentry]
    exact Course.steps (.quiet rfl rfl (by simp [touches, hentry])
      (by simp [accounts, refs, hentry])) rfl hle
  | some entry =>
    obtain ⟨state, refs⟩ := entry
    cases refs with
    | zero =>
      simp only [release, hentry]
      exact Course.steps (.quiet rfl rfl (by simp [touches, hentry])
        (by simp [accounts, Cache.refs, hentry])) rfl hle
    | succ refs =>
      have hbusy : (some (⟨state, refs + 1⟩ : Entry π)).any Entry.isIdle = false := by
        cases state <;> rfl
      simp only [release, hentry]
      cases refs with
      | succ refs =>
        have hstill : (⟨state, refs + 1⟩ : Entry π).isIdle = false := by cases state <;> rfl
        exact Course.steps (h.course_of_busy (.released fun _ => Nat.succ_pos _) hentry rfl rfl
          hbusy hstill) rfl hle
      | zero =>
        cases state with
        | pending waiters =>
          have hwanted : (.pending waiters : EntryState π) = .failed → 0 < 0 :=
            fun heq => by cases heq
          exact Course.steps (h.course_of_busy (.released hwanted) hentry rfl rfl hbusy rfl) rfl hle
        | failed =>
          refine Course.steps (.moves .dropped hentry (fun other => ?_) ?_) rfl hle
          · exact (congrArg (Table.get? · other) (Table.erase_insert_self _ _ _)).trans
              (Table.get?_erase _ _ _)
          · rw [← hentry] at hbusy
            rw [h.erase_eq_self hbusy]
            exact (List.append_nil _).symm
        | ready payload =>
          have hwanted : EntryState.ready payload = .failed → 0 < 0 := fun heq => by cases heq
          exact ⟨_, rfl, rfl, .moves (.released hwanted) hentry
            (fun other => Table.get?_insert _ _ _ _) rfl⟩

/-- Settling changes the entry under the key of the outcome that arrived first, if it is pending. -/
theorem Tidy.steps_settleNext (h : cache.Tidy) (hle : cache.idle.length ≤ cache.idleCapacity) :
    Steps cache .settle cache.settleNext := by
  cases harrived : cache.arrived with
  | nil =>
    simp only [settleNext, harrived]
    exact Course.steps (.quiet rfl rfl (by simp [touches, harrived]) rfl) rfl hle
  | cons arrival rest =>
    obtain ⟨key, outcome⟩ := arrival
    rcases pending_or_settle_eq { cache with arrived := rest } key with
      ⟨waiters, refs, hentry⟩ | ⟨hstray, hstays⟩
    · change cache.entries.get? key = some ⟨.pending waiters, refs⟩ at hentry
      simp only [settleNext, harrived, settle, hentry]
      have hbusy : (cache.entries.get? key).any Entry.isIdle = false := by
        rw [hentry]
        rfl
      have hidle : cache.idle = cache.idle.erase key ++ [] := by
        rw [h.erase_eq_self hbusy, List.append_nil]
      cases outcome with
      | loaded payload =>
        have hmove : Move cache key .settle (some ⟨.pending waiters, refs⟩)
            (some ⟨.ready payload, refs⟩) := .loaded harrived
        dsimp only
        by_cases hzero : refs = 0
        · -- Nobody refers to the entry any more, so it is idle at once and may be evicted.
          rw [if_pos hzero]
          subst hzero
          exact ⟨_, rfl, rfl, .moves hmove hentry (fun other => Table.get?_insert _ _ _ _) rfl⟩
        · rw [if_neg hzero]
          refine Course.steps
            (.moves hmove hentry (fun other => Table.get?_insert _ _ _ _) ?_) rfl hle
          cases refs with
          | zero => exact absurd rfl hzero
          | succ refs => exact hidle
      | failed error =>
        dsimp only
        by_cases hzero : refs = 0
        · rw [if_pos hzero]
          subst hzero
          exact Course.steps (.moves (.forgotten harrived) hentry
            (fun other => Table.get?_erase _ _ _) hidle) rfl hle
        · rw [if_neg hzero]
          exact Course.steps (.moves (.failed harrived (Nat.pos_of_ne_zero hzero)) hentry
            (fun other => Table.get?_insert _ _ _ _) hidle) rfl hle
    · simp only [settleNext, harrived, hstays]
      refine Course.steps (.quiet rfl rfl ?_ rfl) rfl hle
      cases outcome with
      | failed error => simp [touches, harrived]
      | loaded payload =>
        simp only [touches, harrived]
        split
        case h_1 waiters hentry => exact absurd hentry (hstray waiters 0)
        case h_2 => rfl

/-- Every step of a tidy cache moves one entry at most, and then evicts what does not fit. -/
theorem Tidy.steps (h : cache.Tidy) (hle : cache.idle.length ≤ cache.idleCapacity)
    (step : Step κ π) : Steps cache step (cache.step step) := by
  cases step with
  | resolve key => exact h.steps_resolve hle key
  | retain key => exact steps_retain hle key
  | release key => exact h.steps_release hle key
  | report key outcome => exact steps_report hle key outcome
  | settle => exact h.steps_settleNext hle

/-! ## References -/

/-- The references still go by the accounts when a cache is trimmed. -/
theorem Counted.trim {seen : List (Account κ)} (h : Counted seen cache) :
    Counted seen cache.trim := by
  intro key entry hentry
  rw [get?_trim] at hentry
  split at hentry
  · cases hentry
  · exact h hentry

/-! ## Runs -/

/-- What a step does to the entries: it moves one of them at most, and then evicts what does not
fit. -/
structure Passes (cache : Cache κ π) (touched : List κ) (step : Step κ π) (middle : Cache κ π) :
    Prop where
  course : Course cache step middle
  trims : cache.step step = middle.trim
  /-- An entry is removed without being evicted when the last reference on it is given back after
  its load failed, or when its load fails and nobody refers to it. -/
  removed {key : κ} {entry : Entry π} : cache.entries.get? key = some entry →
    middle.entries.get? key = none →
    step = .release key ∧ entry = ⟨.failed, 1⟩ ∨
      step = .settle ∧ (∃ waiters, entry = ⟨.pending waiters, 0⟩) ∧
        ∃ error rest, cache.arrived = (key, .failed error) :: rest
  /-- An entry that is evicted is ready and unreferenced, and all that are left idle were touched
  later. -/
  evicted {key : κ} {entry : Entry π} : middle.entries.get? key = some entry →
    (cache.step step).entries.get? key = none →
    (∃ payload, entry = ⟨.ready payload, 0⟩) ∧
      ∀ other ∈ (cache.step step).idle, Precedes (touched ++ cache.touches step) key other
  /-- Only taking and giving back references changes their number. -/
  carried {key : κ} {old new : Entry π} : cache.entries.get? key = some old →
    middle.entries.get? key = some new → step ≠ .retain key → step ≠ .release key →
    new.refs = old.refs

/-- What a step does is what evictions are to do. -/
theorem Course.passes (h : Course cache step middle) (htidy : cache.Tidy) {touched : List κ}
    (hordered : cache.idle.Pairwise (Precedes touched)) (htrims : cache.step step = middle.trim) :
    Passes cache touched step middle where
  course := h
  trims := htrims
  removed {key entry} hentry hgone := by
    cases h with
    | quiet entries idle untouched uncounted =>
      rw [entries, hentry] at hgone
      cases hgone
    | @moves moved _ _ move found entries idle =>
      rw [entries] at hgone
      by_cases heq : key = moved
      · subst heq
        rw [if_pos rfl] at hgone
        rw [hentry] at found
        subst found
        cases move with
        | dropped => exact .inl ⟨rfl, rfl⟩
        | forgotten arrived => exact .inr ⟨rfl, ⟨_, rfl⟩, _, _, arrived⟩
        | joined => cases hgone
        | read => cases hgone
        | reloaded => cases hgone
        | retained => cases hgone
        | released wanted => cases hgone
        | loaded arrived => cases hgone
        | failed arrived wanted => cases hgone
      · rw [if_neg heq] at hgone
        cases hentry.symm.trans hgone
  evicted {key entry} hentry hgone := by
    rw [htrims] at hgone ⊢
    exact (h.tidy htidy).evicted (h.ordered htidy hordered) hentry hgone
  carried {key old new} hold hnew hretain hrelease := by
    cases h with
    | quiet entries idle untouched uncounted =>
      rw [entries, hold] at hnew
      cases hnew
      rfl
    | @moves moved _ _ move found entries idle =>
      rw [entries] at hnew
      by_cases heq : key = moved
      · subst heq
        rw [if_pos rfl] at hnew
        exact move.carried hretain hrelease (found.symm.trans hold) hnew
      · rw [if_neg heq] at hnew
        cases hold.symm.trans hnew
        rfl

end

section

variable [DecidableEq κ] [TransOrd κ] [LawfulEqOrd κ]

/-- What is kept in a cache, and in which order it is evicted. -/
structure Evictions (idleCapacity : Nat) (loader : Loader κ π) (steps : List (Step κ π)) :
    Prop where
  idle_nodup : ((new idleCapacity loader).walk steps).idle.Nodup
  /-- The idle keys are those of the entries that are ready and unreferenced. -/
  mem_idle_iff {key : κ} : key ∈ ((new idleCapacity loader).walk steps).idle ↔
    ∃ payload, ((new idleCapacity loader).walk steps).entries.get? key = some ⟨.ready payload, 0⟩
  idle_le : ((new idleCapacity loader).walk steps).idle.length ≤ idleCapacity
  failed_pos {key : κ} {refs : Nat} :
    ((new idleCapacity loader).walk steps).entries.get? key = some ⟨.failed, refs⟩ → 0 < refs
  /-- The references on an entry are those taken since its creation, less those given back. -/
  balance {key : κ} {entry : Entry π} :
    ((new idleCapacity loader).walk steps).entries.get? key = some entry →
    Balance (history Cache.step accounts (new idleCapacity loader) steps) key entry.refs
  next (next : Step κ π) : ∃ middle, Passes ((new idleCapacity loader).walk steps)
    (history Cache.step touches (new idleCapacity loader) steps) next middle

variable {idleCapacity : Nat} {touched : List κ} {seen : List (Account κ)}

/-- A step of a cache that was kept well goes its course and is trimmed. -/
theorem Kept.steps (h : Kept idleCapacity touched seen cache) (step : Step κ π) :
    ∃ middle, cache.step step = middle.trim ∧ middle.idleCapacity = idleCapacity ∧
      Course cache step middle := by
  obtain ⟨middle, htrims, hcapacity, hcourse⟩ := h.tidy.steps
    (Nat.le_trans h.le (Nat.le_of_eq h.capacity.symm)) step
  exact ⟨middle, htrims, hcapacity.trans h.capacity, hcourse⟩

/-- A cache is kept well in every step. -/
theorem Kept.stepped (h : Kept idleCapacity touched seen cache) (step : Step κ π) :
    Kept idleCapacity (touched ++ cache.touches step) (seen ++ cache.accounts step)
      (cache.step step) := by
  obtain ⟨middle, htrims, hcapacity, hcourse⟩ := h.steps step
  rw [htrims]
  have htidy := hcourse.tidy h.tidy
  have hordered := hcourse.ordered h.tidy h.ordered
  refine ⟨htidy.trim, hcapacity, ?_, ?_, Counted.trim (hcourse.counted h.counted)⟩
  · change (middle.idle.drop _).length ≤ _
    rw [List.length_drop, hcapacity]
    omega
  · rw [idle_eq_append_trim] at hordered
    exact (List.pairwise_append.mp hordered).2.1

/-- A cache is kept well in every walk. -/
theorem Kept.walk (h : Kept idleCapacity touched seen cache) (steps : List (Step κ π)) :
    Kept idleCapacity (touched ++ history Cache.step touches cache steps)
      (seen ++ history Cache.step accounts cache steps) (cache.walk steps) := by
  induction steps generalizing cache touched seen with
  | nil =>
    rw [history, history, List.append_nil, List.append_nil]
    exact h
  | cons step rest ih =>
    rw [history, history, ← List.append_assoc, ← List.append_assoc]
    exact ih (h.stepped step)

/-- In every walk of steps, entries are evicted as they should be. -/
theorem walk_evictions (idleCapacity : Nat) (loader : Loader κ π) (steps : List (Step κ π)) :
    Evictions idleCapacity loader steps := by
  have h := (kept_new idleCapacity loader).walk steps
  rw [List.nil_append, List.nil_append] at h
  refine ⟨h.tidy.nodup, h.tidy.mem_idle_iff.trans Entry.any_isIdle_iff, h.le, h.tidy.failed,
    h.counted, fun next => ?_⟩
  obtain ⟨middle, htrims, -, hcourse⟩ := h.steps next
  exact ⟨middle, hcourse.passes h.tidy h.ordered htrims⟩

/-- Whatever happens to a cache is a list of steps, and after each of them the idle keys are those
of the entries that are ready and unreferenced; the next step evicts the least recently touched
ones, and removes no other entry that is referenced or being loaded. -/
theorem run_evictions (idleCapacity : Nat) (loader : Loader κ π) (actions : List (Action κ π)) :
    (new idleCapacity loader).run actions = (new idleCapacity loader).walk
        (history act stepsOf (new idleCapacity loader) actions) ∧
      ∀ steps, steps <+: history act stepsOf (new idleCapacity loader) actions →
        Evictions idleCapacity loader steps :=
  ⟨run_eq_walk _ actions, fun steps _ => walk_evictions idleCapacity loader steps⟩

/-- Three keys are loaded; the first is referenced for a while, and the second is read once more. -/
def churn : List (Action CacheKey String) :=
  [.resolve (.zone 1), .resolve (.zone 2), .resolve (.zone 3), .retain (.zone 1),
    .report (.zone 1) (.loaded "square"), .report (.zone 2) (.loaded "market"), .maintain,
    .release (.zone 1), .resolve (.zone 2), .report (.zone 3) (.loaded "harbour"), .maintain]

/-- With room for two idle entries, the first key is evicted when the third one becomes idle. -/
theorem churn_evictions :
    ((new 2 .manual).run churn).idle = [.zone 2, .zone 3] ∧
      Evictions 2 .manual (history act stepsOf (new 2 .manual) churn) :=
  ⟨by decide +kernel, (run_evictions 2 .manual churn).2 _ (List.prefix_refl _)⟩

end

end Cache

end SharedWorld
