import SharedWorld.Proofs.Waiters

/-!
# What the holders of resolutions learn

A cache hands out a resolution whenever a key is resolved. The resolution may be asked for its
outcome, waited for or dropped at any time, long after the entry it came from is gone. It brings the
payload that was ready when it was handed out, or else the result of the one load of its key that
was outstanding then, from the moment at which that load is settled (`Desk.run_honors`).
-/

namespace SharedWorld

open Std

/-! ## Resolutions in the hands of their holders -/

/-- What the holder of a resolution does with it. -/
inductive Handle (κ π : Type) where
  /-- The resolution is kept, to be asked for its outcome. -/
  | held (resolution : Resolution κ π)
  /-- The resolution is given away to be waited for. -/
  | awaited (resolution : Resolution κ π)
  | gone
  deriving DecidableEq, Repr

/-- A cache with everyone who resolved keys of it. -/
structure Desk (κ π : Type) [Ord κ] where
  cache : Cache κ π
  /-- Whether the cache is still there. -/
  isOpen : Bool := true
  /-- All loads ever started, the oldest first. -/
  loads : List (Load κ π) := []
  /-- All resolutions ever handed out, the oldest first. -/
  handles : List (Handle κ π) := []
  /-- The outcomes that were taken when resolutions were asked, with the number of the handle. -/
  taken : List (Nat × LoadOutcome π) := []

namespace Desk

/-- What can happen at a desk. Handles are named by their number. -/
inductive Event (κ π : Type) where
  /-- Something happens to the cache. The resolution of a key is handed out. -/
  | acts (action : Cache.Action κ π)
  /-- A resolution is asked for its outcome. One that is waited for is gone with its outcome. -/
  | asks (number : Nat)
  /-- From now on a resolution is waited for. -/
  | waits (number : Nat)
  /-- A resolution is dropped. -/
  | drops (number : Nat)
  /-- The cache is dropped. -/
  | closes
  deriving DecidableEq, Repr

variable {κ π : Type} [Ord κ] [TransOrd κ] [DecidableEq κ]

/-- A desk with an empty cache. -/
def new (idleCapacity : Nat) (loader : Loader κ π) : Desk κ π :=
  { cache := .new idleCapacity loader }

/-- The resolution that an action hands out. -/
def handsOut (cache : Cache κ π) : Cache.Action κ π → List (Handle κ π)
  | .resolve key => [.held (cache.resolve key).1]
  | _ => []

/-- Ask a resolution for its outcome. -/
def ask (desk : Desk κ π) (number : Nat) : Desk κ π :=
  match desk.handles[number]? with
  | some (.held resolution) =>
    let (outcome, resolution) := resolution.tryTake desk.cache
    { desk with
      handles := desk.handles.set number (.held resolution)
      taken := desk.taken ++ outcome.toList.map (number, ·) }
  | some (.awaited resolution) =>
    match resolution.await desk.cache with
    | some _ => { desk with handles := desk.handles.set number .gone }
    | none => desk
  | _ => desk

/-- The desk after an event. Nothing more happens to a cache that was dropped. -/
def step (desk : Desk κ π) : Event κ π → Desk κ π
  | .acts action =>
    if desk.isOpen then { desk with
      cache := desk.cache.act action
      loads := desk.cache.record desk.loads action
      handles := desk.handles ++ handsOut desk.cache action }
    else desk
  | .asks number => desk.ask number
  | .waits number =>
    match desk.handles[number]? with
    | some (.held resolution) =>
      { desk with handles := desk.handles.set number (.awaited resolution) }
    | _ => desk
  | .drops number => { desk with handles := desk.handles.set number .gone }
  | .closes => { desk with cache := desk.cache.close, isOpen := false }

/-- The desk after a list of events. -/
def run (desk : Desk κ π) (events : List (Event κ π)) : Desk κ π := events.foldl step desk

/-- The outcomes that were taken from a resolution. -/
def takenFrom (desk : Desk κ π) (number : Nat) : List (LoadOutcome π) :=
  desk.taken.filterMap fun entry => if entry.1 = number then some entry.2 else none

end Desk

/-! ## What a resolution is to bring -/

/-- What the outcome of a resolution was to be when it was handed out. -/
inductive Promise (π : Type) where
  /-- A payload that was ready. -/
  | payload (payload : π)
  /-- The result of a load, named by its place in the record of all loads. -/
  | load (number : Nat)
  deriving DecidableEq, Repr

namespace Desk

variable {κ π : Type} [Ord κ]

/-- The outcome that a resolution has to bring, once there is one: a payload at once, the result of
a load from the moment at which it was settled. If the cache is dropped before, the load counts as
abandoned. -/
def outcome? (desk : Desk κ π) : Promise π → Option (LoadOutcome π)
  | .payload payload => some (.loaded payload)
  | .load number =>
    match desk.loads[number]?.bind Load.told? with
    | some outcome => some outcome
    | none => if desk.isOpen then none else some (.failed .abandoned)

/-- The load with the given number is the only one of `key` that was not settled. -/
structure OnlyLoad (desk : Desk κ π) (key : κ) (number : Nat) : Prop where
  outstanding : key ∈ desk.cache.outstanding
  exists_load : ∃ load, desk.loads[number]? = some load ∧ load.key = key ∧ load.told? = none
  unique : ∀ {other load}, desk.loads[other]? = some load → load.key = key → load.told? = none →
    other = number

/-- The promise that is made when `key` is resolved: the payload of a ready entry, and the result of
the outstanding load otherwise. -/
inductive Promises (before after : Desk κ π) (key : κ) : Promise π → Prop
  | ready {payload : π} (ready : before.cache.peek? key = some payload) :
    Promises before after key (.payload payload)
  | loading {number : Nat} (unready : before.cache.peek? key = none)
    (only : after.OnlyLoad key number) : Promises before after key (.load number)

/-- A resolution brings what it has to. -/
structure Honors (desk : Desk κ π) (number : Nat) (promise : Promise π) : Prop where
  /-- No more than one outcome is ever taken. -/
  once : (desk.takenFrom number).length ≤ 1
  /-- What was taken is the outcome. -/
  taken : ∀ outcome ∈ desk.takenFrom number, desk.outcome? promise = some outcome
  /-- As long as nothing was taken, asking brings the outcome as soon as there is one, and so does
  waiting. -/
  offers : desk.takenFrom number = [] → ∀ resolution,
    desk.handles[number]? = some (.held resolution) ∨
      desk.handles[number]? = some (.awaited resolution) →
    (resolution.tryTake desk.cache).1 = desk.outcome? promise ∧
      resolution.await desk.cache = desk.outcome? promise
  /-- After that, asking brings nothing. -/
  spent : desk.takenFrom number ≠ [] → ∀ resolution,
    desk.handles[number]? = some (.held resolution) → (resolution.tryTake desk.cache).1 = none

end Desk

/-! ## Resolutions keep what they are to bring -/

namespace Cache

variable {κ π : Type} [Ord κ]

/-- The holder of a ticket that was delivered nothing waits as long as it is listed. -/
theorem outcomeFor?_of_lists {cache : Cache κ π} {key : κ} {ticket : Ticket}
    (hnone : cache.delivered.get? ticket = none) (hlists : cache.Lists key ticket) :
    cache.outcomeFor? key ticket = none := by
  obtain ⟨waiters, refs, hentry, hmem⟩ := hlists
  simp [outcomeFor?, hnone, awaits, hentry, hmem]

end Cache

namespace Desk

variable {κ π : Type} [Ord κ] {desk after : Desk κ π} {key : κ} {number : Nat}
  {resolution : Resolution κ π} {promise : Promise π}

/-- While its cache is there, a desk records the loads of a cache in single flight. A cache that was
dropped has no entries. -/
structure Sound (desk : Desk κ π) : Prop where
  single : desk.isOpen = true → desk.cache.SingleFlight
  records : desk.isOpen = true → desk.cache.Records desk.loads
  closed : desk.isOpen = false → desk.cache.entries = Table.empty
  taken_lt : ∀ entry ∈ desk.taken, entry.1 < desk.handles.length

/-- A resolution is going to bring what was promised. -/
inductive Backs (desk : Desk κ π) : Resolution κ π → Promise π → Prop
  | payload (payload : π) : Backs desk (.settled (some (.loaded payload))) (.payload payload)
  | ticket {key : κ} {ticket : Ticket} {number : Nat}
    (told : desk.cache.delivered.get? ticket = desk.loads[number]?.bind Load.told?)
    (attends : desk.isOpen = true → desk.cache.Attends desk.loads key ticket number) :
    Backs desk (.waiting key ticket) (.load number)

/-- A promise stays backed while the cache and its loads stay the same. -/
theorem Backs.of_same (h : desk.Backs resolution promise) (hcache : after.cache = desk.cache)
    (hloads : after.loads = desk.loads) (hopen : after.isOpen = desk.isOpen) :
    after.Backs resolution promise := by
  cases h with
  | payload payload => exact .payload payload
  | ticket told attends =>
    refine .ticket ?_ ?_
    · rw [hcache, hloads]
      exact told
    · rw [hcache, hloads, hopen]
      exact attends

/-- The outcome of what was promised is the same as before. -/
theorem outcome?_of_same (hloads : after.loads = desk.loads) (hopen : after.isOpen = desk.isOpen)
    (promise : Promise π) : after.outcome? promise = desk.outcome? promise := by
  cases promise with
  | payload payload => rfl
  | load number => rw [outcome?, outcome?, hloads, hopen]

/-- What is there to be learned of a resolution is what was promised. -/
theorem Sound.await_eq (h : desk.Sound) (backs : desk.Backs resolution promise) :
    resolution.await desk.cache = desk.outcome? promise := by
  cases backs with
  | payload payload => rfl
  | @ticket key ticket number told attends =>
    change desk.cache.outcomeFor? key ticket = _
    rw [outcome?, ← told]
    cases hdelivered : desk.cache.delivered.get? ticket with
    | some outcome => rw [Cache.outcomeFor?, hdelivered]
    | none =>
      cases hopen : desk.isOpen with
      | true =>
        have hlists : desk.cache.Lists key ticket :=
          (attends hopen).lists_iff.mpr ⟨rfl, told.symm.trans hdelivered⟩
        rw [Cache.outcomeFor?_of_lists hdelivered hlists]
        rfl
      | false =>
        have hget : desk.cache.entries.get? key = none := by
          rw [h.closed hopen]
          rfl
        simp [Cache.outcomeFor?, hdelivered, Cache.awaits, hget]

/-- Asking brings what is there to be learned, and then nothing is left. -/
theorem Backs.tryTake_eq (h : desk.Backs resolution promise) :
    resolution.tryTake desk.cache = match resolution.await desk.cache with
      | some outcome => (some outcome, .settled none)
      | none => (none, resolution) := by
  cases h with
  | payload payload => rfl
  | ticket told attends => rfl

/-- A resolution that was handed out keeps what was promised. -/
structure KeepsPromise (desk : Desk κ π) (number : Nat) (promise : Promise π) : Prop where
  lt : number < desk.handles.length
  /-- As long as nothing was taken from it, it is going to bring what was promised. -/
  backs : desk.takenFrom number = [] → ∀ resolution,
    desk.handles[number]? = some (.held resolution) ∨
      desk.handles[number]? = some (.awaited resolution) → desk.Backs resolution promise
  /-- What was taken from it is what was promised, and nothing is left. -/
  spent : desk.takenFrom number ≠ [] → ∃ outcome, desk.takenFrom number = [outcome] ∧
    desk.outcome? promise = some outcome ∧
    ∀ resolution, desk.handles[number]? = some (.held resolution) → resolution = .settled none

/-- A promise that is kept is honored. -/
theorem KeepsPromise.honors (h : desk.KeepsPromise number promise) (hsound : desk.Sound) :
    desk.Honors number promise where
  once := by
    by_cases hnone : desk.takenFrom number = []
    · simp [hnone]
    · obtain ⟨outcome, htaken, -⟩ := h.spent hnone
      simp [htaken]
  taken outcome hmem := by
    obtain ⟨taken, htaken, houtcome, -⟩ := h.spent (List.ne_nil_of_mem hmem)
    rw [htaken, List.mem_singleton] at hmem
    rw [hmem, houtcome]
  offers hnone resolution hheld := by
    have hbacks := h.backs hnone resolution hheld
    have hawait := hsound.await_eq hbacks
    refine ⟨?_, hawait⟩
    rw [hbacks.tryTake_eq, hawait]
    cases desk.outcome? promise <;> rfl
  spent hsome resolution hheld := by
    obtain ⟨outcome, -, -, hleft⟩ := h.spent hsome
    rw [hleft resolution hheld]
    rfl

/-- What happens to a cache does not touch the resolutions that were handed out. -/
theorem KeepsPromise.of_cache (h : desk.KeepsPromise number promise)
    (hhandle : after.handles[number]? = desk.handles[number]?) (htaken : after.taken = desk.taken)
    (hbacks : ∀ {resolution}, desk.Backs resolution promise → after.Backs resolution promise)
    (houtcome : ∀ {outcome}, desk.outcome? promise = some outcome →
      after.outcome? promise = some outcome) : after.KeepsPromise number promise := by
  have hfrom : after.takenFrom number = desk.takenFrom number := by
    rw [takenFrom, takenFrom, htaken]
  refine ⟨?_, fun hnone resolution hheld => ?_, fun hsome => ?_⟩
  · by_contra hge
    rw [List.getElem?_eq_none (Nat.le_of_not_lt hge)] at hhandle
    exact Nat.not_lt.mpr (List.getElem?_eq_none_iff.mp hhandle.symm) h.lt
  · rw [hfrom] at hnone
    rw [hhandle] at hheld
    exact hbacks (h.backs hnone resolution hheld)
  · rw [hfrom] at hsome
    obtain ⟨outcome, htaken, hpromised, hleft⟩ := h.spent hsome
    rw [hfrom, hhandle]
    exact ⟨outcome, htaken, houtcome hpromised, hleft⟩

/-- Nothing changes but handles, and that of the given number at most to be given away. -/
structure Releases (before after : Desk κ π) (number : Nat) : Prop where
  cache : after.cache = before.cache
  isOpen : after.isOpen = before.isOpen
  loads : after.loads = before.loads
  length : after.handles.length = before.handles.length
  takenFrom : after.takenFrom number = before.takenFrom number
  held : ∀ {resolution}, after.handles[number]? = some (.held resolution) →
    before.handles[number]? = some (.held resolution)
  awaited : ∀ {resolution}, after.handles[number]? = some (.awaited resolution) →
    before.handles[number]? = some (.held resolution) ∨
      before.handles[number]? = some (.awaited resolution)

/-- A promise stays kept when other resolutions are let go. -/
theorem KeepsPromise.of_releases (h : desk.KeepsPromise number promise)
    (releases : desk.Releases after number) : after.KeepsPromise number promise := by
  refine ⟨?_, fun hnone resolution hheld => ?_, fun hsome => ?_⟩
  · rw [releases.length]
    exact h.lt
  · rw [releases.takenFrom] at hnone
    have hbefore : desk.handles[number]? = some (.held resolution) ∨
        desk.handles[number]? = some (.awaited resolution) :=
      hheld.elim (fun hheld => .inl (releases.held hheld)) releases.awaited
    exact (h.backs hnone resolution hbefore).of_same releases.cache releases.loads releases.isOpen
  · rw [releases.takenFrom] at hsome
    obtain ⟨outcome, htaken, hpromised, hleft⟩ := h.spent hsome
    rw [releases.takenFrom, outcome?_of_same releases.loads releases.isOpen]
    exact ⟨outcome, htaken, hpromised, fun resolution hheld =>
      hleft resolution (releases.held hheld)⟩

/-- The load with the given number is a load of `key`. -/
def Names (desk : Desk κ π) (key : κ) (number : Nat) : Prop :=
  ∃ load, desk.loads[number]? = some load ∧ load.key = key

/-! ## What happens at a desk -/

/-- Another handle changes, or this one without a new resolution. -/
theorem releases_set (desk : Desk κ π) {other : Nat} {handle : Handle κ π}
    {taken : List (Nat × LoadOutcome π)}
    (hheld : ∀ {resolution}, other = number → handle = .held resolution →
      desk.handles[number]? = some (.held resolution))
    (hawaited : ∀ {resolution}, other = number → handle = .awaited resolution →
      desk.handles[number]? = some (.held resolution))
    (htaken : Desk.takenFrom { desk with taken := taken } number = desk.takenFrom number) :
    desk.Releases { desk with handles := desk.handles.set other handle, taken := taken }
      number := by
  have hset : ∀ {result}, (desk.handles.set other handle)[number]? = some result →
      other = number ∧ handle = result ∨ desk.handles[number]? = some result := by
    intro result hresult
    rw [List.getElem?_set] at hresult
    grind
  refine ⟨rfl, rfl, rfl, List.length_set, htaken, fun hresult => ?_, fun hresult => ?_⟩
  · rcases hset hresult with ⟨hother, hnew⟩ | hold
    · exact hheld hother hnew
    · exact hold
  · rcases hset hresult with ⟨hother, hnew⟩ | hold
    · exact .inl (hawaited hother hnew)
    · exact .inr hold

/-- A resolution that is dropped, or whose wait is over, is given away. -/
theorem releases_gone (desk : Desk κ π) (number other : Nat) :
    desk.Releases { desk with handles := desk.handles.set other .gone } number :=
  desk.releases_set nofun nofun rfl

/-- Waiting for a resolution gives it away. -/
theorem releases_waits (desk : Desk κ π) (number : Nat) {other : Nat}
    (hheld : desk.handles[other]? = some (.held resolution)) :
    desk.Releases { desk with handles := desk.handles.set other (.awaited resolution) } number := by
  refine desk.releases_set nofun (fun hother hawaited => ?_) rfl
  cases hawaited
  rw [← hother]
  exact hheld

/-- What is taken is noted under the number that it is taken from. -/
theorem takenFrom_append (desk : Desk κ π) (number other : Nat) (outcome : Option (LoadOutcome π)) :
    Desk.takenFrom { desk with taken := desk.taken ++ outcome.toList.map (other, ·) } number =
      desk.takenFrom number ++ if other = number then outcome.toList else [] := by
  rw [takenFrom, takenFrom, List.filterMap_append]
  cases outcome with
  | none => simp
  | some outcome => split <;> simp [*]

/-- Asking another resolution, or one that has nothing to bring, takes nothing from this one. -/
theorem releases_asks (desk : Desk κ π) {other : Nat}
    (hheld : desk.handles[other]? = some (.held resolution))
    (hnothing : other = number → resolution.tryTake desk.cache = (none, resolution)) :
    desk.Releases { desk with
      handles := desk.handles.set other (.held (resolution.tryTake desk.cache).2)
      taken := desk.taken ++ (resolution.tryTake desk.cache).1.toList.map (other, ·) } number := by
  refine desk.releases_set (fun hother hleft => ?_) nofun ?_
  · rw [hnothing hother] at hleft
    cases hleft
    rw [← hother]
    exact hheld
  · refine (takenFrom_append desk number other _).trans ?_
    by_cases hother : other = number
    · rw [if_pos hother, hnothing hother, Option.toList_none, List.append_nil]
    · rw [if_neg hother, List.append_nil]

/-- The outcome of a resolution is taken once. -/
theorem KeepsPromise.takes (h : desk.KeepsPromise number promise)
    (hnone : desk.takenFrom number = []) {outcome : LoadOutcome π}
    (houtcome : desk.outcome? promise = some outcome) :
    KeepsPromise { desk with
      handles := desk.handles.set number (.held (.settled none))
      taken := desk.taken ++ [(number, outcome)] } number promise := by
  have hfrom := desk.takenFrom_append number number (some outcome)
  rw [hnone, if_pos rfl, List.nil_append] at hfrom
  refine ⟨?_, fun hnil => ?_, fun _ => ⟨outcome, hfrom, ?_, fun resolution hleft => ?_⟩⟩
  · rw [List.length_set]
    exact h.lt
  · cases hfrom.symm.trans hnil
  · rw [← houtcome]
    exact outcome?_of_same rfl rfl promise
  · rw [List.getElem?_set_self h.lt] at hleft
    cases hleft
    rfl

/-- Asking a resolution takes what was promised, as soon as it is there. -/
theorem KeepsPromise.ask (h : desk.KeepsPromise number promise) (hsound : desk.Sound)
    (other : Nat) : (desk.ask other).KeepsPromise number promise := by
  unfold Desk.ask
  cases hhandle : desk.handles[other]? with
  | none => exact h
  | some handle =>
    cases handle with
    | gone => exact h
    | awaited resolution =>
      dsimp only
      split
      · exact h.of_releases (releases_gone desk number other)
      · exact h
    | held resolution =>
      by_cases hfirst : other = number ∧ desk.takenFrom number = []
      · obtain ⟨rfl, hnone⟩ := hfirst
        have hbacks := h.backs hnone resolution (.inl hhandle)
        have htake := hbacks.tryTake_eq
        rw [hsound.await_eq hbacks] at htake
        cases houtcome : desk.outcome? promise with
        | none =>
          rw [houtcome] at htake
          exact h.of_releases (releases_asks desk hhandle fun _ => htake)
        | some outcome =>
          rw [houtcome] at htake
          dsimp only
          rw [htake]
          exact h.takes hnone houtcome
      · refine h.of_releases (releases_asks desk hhandle fun heq => ?_)
        obtain ⟨outcome, -, -, hleft⟩ := h.spent fun hnil => hfirst ⟨heq, hnil⟩
        rw [heq] at hhandle
        rw [hleft resolution hhandle]
        rfl

/-- Asking starts no load. -/
theorem loads_ask (desk : Desk κ π) (number : Nat) : (desk.ask number).loads = desk.loads := by
  unfold ask
  split
  · rfl
  · split
    · rfl
    · rfl
  · rfl

/-- Asking for outcomes and giving resolutions away concerns no cache. -/
theorem Sound.of_same (h : desk.Sound) (hcache : after.cache = desk.cache)
    (hloads : after.loads = desk.loads) (hopen : after.isOpen = desk.isOpen)
    (hlength : after.handles.length = desk.handles.length)
    (htaken : ∀ entry ∈ after.taken, entry ∈ desk.taken ∨ entry.1 < desk.handles.length) :
    after.Sound := by
  refine ⟨?_, ?_, ?_, fun entry hentry => ?_⟩
  · rw [hopen, hcache]
    exact h.single
  · rw [hopen, hcache, hloads]
    exact h.records
  · rw [hopen, hcache]
    exact h.closed
  · rw [hlength]
    exact (htaken entry hentry).elim (h.taken_lt entry) id

/-- A desk stays sound when somebody asks. -/
theorem Sound.ask (h : desk.Sound) (number : Nat) : (desk.ask number).Sound := by
  unfold Desk.ask
  cases hhandle : desk.handles[number]? with
  | none => exact h
  | some handle =>
    cases handle with
    | gone => exact h
    | awaited resolution =>
      dsimp only
      split
      · exact h.of_same rfl rfl rfl List.length_set fun _ => .inl
      · exact h
    | held resolution =>
      refine h.of_same rfl rfl rfl List.length_set fun entry hentry => ?_
      rcases List.mem_append.mp hentry with hold | hnew
      · exact .inl hold
      · obtain ⟨outcome, -, rfl⟩ := List.mem_map.mp hnew
        exact .inr (List.getElem?_eq_some_iff.mp hhandle).1

section Steps

variable [TransOrd κ] [DecidableEq κ]

/-- A cache that is dropped delivers nothing any more. -/
theorem Backs.closes (h : desk.Backs resolution promise) :
    (desk.step .closes).Backs resolution promise := by
  cases h with
  | payload payload => exact .payload payload
  | ticket told attends => exact .ticket told nofun

/-- What a promise came to stays when the cache is closed. -/
theorem outcome?_closes {outcome : LoadOutcome π} (h : desk.outcome? promise = some outcome) :
    (desk.step .closes).outcome? promise = some outcome := by
  cases promise with
  | payload payload => exact h
  | load number =>
    rw [outcome?] at h ⊢
    cases hbind : desk.loads[number]?.bind Load.told? with
    | some told =>
      rw [hbind] at h
      simp [step, hbind, h]
    | none =>
      simp only [hbind] at h
      split at h
      · cases h
      · simpa [step, hbind] using h

/-- What a promise came to stays whatever is done with the cache. -/
theorem outcome?_acts {outcome : LoadOutcome π} (h : desk.outcome? promise = some outcome)
    (hopen : desk.isOpen = true) (action : Cache.Action κ π) :
    (desk.step (.acts action)).outcome? promise = some outcome := by
  rw [step, if_pos hopen]
  cases promise with
  | payload payload => exact h
  | load number =>
    have htold : desk.loads[number]?.bind Load.told? = some outcome := by
      rw [outcome?, hopen] at h
      cases hbind : desk.loads[number]?.bind Load.told? with
      | some told => rwa [hbind] at h
      | none =>
        rw [hbind] at h
        cases h
    rw [outcome?, desk.cache.told?_record action htold]

/-- The resolution that was handed out last keeps what it is going to bring. -/
theorem Sound.keepsPromise_resolve (h : desk.Sound) (hopen : desk.isOpen = true)
    (hbacks : (desk.step (.acts (.resolve key))).Backs (desk.cache.resolve key).1 promise) :
    (desk.step (.acts (.resolve key))).KeepsPromise desk.handles.length promise := by
  have hnone : (desk.step (.acts (.resolve key))).takenFrom desk.handles.length = [] := by
    rw [Desk.step, if_pos hopen]
    refine List.filterMap_eq_nil_iff.mpr fun entry hentry => ?_
    exact if_neg (Nat.ne_of_lt (h.taken_lt entry hentry))
  have hhandle : (desk.step (.acts (.resolve key))).handles =
      desk.handles ++ [.held (desk.cache.resolve key).1] := by
    rw [Desk.step, if_pos hopen]
    rfl
  refine ⟨?_, fun _ resolution hheld => ?_, fun hsome => absurd hnone hsome⟩
  · rw [hhandle, List.length_append]
    exact Nat.lt_succ_self _
  · rw [hhandle, List.getElem?_concat_length] at hheld
    rcases hheld with hheld | hawaited
    · cases hheld
      exact hbacks
    · cases hawaited

/-- A load keeps its number. -/
theorem Names.step (h : desk.Names key number) (event : Event κ π) :
    (desk.step event).Names key number := by
  cases event with
  | acts action =>
    obtain ⟨load, hload, rfl⟩ := h
    rw [Desk.step]
    split
    · exact desk.cache.exists_record action hload
    · exact ⟨load, hload, rfl⟩
  | asks other =>
    rw [Names, Desk.step, loads_ask]
    exact h
  | waits other =>
    rw [Desk.step]
    split
    · exact h
    · exact h
  | drops other => exact h
  | closes => exact h

/-- A resolution that was handed out for a key stays that of the key. -/
theorem Names.run (h : desk.Names key number) (events : List (Event κ π)) :
    (desk.run events).Names key number :=
  List.foldlRecOn (motive := fun desk : Desk κ π => desk.Names key number) events Desk.step h
    fun _ hnames event _ => hnames.step event

variable [LawfulEqOrd κ]

/-- A promise stays backed whatever is done with the cache. -/
theorem Backs.acts (h : desk.Backs resolution promise) (hsound : desk.Sound)
    (hopen : desk.isOpen = true) (action : Cache.Action κ π) :
    (desk.step (.acts action)).Backs resolution promise := by
  rw [step, if_pos hopen]
  cases h with
  | payload payload => exact .payload payload
  | ticket told attends =>
    have hattends := (attends hopen).act (hsound.records hopen) (hsound.single hopen) action
    exact .ticket hattends.told fun _ => hattends

/-- Whatever happens, a resolution keeps what was promised. -/
theorem KeepsPromise.step (h : desk.KeepsPromise number promise) (hsound : desk.Sound)
    (event : Event κ π) : (desk.step event).KeepsPromise number promise := by
  cases event with
  | acts action =>
    by_cases hopen : desk.isOpen = true
    · refine h.of_cache ?_ ?_ (fun hbacks => hbacks.acts hsound hopen action)
        (fun houtcome => outcome?_acts houtcome hopen action)
      · rw [Desk.step, if_pos hopen]
        exact List.getElem?_append_left h.lt
      · rw [Desk.step, if_pos hopen]
    · rw [Desk.step, if_neg hopen]
      exact h
  | asks other => exact h.ask hsound other
  | waits other =>
    rw [Desk.step]
    split
    case h_1 resolution hheld => exact h.of_releases (releases_waits desk number hheld)
    case h_2 => exact h
  | drops other => exact h.of_releases (releases_gone desk number other)
  | closes => exact h.of_cache rfl rfl Backs.closes outcome?_closes

/-- A desk stays sound in every event. -/
theorem Sound.step (h : desk.Sound) (event : Event κ π) : (desk.step event).Sound := by
  cases event with
  | acts action =>
    rw [Desk.step]
    by_cases hopen : desk.isOpen = true
    · rw [if_pos hopen]
      refine ⟨fun _ => (h.single hopen).act action,
        fun _ => (h.records hopen).act (h.single hopen) action, fun hclosed => ?_, ?_⟩
      · cases hopen.symm.trans hclosed
      · intro entry hentry
        rw [List.length_append]
        exact Nat.lt_add_right _ (h.taken_lt entry hentry)
    · rw [if_neg hopen]
      exact h
  | asks number => exact h.ask number
  | waits number =>
    rw [Desk.step]
    split
    · exact h.of_same rfl rfl rfl List.length_set fun _ => .inl
    · exact h
  | drops number => exact h.of_same rfl rfl rfl List.length_set fun _ => .inl
  | closes => exact ⟨nofun, nofun, fun _ => rfl, h.taken_lt⟩

/-- Resolving a key makes a promise, which the resolution keeps. -/
theorem Sound.exists_keepsPromise (h : desk.Sound) (hopen : desk.isOpen = true) (key : κ) :
    ∃ promise, desk.Promises (desk.step (.acts (.resolve key))) key promise ∧
      (desk.step (.acts (.resolve key))).KeepsPromise desk.handles.length promise := by
  cases hpeek : desk.cache.peek? key with
  | some payload =>
    obtain ⟨refs, hentry⟩ := Cache.peek?_eq_some_iff.mp hpeek
    have hresolution : (desk.cache.resolve key).1 = .settled (some (.loaded payload)) := by
      rw [Cache.resolve, hentry]
    refine ⟨.payload payload, .ready hpeek, h.keepsPromise_resolve hopen ?_⟩
    rw [hresolution]
    exact .payload payload
  | none =>
    have hsound := h.step (.acts (.resolve key))
    obtain ⟨number, ⟨load, hload, hkey, htold⟩, hresolution, hattends⟩ :=
      (h.single hopen).attends_resolve (h.records hopen) hpeek
    refine ⟨.load number, .loading hpeek ?_, h.keepsPromise_resolve hopen ?_⟩
    · rw [Desk.step, if_pos hopen] at hsound ⊢
      have hrecords := hsound.records hopen
      have hmem := hrecords.mem_outstanding (List.mem_of_getElem? hload) htold
      rw [hkey] at hmem
      refine ⟨hmem, ⟨load, hload, hkey, htold⟩, fun hother hother_key hother_told => ?_⟩
      exact hrecords.distinct hother hload (hother_key.trans hkey.symm) hother_told htold
    · rw [hresolution, Desk.step, if_pos hopen]
      exact .ticket hattends.told fun _ => hattends

/-- Whoever resolves a key whose load was not settled is promised the result of that load. -/
theorem Sound.keepsPromise_shared (h : desk.Sound) (hopen : desk.isOpen = true)
    (hnames : desk.Names key number)
    (htold : desk.loads[number]?.bind Load.told? = none) :
    (desk.step (.acts (.resolve key))).KeepsPromise desk.handles.length (.load number) := by
  obtain ⟨load, hload, rfl⟩ := hnames
  rw [hload, Option.bind_some] at htold
  obtain ⟨promise, hpromise, hkeeps⟩ := h.exists_keepsPromise hopen load.key
  cases hpromise with
  | ready ready =>
    have hmem := (h.records hopen).mem_outstanding (List.mem_of_getElem? hload) htold
    have hpending := ((h.single hopen).pending_iff load.key).mpr hmem
    rw [Cache.peek?_eq_none_iff.mpr (.inl hpending)] at ready
    cases ready
  | loading unready only =>
    have hresolve : Cache.Action.resolve load.key ≠ (.maintain : Cache.Action κ π) := nofun
    obtain ⟨load', hload', hkey, htold'⟩ :=
      desk.cache.continues_record desk.loads hresolve hload
    rw [htold] at htold'
    have hloads : (desk.step (.acts (.resolve load.key))).loads[number]? = some load' := by
      rw [Desk.step, if_pos hopen]
      exact hload'
    rw [only.unique hloads hkey htold']
    exact hkeeps

end Steps

/-! ## Runs -/

/-- A new desk is sound. -/
theorem sound_new (idleCapacity : Nat) (loader : Loader κ π) : (new idleCapacity loader).Sound where
  single _ := Cache.singleFlight_new idleCapacity loader
  records _ := ⟨.nil, by simp [new, Cache.new], by simp [new, Cache.new], nofun⟩
  closed := nofun
  taken_lt := nofun

section Runs

variable [TransOrd κ] [LawfulEqOrd κ] [DecidableEq κ]

/-- A desk stays sound in every run. -/
theorem Sound.run (h : desk.Sound) (events : List (Event κ π)) : (desk.run events).Sound :=
  List.foldlRecOn (motive := Sound) events Desk.step h fun _ hsound event _ => hsound.step event

/-- A promise stays kept in every run. -/
theorem KeepsPromise.run (h : desk.KeepsPromise number promise) (hsound : desk.Sound)
    (events : List (Event κ π)) : (desk.run events).KeepsPromise number promise :=
  (List.foldlRecOn (motive := fun desk : Desk κ π => desk.KeepsPromise number promise ∧ desk.Sound)
    events Desk.step
    ⟨h, hsound⟩ fun _ h event _ => ⟨h.1.step h.2 event, h.2.step event⟩).1

/-- Whatever happens before and after a key is resolved, the resolution brings the payload that was
ready then, or else the result of the one load of the key that is outstanding then, and brings it at
most once. So does every resolution of the key that is handed out before that load is settled. -/
theorem run_honors (idleCapacity : Nat) (loader : Loader κ π) (before : List (Event κ π)) (key : κ)
    (hopen : ((new idleCapacity loader).run before).isOpen = true) :
    let start := (new idleCapacity loader).run before
    let asked := start.step (.acts (.resolve key))
    ∃ promise, start.Promises asked key promise ∧
      (∀ rest, (asked.run rest).Honors start.handles.length promise) ∧
      ∀ rest, (asked.run rest).isOpen = true → (asked.run rest).outcome? promise = none →
        ∀ later, (((asked.run rest).step (.acts (.resolve key))).run later).Honors
          (asked.run rest).handles.length promise := by
  intro start asked
  have hstart : start.Sound := (sound_new idleCapacity loader).run before
  have hasked : asked.Sound := hstart.step _
  obtain ⟨promise, hpromise, hkeeps⟩ := hstart.exists_keepsPromise hopen key
  refine ⟨promise, hpromise, fun rest => (hkeeps.run hasked rest).honors (hasked.run rest), ?_⟩
  intro rest hrest hnone later
  have hsound := hasked.run rest
  cases hpromise with
  | ready ready => cases hnone
  | @loading number unready only =>
    obtain ⟨load, hload, hkey, -⟩ := only.exists_load
    have hnames : (asked.run rest).Names key number := Names.run ⟨load, hload, hkey⟩ rest
    -- The load has not settled, so whoever asks now is given the promise of the first one.
    have htold : (asked.run rest).loads[number]?.bind Load.told? = none := by
      cases hbind : (asked.run rest).loads[number]?.bind Load.told? with
      | none => rfl
      | some outcome =>
        rw [outcome?, hbind] at hnone
        cases hnone
    have hshared := hsound.keepsPromise_shared hrest hnames htold
    exact (hshared.run (hsound.step _) later).honors ((hsound.step _).run later)

/-- A zone was not found, and its reader has learned it. -/
def secondTry : List (Event CacheKey String) :=
  [.acts (.resolve (.zone 1)), .acts (.report (.zone 1) (.failed (.notFound "zone:1"))),
    .acts .maintain, .asks 0]

/-- The failed load was settled, and the next reader is promised the result of the second one. -/
theorem secondTry_honors :
    let start := (new 0 .manual).run secondTry
    let asked := start.step (.acts (.resolve (.zone 1)))
    start.taken = [(0, .failed (.notFound "zone:1"))] ∧ start.isOpen = true ∧
      ∃ promise, start.Promises asked (.zone 1) promise ∧
        (∀ rest, (asked.run rest).Honors start.handles.length promise) ∧
        ∀ rest, (asked.run rest).isOpen = true → (asked.run rest).outcome? promise = none →
          ∀ later, (((asked.run rest).step (.acts (.resolve (.zone 1)))).run later).Honors
            (asked.run rest).handles.length promise :=
  ⟨by decide +kernel, by decide +kernel,
    run_honors 0 .manual secondTry (.zone 1) (by decide +kernel)⟩

end Runs

end Desk

end SharedWorld
