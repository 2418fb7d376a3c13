import SharedWorld.Proofs.Loads

/-!
# Those who wait for a load

A cache forgets a load with its outcome, and the entry that the load was started for may be gone,
or loaded again, by the time somebody asks for the outcome. So all loads are recorded from their
start on (`Cache.record`), by what happens to the cache and not by what it keeps. A ticket belongs
to one recorded load for good: it is listed under its key until the load is settled, and then it is
delivered the outcome (`Cache.Attends`).
-/

namespace SharedWorld

open Std

/-! ## The record of all loads -/

/-- How far a load has come. -/
inductive LoadStage (π : Type) where
  | underWay
  /-- The outcome has arrived and waits to be settled. -/
  | arrived (outcome : LoadOutcome π)
  /-- Everyone who waited was told the outcome. -/
  | settled (outcome : LoadOutcome π)
  deriving DecidableEq, Repr

/-- A load, from its start on. -/
structure Load (κ π : Type) where
  key : κ
  stage : LoadStage π
  deriving DecidableEq, Repr

namespace Load

variable {κ π : Type}

/-- The outcome that those who waited for the load were told. -/
def told? (load : Load κ π) : Option (LoadOutcome π) :=
  match load.stage with
  | .settled outcome => some outcome
  | _ => none

/-- The load after a load of `key` has ended. -/
def finish [DecidableEq κ] (key : κ) (outcome : LoadOutcome π) (load : Load κ π) : Load κ π :=
  match load.stage with
  | .underWay => if load.key = key then { load with stage := .arrived outcome } else load
  | _ => load

/-- The load after all outcomes that have arrived were settled. -/
def settle (load : Load κ π) : Load κ π :=
  match load.stage with
  | .arrived outcome => { load with stage := .settled outcome }
  | _ => load

end Load

namespace Cache

variable {κ π : Type} [Ord κ] [DecidableEq κ]

/-- The record of all loads after an action. -/
def record (cache : Cache κ π) (loads : List (Load κ π)) : Action κ π → List (Load κ π)
  | .resolve key =>
    if cache.lacks key then
      (cache.loader.reports (cache.started ++ [key])).foldl
        (fun loads report => loads.map (Load.finish report.1 report.2))
        (loads ++ [⟨key, .underWay⟩])
    else loads
  | .report key outcome => loads.map (Load.finish key outcome)
  | .abandon key => loads.map (Load.finish key (.failed .abandoned))
  | .maintain => loads.map Load.settle
  | _ => loads

end Cache

/-! ## The record agrees with the cache -/

namespace Load

variable {κ π : Type}

/-- A load that finishes is still that of its key. -/
@[simp]
theorem finish_key [DecidableEq κ] (key : κ) (outcome : LoadOutcome π) (load : Load κ π) :
    (load.finish key outcome).key = load.key := by
  unfold finish
  split
  · split <;> rfl
  · rfl

/-- A load that finishes has not told anybody yet. -/
@[simp]
theorem told?_finish [DecidableEq κ] (key : κ) (outcome : LoadOutcome π) (load : Load κ π) :
    (load.finish key outcome).told? = load.told? := by
  obtain ⟨name, stage⟩ := load
  cases stage with
  | underWay =>
    simp only [finish]
    split <;> rfl
  | arrived outcome => rfl
  | settled outcome => rfl

/-- A load that is settled is still that of its key. -/
@[simp]
theorem settle_key (load : Load κ π) : load.settle.key = load.key := by
  unfold settle
  split <;> rfl

/-- What is under way after a load has finished was under way, and is of another key. -/
theorem finish_eq_underWay_iff [DecidableEq κ] {key name : κ} {outcome : LoadOutcome π}
    {load : Load κ π} :
    load.finish key outcome = ⟨name, .underWay⟩ ↔ load = ⟨name, .underWay⟩ ∧ name ≠ key := by
  obtain ⟨other, stage⟩ := load
  cases stage with
  | underWay =>
    simp only [finish]
    split <;> grind
  | arrived outcome => simp [finish]
  | settled outcome => simp [finish]

/-- What has arrived after a load has finished had arrived, or is the outcome of that load. -/
theorem finish_eq_arrived_iff [DecidableEq κ] {key name : κ} {outcome result : LoadOutcome π}
    {load : Load κ π} :
    load.finish key outcome = ⟨name, .arrived result⟩ ↔ load = ⟨name, .arrived result⟩ ∨
      load = ⟨key, .underWay⟩ ∧ name = key ∧ result = outcome := by
  obtain ⟨other, stage⟩ := load
  cases stage with
  | underWay =>
    simp only [finish]
    split <;> grind
  | arrived outcome => simp [finish]
  | settled outcome => simp [finish]

/-- Settling leaves the loads under way alone. -/
theorem settle_eq_underWay_iff {name : κ} {load : Load κ π} :
    load.settle = ⟨name, .underWay⟩ ↔ load = ⟨name, .underWay⟩ := by
  obtain ⟨other, stage⟩ := load
  cases stage <;> simp [settle]

/-- No load that is settled has merely arrived. -/
theorem settle_ne_arrived {name : κ} {outcome : LoadOutcome π} {load : Load κ π} :
    load.settle ≠ ⟨name, .arrived outcome⟩ := by
  obtain ⟨other, stage⟩ := load
  cases stage <;> simp [settle]

/-- A load that has not told anything once settled had not told anything before. -/
theorem told?_of_settle {load : Load κ π} (h : load.settle.told? = none) : load.told? = none := by
  obtain ⟨name, stage⟩ := load
  cases stage <;> simp_all [settle, told?]

/-- What a load has told is told for good. -/
theorem told?_settle {outcome : LoadOutcome π} {load : Load κ π}
    (h : load.told? = some outcome) : load.settle.told? = some outcome := by
  obtain ⟨name, stage⟩ := load
  cases stage with
  | underWay => cases h
  | arrived outcome => cases h
  | settled outcome => exact h

/-- No two loads of one key are outstanding. -/
def Distinct (loads : List (Load κ π)) : Prop :=
  ∀ ⦃i j : Nat⦄ ⦃load load' : Load κ π⦄, loads[i]? = some load → loads[j]? = some load' →
    load.key = load'.key → load.told? = none → load'.told? = none → i = j

/-- Loads of one key stay apart when each is changed by itself. -/
theorem Distinct.map {loads : List (Load κ π)} (h : Distinct loads) {change : Load κ π → Load κ π}
    (hkey : ∀ load, (change load).key = load.key)
    (htold : ∀ load, (change load).told? = none → load.told? = none) :
    Distinct (loads.map change) := by
  intro i j load load' hload hload' hsame hopen hopen'
  rw [List.getElem?_map, Option.map_eq_some_iff] at hload hload'
  obtain ⟨old, hold, rfl⟩ := hload
  obtain ⟨old', hold', rfl⟩ := hload'
  rw [hkey, hkey] at hsame
  exact h hold hold' hsame (htold old hopen) (htold old' hopen')

end Load

namespace Cache

variable {κ π : Type} [Ord κ] {cache after : Cache κ π} {loads : List (Load κ π)} {key : κ}

/-- The record lists the outstanding loads as the cache has them, one for a key. -/
structure Records (cache : Cache κ π) (loads : List (Load κ π)) : Prop where
  nodup : cache.loading.Nodup
  underWay_iff : ∀ {key}, ⟨key, .underWay⟩ ∈ loads ↔ key ∈ cache.loading
  arrived_iff : ∀ {key outcome}, ⟨key, .arrived outcome⟩ ∈ loads ↔ (key, outcome) ∈ cache.arrived
  distinct : Load.Distinct loads

/-- The records of the loads stay right while the loads stay the same. -/
theorem Records.of_sameLoads (h : cache.Records loads) (same : cache.SameLoads after) :
    after.Records loads where
  nodup := by
    rw [same.loading]
    exact h.nodup
  underWay_iff := by
    rw [same.loading]
    exact h.underWay_iff
  arrived_iff := by
    rw [same.arrived]
    exact h.arrived_iff
  distinct := h.distinct

/-- A load that was not settled is outstanding. -/
theorem Records.mem_outstanding (h : cache.Records loads) {load : Load κ π} (hmem : load ∈ loads)
    (htold : load.told? = none) : load.key ∈ cache.outstanding := by
  obtain ⟨name, stage⟩ := load
  cases stage with
  | underWay => exact List.mem_append_left _ (h.underWay_iff.mp hmem)
  | arrived outcome =>
    exact List.mem_append_right _ (List.mem_map_of_mem (h.arrived_iff.mp hmem))
  | settled outcome => cases htold

/-- A load that is outstanding was not settled. -/
theorem Records.exists_load (h : cache.Records loads) (hmem : key ∈ cache.outstanding) :
    ∃ (number : Nat) (load : Load κ π), loads[number]? = some load ∧ load.key = key ∧
      load.told? = none := by
  rcases List.mem_append.mp hmem with hloading | harrived
  · obtain ⟨number, hload⟩ := List.mem_iff_getElem?.mp (h.underWay_iff.mpr hloading)
    exact ⟨number, _, hload, rfl, rfl⟩
  · obtain ⟨⟨_, outcome⟩, harrival, rfl⟩ := List.mem_map.mp harrived
    obtain ⟨number, hload⟩ := List.mem_iff_getElem?.mp (h.arrived_iff.mpr harrival)
    exact ⟨number, _, hload, rfl, rfl⟩

/-- A load is still outstanding after all outcomes that arrived were settled exactly if its own was
not among them. -/
theorem Records.told?_settle_eq_none_iff (h : cache.Records loads) (hsingle : cache.SingleFlight)
    {load : Load κ π} (hmem : load ∈ loads) : load.settle.told? = none ↔
      load.told? = none ∧ load.key ∉ cache.arrived.map (·.1) := by
  obtain ⟨name, stage⟩ := load
  cases stage with
  | underWay =>
    have hloading := h.underWay_iff.mp hmem
    exact iff_of_true rfl ⟨rfl, (List.nodup_append'.mp hsingle.nodup).2.2 hloading⟩
  | arrived outcome =>
    have harrived := List.mem_map_of_mem (f := Prod.fst) (h.arrived_iff.mp hmem)
    exact iff_of_false nofun fun hnot => hnot.2 harrived
  | settled outcome => exact iff_of_false nofun nofun

section

variable [DecidableEq κ]

/-- The records of the loads stay right when an outcome is reported. -/
theorem Records.report (h : cache.Records loads) (key : κ) (outcome : LoadOutcome π) :
    (cache.report key outcome).2.Records (loads.map (Load.finish key outcome)) := by
  have hunderWay : ∀ {name : κ}, ⟨name, .underWay⟩ ∈ loads.map (Load.finish key outcome) ↔
      name ∈ cache.loading ∧ name ≠ key := by
    intro name
    simp [List.mem_map, Load.finish_eq_underWay_iff, h.underWay_iff]
  have harrived : ∀ {name : κ} {result : LoadOutcome π},
      ⟨name, .arrived result⟩ ∈ loads.map (Load.finish key outcome) ↔
        (name, result) ∈ cache.arrived ∨ key ∈ cache.loading ∧ name = key ∧ result = outcome := by
    intro name result
    simp only [List.mem_map, Load.finish_eq_arrived_iff, ← h.arrived_iff, ← h.underWay_iff]
    constructor
    · rintro ⟨load, hmem, rfl | ⟨rfl, hname, hresult⟩⟩
      · exact .inl hmem
      · exact .inr ⟨hmem, hname, hresult⟩
    · rintro (hmem | ⟨hmem, hname, hresult⟩)
      · exact ⟨_, hmem, .inl rfl⟩
      · exact ⟨_, hmem, .inr ⟨rfl, hname, hresult⟩⟩
  have hdistinct : Load.Distinct (loads.map (Load.finish key outcome)) :=
    h.distinct.map (Load.finish_key key outcome) fun load htold => by
      rwa [load.told?_finish] at htold
  unfold Cache.report
  by_cases hmem : key ∈ cache.loading
  · rw [if_pos hmem]
    refine ⟨h.nodup.erase key, ?_, ?_, hdistinct⟩
    · intro name
      rw [hunderWay, h.nodup.mem_erase_iff, and_comm]
    · intro name result
      rw [harrived, List.mem_append, List.mem_singleton, Prod.mk.injEq]
      simp [hmem]
  · rw [if_neg hmem]
    refine ⟨h.nodup, ?_, ?_, hdistinct⟩
    · intro name
      rw [hunderWay]
      exact ⟨And.left, fun hloading => ⟨hloading, ne_of_mem_of_not_mem hloading hmem⟩⟩
    · intro name result
      rw [harrived]
      simp [hmem]

/-- The records of the loads stay right when outcomes are reported. -/
theorem Records.foldl_report (h : cache.Records loads) (reports : List (κ × LoadOutcome π)) :
    (reports.foldl (fun cache report => (cache.report report.1 report.2).2) cache).Records
      (reports.foldl (fun loads report => loads.map (Load.finish report.1 report.2)) loads) := by
  induction reports generalizing cache loads with
  | nil => exact h
  | cons report rest ih => exact ih (h.report report.1 report.2)

variable [TransOrd κ]

/-- A load that is started is recorded. -/
theorem Records.startLoad (h : cache.Records loads) (hnew : key ∉ cache.outstanding) (refs : Nat) :
    (cache.startLoad key refs).Records
      ((cache.loader.reports (cache.started ++ [key])).foldl
        (fun loads report => loads.map (Load.finish report.1 report.2))
        (loads ++ [⟨key, .underWay⟩])) := by
  have hold : ∀ {i : Nat} {load : Load κ π}, (loads ++ [⟨key, .underWay⟩])[i]? = some load →
      loads[i]? = some load ∨ i = loads.length ∧ load = ⟨key, .underWay⟩ := by
    intro i load hload
    rw [List.getElem?_append] at hload
    grind
  have hother : ∀ {i : Nat} {load : Load κ π}, loads[i]? = some load → load.told? = none →
      load.key ≠ key := by
    intro i load hload htold
    exact ne_of_mem_of_not_mem (h.mem_outstanding (List.mem_of_getElem? hload) htold) hnew
  refine Records.foldl_report ⟨?_, ?_, ?_, ?_⟩ _
  · have hmem : key ∉ cache.loading := fun hmem => hnew (List.mem_append_left _ hmem)
    change (cache.loading ++ [key]).Nodup
    rw [← List.concat_eq_append]
    exact h.nodup.concat hmem
  · intro name
    simp [h.underWay_iff]
  · intro name outcome
    simp [h.arrived_iff]
  · intro i j load load' hload hload' hkey htold htold'
    rcases hold hload with hload | ⟨rfl, rfl⟩
    · rcases hold hload' with hload' | ⟨rfl, rfl⟩
      · exact h.distinct hload hload' hkey htold htold'
      · exact absurd hkey (hother hload htold)
    · rcases hold hload' with hload' | ⟨rfl, rfl⟩
      · exact absurd hkey.symm (hother hload' htold')
      · rfl

/-- Settled loads are not outstanding any more. -/
theorem Records.maintain (h : cache.Records loads) :
    cache.maintain.2.Records (loads.map Load.settle) := by
  have hsame := settleAll_sameLoads { cache with arrived := [] } cache.arrived
  refine Records.of_sameLoads ?_ hsame
  refine ⟨h.nodup, ?_, ?_, h.distinct.map Load.settle_key fun _ => Load.told?_of_settle⟩
  · intro name
    simp [List.mem_map, Load.settle_eq_underWay_iff, h.underWay_iff]
  · intro name outcome
    simp [List.mem_map, Load.settle_ne_arrived]

end

end Cache

/-! ## Tickets -/

namespace Load

variable {κ π : Type}

/-- Recorded loads keep their places and their keys, and nobody was told an outcome. -/
def Continues (before after : List (Load κ π)) : Prop :=
  ∀ ⦃number : Nat⦄ ⦃load : Load κ π⦄, before[number]? = some load →
    ∃ load', after[number]? = some load' ∧ load'.key = load.key ∧ load'.told? = load.told?

/-- Records continue themselves. -/
theorem Continues.refl (loads : List (Load κ π)) : Continues loads loads :=
  fun _ load hload => ⟨load, hload, rfl, rfl⟩

/-- Records are continued step by step. -/
theorem Continues.trans {before middle after : List (Load κ π)} (first : Continues before middle)
    (rest : Continues middle after) : Continues before after := by
  intro number load hload
  obtain ⟨middle, hmiddle, hkey, htold⟩ := first hload
  obtain ⟨load', hload', hkey', htold'⟩ := rest hmiddle
  exact ⟨load', hload', hkey'.trans hkey, htold'.trans htold⟩

/-- Records are continued when a load finishes. -/
theorem continues_finish [DecidableEq κ] (loads : List (Load κ π)) (key : κ)
    (outcome : LoadOutcome π) : Continues loads (loads.map (Load.finish key outcome)) := by
  intro number load hload
  exact ⟨load.finish key outcome, by rw [List.getElem?_map, hload, Option.map_some],
    load.finish_key key outcome, load.told?_finish key outcome⟩

/-- Records are continued when loads are started. -/
theorem continues_append (loads new : List (Load κ π)) : Continues loads (loads ++ new) := by
  intro number load hload
  have hlt := (List.getElem?_eq_some_iff.mp hload).1
  exact ⟨load, by rw [List.getElem?_append_left hlt, hload], rfl, rfl⟩

end Load

namespace Cache

variable {κ π : Type} [Ord κ] {cache after : Cache κ π} {loads loads' : List (Load κ π)} {key : κ}
  {ticket : Ticket} {number : Nat}

/-- Outcomes are told to nobody but by settling them. -/
theorem continues_record [DecidableEq κ] (cache : Cache κ π) (loads : List (Load κ π))
    {action : Action κ π} (h : action ≠ .maintain) :
    Load.Continues loads (cache.record loads action) := by
  cases action with
  | resolve key =>
    rw [record]
    split
    · refine (Load.continues_append loads [⟨key, .underWay⟩]).trans ?_
      generalize loads ++ [⟨key, .underWay⟩] = loads
      induction cache.loader.reports (cache.started ++ [key]) generalizing loads with
      | nil => exact .refl loads
      | cons report rest ih => exact (Load.continues_finish loads report.1 report.2).trans (ih _)
    · exact .refl loads
  | report key outcome => exact Load.continues_finish loads key outcome
  | abandon key => exact Load.continues_finish loads key _
  | maintain => exact absurd rfl h
  | _ => exact .refl loads

/-- What was told of a load stays. -/
theorem told?_record [DecidableEq κ] (cache : Cache κ π) {loads : List (Load κ π)}
    (action : Action κ π) {number : Nat} {outcome : LoadOutcome π}
    (h : loads[number]?.bind Load.told? = some outcome) :
    (cache.record loads action)[number]?.bind Load.told? = some outcome := by
  obtain ⟨load, hload, htold⟩ := Option.bind_eq_some_iff.mp h
  by_cases hmaintain : action = .maintain
  · subst hmaintain
    rw [record, List.getElem?_map, hload, Option.map_some, Option.bind_some,
      Load.told?_settle htold]
  · obtain ⟨load', hload', -, htold'⟩ := cache.continues_record loads hmaintain hload
    rw [hload', Option.bind_some, htold', htold]

/-- Loads keep their places and their keys. -/
theorem exists_record [DecidableEq κ] (cache : Cache κ π) {loads : List (Load κ π)}
    (action : Action κ π) {number : Nat} {load : Load κ π} (h : loads[number]? = some load) :
    ∃ load', (cache.record loads action)[number]? = some load' ∧ load'.key = load.key := by
  by_cases hmaintain : action = .maintain
  · subst hmaintain
    exact ⟨load.settle, by rw [record, List.getElem?_map, h, Option.map_some], load.settle_key⟩
  · obtain ⟨load', hload', hkey, -⟩ := cache.continues_record loads hmaintain h
    exact ⟨load', hload', hkey⟩

/-- The holder of a ticket learns what comes of the load of `key` with the given number: it is
listed under the key until the load is settled, and then it has been delivered the outcome. -/
structure Attends (cache : Cache κ π) (loads : List (Load κ π)) (key : κ) (ticket : Ticket)
    (number : Nat) : Prop where
  exists_load : ∃ load, loads[number]? = some load ∧ load.key = key
  issued : ticket < cache.nextTicket
  told : cache.delivered.get? ticket = loads[number]?.bind Load.told?
  lists_iff : ∀ {other}, cache.Lists other ticket ↔
    other = key ∧ loads[number]?.bind Load.told? = none

/-- What delivers nothing and lists nobody else leaves the holder of a ticket alone. -/
theorem Attends.of_continues (h : cache.Attends loads key ticket number)
    (continues : Load.Continues loads loads') (hnext : cache.nextTicket ≤ after.nextTicket)
    (hdelivered : after.delivered = cache.delivered)
    (hlists : ∀ other, after.Lists other ticket ↔ cache.Lists other ticket) :
    after.Attends loads' key ticket number := by
  obtain ⟨load, hload, hkey⟩ := h.exists_load
  obtain ⟨load', hload', hkey', htold'⟩ := continues hload
  have htold : loads'[number]?.bind Load.told? = loads[number]?.bind Load.told? := by
    rw [hload, hload', Option.bind_some, Option.bind_some, htold']
  refine ⟨⟨load', hload', hkey'.trans hkey⟩, Nat.lt_of_lt_of_le h.issued hnext, ?_, ?_⟩
  · rw [hdelivered, htold]
    exact h.told
  · intro other
    rw [hlists, htold]
    exact h.lists_iff

/-- A key lists the same tickets while it has the same waiters. -/
theorem lists_congr (h : after.waiters? key = cache.waiters? key) :
    after.Lists key ticket ↔ cache.Lists key ticket := by
  rw [lists_iff_exists, lists_iff_exists, h]

/-- A ticket attends to its load while those who wait are spared. -/
theorem Attends.of_spares (h : cache.Attends loads key ticket number)
    (spares : cache.Spares after) : after.Attends loads key ticket number :=
  h.of_continues (.refl loads) (Nat.le_of_eq spares.loads.nextTicket.symm) spares.delivered
    fun other => lists_congr (spares.waiters other)

section

variable [DecidableEq κ]

/-- A ticket attends to its load when an outcome is reported. -/
theorem Attends.report (h : cache.Attends loads key ticket number) (name : κ)
    (outcome : LoadOutcome π) :
    (cache.report name outcome).2.Attends (loads.map (Load.finish name outcome)) key ticket
      number := by
  have hreaders := (cache.report_reports name outcome).readers
  exact h.of_continues (Load.continues_finish loads name outcome)
    (Nat.le_of_eq hreaders.nextTicket.symm) hreaders.delivered
    fun other => lists_congr (hreaders.waiters? other)

variable [TransOrd κ]

/-- Resolving a key takes no ticket back. -/
theorem ResolveOutcome.nextTicket_le {resolution : Resolution κ π} {name : κ}
    (outcome : ResolveOutcome cache name resolution after) :
    cache.nextTicket ≤ after.nextTicket := by
  cases outcome with
  | reads ready => exact Nat.le_of_eq (cache.promote_spares name).loads.nextTicket.symm
  | joins pending => exact Nat.le_succ _
  | loads lacking =>
    rw [(cache.startLoad_starts name (cache.refs name)).readers.nextTicket]
    exact Nat.le_succ _

/-- Resolving a key delivers nothing. -/
theorem ResolveOutcome.delivered_eq {resolution : Resolution κ π} {name : κ}
    (outcome : ResolveOutcome cache name resolution after) : after.delivered = cache.delivered := by
  cases outcome with
  | reads ready => exact (cache.promote_spares name).delivered
  | joins pending => rfl
  | loads lacking => exact (cache.startLoad_starts name (cache.refs name)).readers.delivered

/-- A load is recorded exactly if one is started. -/
theorem ResolveOutcome.records {resolution : Resolution κ π} {name : κ}
    (outcome : ResolveOutcome cache name resolution after) (h : cache.Records loads)
    (hsingle : cache.SingleFlight) : after.Records (cache.record loads (.resolve name)) := by
  rw [record]
  cases outcome with
  | reads ready =>
    have hlacks : ¬ cache.lacks name = true := fun hlacks => by
      rw [peek?_eq_none_iff.mpr (.inr hlacks)] at ready
      cases ready
    rw [if_neg hlacks]
    exact h.of_sameLoads (cache.promote_spares name).loads
  | joins pending =>
    have hlacks : cache.lacks name = false := by rw [lacks, pending]
    rw [hlacks]
    exact ⟨h.nodup, h.underWay_iff, h.arrived_iff, h.distinct⟩
  | loads lacking =>
    rw [if_pos lacking]
    exact h.startLoad (hsingle.not_mem_outstanding lacking) (cache.refs name)

variable [LawfulEqOrd κ]

/-- Resolving a key lists nobody but the holder of the new ticket. -/
theorem ResolveOutcome.lists_iff {resolution : Resolution κ π} {name : κ}
    (outcome : ResolveOutcome cache name resolution after) (hissued : ticket < cache.nextTicket)
    (other : κ) : after.Lists other ticket ↔ cache.Lists other ticket := by
  have hne : ticket ≠ cache.nextTicket := Nat.ne_of_lt hissued
  cases outcome with
  | reads ready => exact lists_congr ((cache.promote_spares name).waiters other)
  | @joins waiters refs pending =>
    have hold : cache.waiters? name = some waiters := waiters?_eq_some_iff.mpr ⟨refs, pending⟩
    rw [lists_iff_exists, lists_iff_exists, waiters?_of_insert rfl]
    by_cases heq : other = name
    · rw [if_pos heq]
      simp [heq, hold, EntryState.waiters?, hne]
    · rw [if_neg heq]
  | loads lacking =>
    have hold : cache.waiters? name = none := waiters?_eq_none_of_lacks lacking
    rw [lists_iff_exists, lists_iff_exists, waiters?_startLoad]
    by_cases heq : other = name
    · rw [if_pos heq]
      simp [heq, hold, hne]
    · rw [if_neg heq]

/-- A key that is not ready is resolved by a new ticket, which is listed under the key. -/
theorem ResolveOutcome.unready {resolution : Resolution κ π} {name : κ}
    (outcome : ResolveOutcome cache name resolution after) (h : cache.Sound fun _ _ => True)
    (hpeek : cache.peek? name = none) :
    resolution = .waiting name cache.nextTicket ∧ cache.nextTicket < after.nextTicket ∧
      ∀ other, after.Lists other cache.nextTicket ↔ other = name := by
  have hfresh : ∀ other, ¬ cache.Lists other cache.nextTicket :=
    fun other hlists => Nat.lt_irrefl _ (h.listed_lt hlists)
  cases outcome with
  | reads ready => cases ready.symm.trans hpeek
  | joins pending =>
    refine ⟨rfl, Nat.lt_succ_self _, fun other => ?_⟩
    rw [lists_iff_exists, waiters?_of_insert rfl]
    by_cases heq : other = name
    · rw [if_pos heq]
      simp [heq, EntryState.waiters?]
    · rw [if_neg heq, ← lists_iff_exists]
      exact iff_of_false (hfresh other) heq
  | loads lacking =>
    have hnext := (cache.startLoad_starts name (cache.refs name)).readers.nextTicket
    refine ⟨rfl, Nat.lt_of_lt_of_eq (Nat.lt_succ_self _) hnext.symm, fun other => ?_⟩
    rw [lists_iff_exists, waiters?_startLoad]
    by_cases heq : other = name
    · rw [if_pos heq]
      simp [heq]
    · rw [if_neg heq, ← lists_iff_exists]
      exact iff_of_false (hfresh other) heq

/-- Settling a key takes its tickets off the list, and no others. -/
theorem Sound.lists_settle {Fits : κ → π → Prop} (h : cache.Sound Fits) (name : κ)
    (outcome : LoadOutcome π) (other : κ) :
    (cache.settle name outcome).Lists other ticket ↔ other ≠ name ∧ cache.Lists other ticket := by
  rw [lists_iff_exists, lists_iff_exists, h.waiters?_settle]
  split <;> simp [*]

/-- Settling what has arrived takes the tickets of these keys off the list, and no others. -/
theorem Sound.lists_settleAll (h : cache.Sound fun _ _ => True)
    (arrivals : List (κ × LoadOutcome π)) (other : κ) :
    (cache.settleAll arrivals).Lists other ticket ↔
      other ∉ arrivals.map (·.1) ∧ cache.Lists other ticket := by
  rw [lists_iff_exists, lists_iff_exists, h.waiters?_settleAll]
  split <;> simp [*]

/-- Settling outcomes of other keys delivers nothing to the holder of a ticket. -/
theorem Sound.get?_delivered_of_not_lists (h : cache.Sound fun _ _ => True)
    {arrivals : List (κ × LoadOutcome π)}
    (hnot : ∀ name ∈ arrivals.map (·.1), ¬ cache.Lists name ticket) :
    (cache.settleAll arrivals).delivered.get? ticket = cache.delivered.get? ticket := by
  induction arrivals generalizing cache with
  | nil => rfl
  | cons arrival rest ih =>
    have hfirst : ticket ∉ (cache.waiters? arrival.1).getD [] := by
      intro hmem
      refine hnot arrival.1 List.mem_cons_self (lists_iff_exists.mpr ?_)
      cases hwaiters : cache.waiters? arrival.1 with
      | none => simp [hwaiters] at hmem
      | some waiters => exact ⟨waiters, rfl, by simpa [hwaiters] using hmem⟩
    refine (ih (h.settle fun _ _ => trivial).1 fun name hname hlists => ?_).trans ?_
    · exact hnot name (List.mem_cons_of_mem _ hname) ((h.lists_settle _ _ name).mp hlists).2
    · rw [get?_delivered_settle, if_neg hfirst]

/-- Settling the outcome of a key delivers it to the holder of a ticket that is listed under that
key only. -/
theorem Sound.get?_delivered_of_lists (h : cache.Sound fun _ _ => True)
    {arrivals : List (κ × LoadOutcome π)} {outcome : LoadOutcome π}
    (hmem : (key, outcome) ∈ arrivals) (hnodup : (arrivals.map (·.1)).Nodup)
    (hlists : ∀ other, cache.Lists other ticket ↔ other = key) :
    (cache.settleAll arrivals).delivered.get? ticket = some outcome := by
  induction arrivals generalizing cache with
  | nil => cases hmem
  | cons arrival rest ih =>
    have hsound : (cache.settle arrival.1 arrival.2).Sound fun _ _ => True :=
      (h.settle fun _ _ => trivial).1
    obtain ⟨hfresh, hnodup⟩ := List.nodup_cons.mp hnodup
    rcases List.mem_cons.mp hmem with rfl | hmem
    · have hnobody : ∀ other, ¬ (cache.settle key outcome).Lists other ticket := by
        intro other hother
        obtain ⟨hne, hother⟩ := (h.lists_settle _ _ other).mp hother
        exact hne ((hlists other).mp hother)
      refine (hsound.get?_delivered_of_not_lists fun name _ => hnobody name).trans ?_
      obtain ⟨waiters, hwaiters, hticket⟩ := lists_iff_exists.mp ((hlists key).mpr rfl)
      rw [get?_delivered_settle, hwaiters, Option.getD_some, if_pos hticket]
    · have hne : key ≠ arrival.1 := by
        intro heq
        exact hfresh (List.mem_map.mpr ⟨(key, outcome), hmem, heq⟩)
      refine ih hsound hmem hnodup fun other => ?_
      rw [h.lists_settle, hlists]
      refine ⟨And.right, ?_⟩
      rintro rfl
      exact ⟨hne, rfl⟩

/-- Settling what arrived delivers the outcome of its load to the holder of a ticket. -/
theorem Attends.get?_delivered_maintain (h : cache.Attends loads key ticket number)
    (hrecords : cache.Records loads) (hsingle : cache.SingleFlight) {load : Load κ π}
    (hload : loads[number]? = some load) (hkey : load.key = key) :
    cache.maintain.2.delivered.get? ticket = load.settle.told? := by
  have hempty := hsingle.withoutArrived
  have hkept : (∀ name ∈ cache.arrived.map (·.1), ¬ cache.Lists name ticket) →
      cache.maintain.2.delivered.get? ticket = cache.delivered.get? ticket :=
    hempty.get?_delivered_of_not_lists
  have hmem := List.mem_of_getElem? hload
  have htold := h.told
  have hlists : ∀ {other}, cache.Lists other ticket ↔ other = key ∧ load.told? = none := by
    intro other
    rw [h.lists_iff, hload, Option.bind_some]
  rw [hload, Option.bind_some] at htold
  subst hkey
  obtain ⟨name, stage⟩ := load
  cases stage with
  | underWay =>
    have hfresh := ((hrecords.told?_settle_eq_none_iff hsingle hmem).mp rfl).2
    refine (hkept fun other hother hlist => hfresh ?_).trans htold
    rw [← (hlists.mp hlist).1]
    exact hother
  | arrived outcome =>
    have hnodup := (List.nodup_append'.mp hsingle.nodup).2.1
    refine hempty.get?_delivered_of_lists (hrecords.arrived_iff.mp hmem) hnodup fun other => ?_
    exact hlists.trans (and_iff_left rfl)
  | settled outcome =>
    exact (hkept fun other _ hlist => nomatch (hlists.mp hlist).2).trans htold

/-- Settling what arrived tells the holder of a ticket the outcome of its load, if that is there. -/
theorem Attends.maintain (h : cache.Attends loads key ticket number)
    (hrecords : cache.Records loads) (hsingle : cache.SingleFlight) :
    cache.maintain.2.Attends (loads.map Load.settle) key ticket number := by
  have hnext : cache.maintain.2.nextTicket = cache.nextTicket :=
    (settleAll_sameLoads { cache with arrived := [] } cache.arrived).nextTicket
  have hlists : ∀ other, cache.maintain.2.Lists other ticket ↔
      other ∉ cache.arrived.map (·.1) ∧ cache.Lists other ticket :=
    hsingle.withoutArrived.lists_settleAll cache.arrived
  obtain ⟨load, hload, hkey⟩ := h.exists_load
  have hsettled : (loads.map Load.settle)[number]? = some load.settle := by
    rw [List.getElem?_map, hload, Option.map_some]
  have hissued := h.issued
  rw [← hnext] at hissued
  refine ⟨⟨_, hsettled, load.settle_key.trans hkey⟩, hissued, ?_, fun {other} => ?_⟩
  · rw [hsettled, Option.bind_some]
    exact h.get?_delivered_maintain hrecords hsingle hload hkey
  · rw [hlists, h.lists_iff, hload, hsettled, Option.bind_some, Option.bind_some,
      hrecords.told?_settle_eq_none_iff hsingle (List.mem_of_getElem? hload), hkey]
    constructor
    · rintro ⟨hfresh, rfl, htold⟩
      exact ⟨rfl, htold, hfresh⟩
    · rintro ⟨rfl, htold, hfresh⟩
      exact ⟨hfresh, rfl, htold⟩

/-- Whatever happens to a cache, the holder of a ticket learns what comes of its load. -/
theorem Attends.act (h : cache.Attends loads key ticket number) (hrecords : cache.Records loads)
    (hsingle : cache.SingleFlight) (action : Action κ π) :
    (cache.act action).Attends (cache.record loads action) key ticket number := by
  cases action with
  | resolve name =>
    have houtcome := cache.resolve_outcome name
    exact h.of_continues (cache.continues_record loads nofun) houtcome.nextTicket_le
      houtcome.delivered_eq (houtcome.lists_iff h.issued)
  | retain name => exact h.of_spares (cache.retain_spares name)
  | release name => exact h.of_spares (hsingle.sound.release_spares name)
  | report name outcome => exact h.report name outcome
  | abandon name => exact h.report name _
  | maintain => exact h.maintain hrecords hsingle

/-- The record agrees with the cache after every action. -/
theorem Records.act (h : cache.Records loads) (hsingle : cache.SingleFlight)
    (action : Action κ π) : (cache.act action).Records (cache.record loads action) := by
  cases action with
  | resolve name => exact (cache.resolve_outcome name).records h hsingle
  | retain name => exact h.of_sameLoads (cache.retain_spares name).loads
  | release name => exact h.of_sameLoads (hsingle.sound.release_spares name).loads
  | report name outcome => exact h.report name outcome
  | abandon name => exact h.report name _
  | maintain => exact h.maintain

/-- Whoever resolves a key that is not ready attends the one outstanding load of the key. -/
theorem SingleFlight.attends_resolve (h : cache.SingleFlight) (hrecords : cache.Records loads)
    (hpeek : cache.peek? key = none) :
    ∃ number, (∃ load, (cache.record loads (.resolve key))[number]? = some load ∧
        load.key = key ∧ load.told? = none) ∧
      (cache.resolve key).1 = .waiting key cache.nextTicket ∧
      (cache.resolve key).2.Attends (cache.record loads (.resolve key)) key cache.nextTicket
        number := by
  have hnew := hrecords.act h (.resolve key)
  have hflight := h.act (.resolve key)
  have hdelivered := (cache.resolve_outcome key).delivered_eq
  obtain ⟨hresolution, hnext, hlists⟩ := (cache.resolve_outcome key).unready h.sound hpeek
  have hmem : key ∈ (cache.act (.resolve key)).outstanding := by
    obtain ⟨waiters, hwaiters, -⟩ := lists_iff_exists.mp ((hlists key).mpr rfl)
    refine (hflight.pending_iff key).mp ?_
    change ((cache.resolve key).2.waiters? key).isSome = true
    rw [hwaiters]
    rfl
  obtain ⟨number, load, hload, hkey, htold⟩ := hnew.exists_load hmem
  have hnone : (cache.record loads (.resolve key))[number]?.bind Load.told? = none := by
    rw [hload, Option.bind_some, htold]
  refine ⟨number, ⟨load, hload, hkey, htold⟩, hresolution, ⟨load, hload, hkey⟩, hnext, ?_, ?_⟩
  · rw [hnone, hdelivered]
    cases hget : cache.delivered.get? cache.nextTicket with
    | none => rfl
    | some outcome => exact absurd (h.sound.delivered_lt hget) (Nat.lt_irrefl _)
  · intro other
    rw [hlists, hnone]
    exact (and_iff_left rfl).symm

end

end Cache

end SharedWorld
