import SharedWorld.Proofs.Noninterference
import SharedWorld.Proofs.Passes

/-!
# What is loaded on demand

A cache loads what is asked of it and not there. While keys are resolved and references are taken
and given back, the order of all that matters neither to the loads that are started nor to how many
wait for each of them, as long as nothing is evicted: both can be told from the cache at the start
and from how often each key is resolved (`Cache.Consults.demands`). What legs take from the cache
they resolve (`Leg.Path.consults`). -/

namespace SharedWorld

namespace Cache

open Std

variable {κ π : Type} [Ord κ] {before middle after cache : Cache κ π} {keys : List κ} {key : κ}

/-! ## Who waits for a load -/

/-- How many wait for the load of `key`, if its entry is pending. -/
def waiting? (cache : Cache κ π) (key : κ) : Option Nat := (cache.waiters? key).map List.length

/-- How many wait for the load of `key` after it was resolved so many times, if any do. -/
def waitingAfter? (cache : Cache κ π) (key : κ) (times : Nat) : Option Nat :=
  if cache.lacks key then if times = 0 then none else some times
  else (cache.waiting? key).map (· + times)

/-- A key is lacking exactly if it is neither ready nor waited for. -/
theorem lacks_iff :
    cache.lacks key = true ↔ cache.peek? key = none ∧ cache.waiting? key = none := by
  constructor
  · intro hlacks
    exact ⟨peek?_eq_none_iff.mpr (.inr hlacks), by
      rw [waiting?, waiters?_eq_none_of_lacks hlacks, Option.map_none]⟩
  · rintro ⟨hpeek, hwaiting⟩
    refine (peek?_eq_none_iff.mp hpeek).resolve_left fun hpending => ?_
    rw [waiting?, Option.map_eq_none_iff] at hwaiting
    rw [isPending, hwaiting] at hpending
    cases hpending

/-- Nobody waits for what is ready. -/
theorem waitingAfter?_of_ready {payload : π} (hpeek : cache.peek? key = some payload)
    (times : Nat) : cache.waitingAfter? key times = none := by
  have hlacks : ¬ cache.lacks key = true := fun hlacks => by
    rw [(lacks_iff.mp hlacks).1] at hpeek
    cases hpeek
  obtain ⟨refs, hentry⟩ := peek?_eq_some_iff.mp hpeek
  have hwaiters : cache.waiters? key = none := by rw [waiters?, hentry]; rfl
  rw [waitingAfter?, if_neg hlacks, waiting?, hwaiters]
  rfl

/-- A key that is resolved once more is waited for by one more, unless it is ready. -/
theorem waitingAfter?_succ (hpeek : cache.peek? key = none) (times : Nat) :
    cache.waitingAfter? key (times + 1) = some ((cache.waitingAfter? key times).getD 0 + 1) := by
  unfold waitingAfter?
  by_cases hlacks : cache.lacks key = true
  · cases times with
    | zero => simp [hlacks]
    | succ times => simp [hlacks]
  · obtain ⟨waiting, hwaiting⟩ := Option.ne_none_iff_exists'.mp
      fun hnone => hlacks (lacks_iff.mpr ⟨hpeek, hnone⟩)
    simp [hlacks, hwaiting, Nat.add_assoc]

/-- Before anything new is asked for, the cache lists those who wait as it does. -/
theorem waitingAfter?_zero : cache.waitingAfter? key 0 = cache.waiting? key := by
  unfold waitingAfter?
  by_cases hlacks : cache.lacks key = true
  · rw [if_pos hlacks, if_pos rfl, (lacks_iff.mp hlacks).2]
  · rw [if_neg hlacks]
    exact congrFun Option.map_id _

section Resolving

variable [DecidableEq κ] [TransOrd κ] [LawfulEqOrd κ]

/-- Whoever resolves a key that is not ready waits for its load. -/
theorem ResolveOutcome.waiting?_eq {resolution : Resolution κ π}
    (outcome : ResolveOutcome cache key resolution after) (other : κ) :
    after.waiting? other =
      if other = key ∧ cache.peek? key = none then some ((cache.waiting? key).getD 0 + 1)
      else cache.waiting? other := by
  cases outcome with
  | reads ready =>
    have hready : ¬ (other = key ∧ cache.peek? key = none) := fun h => by
      rw [ready] at h
      cases h.2
    rw [if_neg hready, waiting?, (cache.promote_spares key).waiters]
    rfl
  | @joins waiters refs pending =>
    have hwaiters := waiters?_eq_some_iff.mpr ⟨refs, pending⟩
    have hpeek : cache.peek? key = none :=
      peek?_eq_none_iff.mpr (.inl (by rw [isPending, hwaiters]; rfl))
    rw [waiting?, waiters?_of_insert rfl, waiting?, hwaiters]
    by_cases hother : other = key
    · simp [hother, hpeek, EntryState.waiters?]
    · simp [hother, waiting?]
  | loads lacking =>
    obtain ⟨hpeek, hwaiting⟩ := lacks_iff.mp lacking
    rw [waiting?, waiters?_startLoad, hwaiting]
    by_cases hother : other = key
    · simp [hother, hpeek]
    · simp [hother, waiting?]

end Resolving

/-! ## What is demanded -/

section Demands

variable [DecidableEq κ]

/-- The keys were resolved, in whatever order. A load was started for each of them that was lacking,
and whoever resolved a key that was not ready waits for its load. -/
structure Demands (before : Cache κ π) (keys : List κ) (after : Cache κ π) : Prop where
  started : ∀ key, after.started.count key =
    before.started.count key + if before.lacks key = true ∧ key ∈ keys then 1 else 0
  waiting : ∀ key, after.waiting? key = before.waitingAfter? key (keys.count key)

/-- A cache is what it is when nothing was asked of it. -/
theorem Demands.refl (cache : Cache κ π) : cache.Demands [] cache where
  started key := by rw [if_neg fun h => List.not_mem_nil h.2, Nat.add_zero]
  waiting key := by rw [List.count_nil, waitingAfter?_zero]

/-- What starts no load and lets those who wait be changes no demand. -/
theorem Demands.of_spares (h : before.Demands keys middle) (spares : middle.Spares after) :
    before.Demands keys after where
  started key := by rw [spares.loads.started, h.started]
  waiting key := by rw [waiting?, spares.waiters, ← waiting?, h.waiting]

/-- A key is still lacking if it was not resolved yet. -/
theorem Demands.lacks_iff (h : before.Demands keys middle)
    (hpeek : middle.peek? key = before.peek? key) :
    middle.lacks key = true ↔ before.lacks key = true ∧ key ∉ keys := by
  rw [Cache.lacks_iff, hpeek, h.waiting, ← List.count_eq_zero]
  unfold waitingAfter?
  by_cases hlacks : before.lacks key = true
  · simp [hlacks, (Cache.lacks_iff.mp hlacks).1]
  · rw [if_neg hlacks, Option.map_eq_none_iff, ← Cache.lacks_iff]
    exact ⟨fun h => absurd h hlacks, fun h => absurd h.1 hlacks⟩

/-- However often and in whatever order the same keys are resolved, the same loads are started and
as many wait for each of them. -/
theorem Demands.agree {keys' : List κ} {after' : Cache κ π} (first : before.Demands keys after)
    (second : before.Demands keys' after') (hperm : keys.Perm keys') :
    after.started.Perm after'.started ∧ after.waiting? = after'.waiting? := by
  constructor
  · refine List.perm_iff_count.mpr fun key => ?_
    simp only [first.started, second.started, hperm.mem_iff]
  · funext key
    rw [first.waiting, second.waiting, hperm.count_eq]

variable [TransOrd κ] [LawfulEqOrd κ]

/-- Resolving a key adds it to what was asked of the cache. -/
theorem Demands.resolve (h : before.Demands keys middle)
    (hpeek : middle.peek? key = before.peek? key) :
    before.Demands (keys ++ [key]) (middle.resolve key).2 where
  started other := by
    have hlacks := h.lacks_iff hpeek
    have hmisses : (middle.misses (.resolve key)).count other =
        if other = key ∧ before.lacks key = true ∧ key ∉ keys then 1 else 0 := by
      unfold misses
      by_cases hother : other = key
      · simp [hother, ← hlacks, apply_ite (List.count key)]
      · simp [hother, Ne.symm hother, apply_ite (List.count other)]
    rw [(middle.resolve_outcome key).started_eq, List.count_append, h.started, hmisses,
      Nat.add_assoc]
    by_cases hother : other = key
    · subst hother
      by_cases hold : other ∈ keys
      · simp [hold]
      · simp [hold]
    · simp [hother]
  waiting other := by
    rw [(middle.resolve_outcome key).waiting?_eq, hpeek, List.count_append, h.waiting, h.waiting]
    by_cases hother : other = key
    · subst hother
      rw [List.count_singleton_self]
      cases hready : before.peek? other with
      | some payload => simp [waitingAfter?_of_ready hready]
      | none => simp [waitingAfter?_succ hready]
    · have hnot : [key].count other = 0 :=
        List.count_eq_zero.mpr fun hmem => hother (List.mem_singleton.mp hmem)
      rw [if_neg fun h => hother h.1, hnot, Nat.add_zero]

/-- Nothing becomes ready while keys are resolved. -/
theorem Consults.keepsAmple (h : before.Consults keys after) : before.KeepsAmple after := by
  induction h with
  | refl => exact .refl before
  | resolves _ key ih => exact ih.trans (keepsAmple_resolve _ key)
  | retains _ key ih => exact ih.trans (keepsAmple_retain _ key)
  | releases _ key ih => exact ih.trans (keepsAmple_release _ key)

/-- While nothing is evicted, what is demanded of a cache can be told from what it is like at the
start. -/
theorem Consults.demands (h : before.Consults keys after)
    (hsound : before.Sound fun _ _ => True) (spared : before.EvictsNothing after) :
    before.Demands keys after := by
  induction h with
  | refl => exact .refl before
  | @resolves keys middle h key ih =>
    -- What is ready at the end was ready all along.
    have hspared : before.EvictsNothing middle :=
      fun _ _ hpeek => (keepsAmple_resolve middle key).readiesNothing (spared hpeek)
    exact (ih hspared).resolve (h.keepsAmple.readiesNothing.peek?_eq (fun _ _ => id) hspared key)
  | @retains keys middle h key ih =>
    have hspared : before.EvictsNothing middle :=
      fun _ _ hpeek => (keepsAmple_retain middle key).readiesNothing (spared hpeek)
    exact (ih hspared).of_spares (middle.retain_spares key)
  | @releases keys middle h key ih =>
    have hspared : before.EvictsNothing middle :=
      fun _ _ hpeek => (keepsAmple_release middle key).readiesNothing (spared hpeek)
    exact (ih hspared).of_spares ((h.keepsAmple.sound hsound).release_spares key)

end Demands

end Cache

/-- The legs of a path resolve what they take, one after the other. -/
theorem Leg.Path.consults {start finish : Realm} {legs : List Leg} (h : Path start legs finish) :
    start.world.cache.Consults (legs.flatMap Leg.taken) finish.world.cache := by
  induction legs generalizing start with
  | nil =>
    cases h
    exact .refl
  | cons leg legs ih =>
    obtain ⟨rfl, hrest⟩ := h
    exact leg.consults.trans (ih hrest)

end SharedWorld
