import Mathlib.Algebra.GroupWithZero.Nat
import SharedWorld.Table

/-!
# Counting in tables

Each key of a table is bound once, so a sum over the bound values changes by exactly one summand
when a key is bound or its binding is removed. This is what conservation laws of the server rest on:
references, replies and occupants are counted over tables.
-/

namespace SharedWorld.Table

open Std

variable {κ α : Type} [Ord κ]

/-- Each key is bound once. -/
theorem keys_nodup [TransOrd κ] (t : Table κ α) : t.keys.Nodup := by
  refine List.pairwise_map.mpr (t.increasing.imp fun hlt heq => ?_)
  rw [heq, compare_self] at hlt
  cases hlt

section Lookup

variable [TransOrd κ] [LawfulEqOrd κ]

/-- Changing the value of a key shows at that key only. -/
theorem get?_modify [DecidableEq κ] (t : Table κ α) (key other : κ) (f : α → α) :
    (t.modify key f).get? other =
      if other = key then (t.get? key).map f else t.get? other := by
  unfold modify
  cases hkey : t.get? key with
  | none =>
    by_cases hother : other = key
    · rw [if_pos hother, hother, hkey, Option.map_none]
    · rw [if_neg hother]
  | some a => rw [get?_insert, Option.map_some]

/-- What was put under a key does not matter when the key is erased. -/
theorem erase_insert_self [DecidableEq κ] (t : Table κ α) (key : κ) (value : α) :
    (t.insert key value).erase key = t.erase key := by
  apply ext_get?
  intro other
  rw [get?_erase, get?_erase, get?_insert]
  split
  · rfl
  · rfl

/-- Erasing a key that is not there changes nothing. -/
theorem erase_eq_self [DecidableEq κ] {t : Table κ α} {key : κ} (h : t.get? key = none) :
    t.erase key = t := by
  apply ext_get?
  intro other
  rw [get?_erase]
  by_cases heq : other = key
  · rw [if_pos heq, heq, h]
  · rw [if_neg heq]

/-- What was put under a key last is what counts. -/
theorem insert_insert_self [DecidableEq κ] (t : Table κ α) (key : κ) (value value' : α) :
    (t.insert key value).insert key value' = t.insert key value' := by
  apply ext_get?
  intro other
  rw [get?_insert, get?_insert, get?_insert]
  split
  · rfl
  · rfl

/-- Erasing a key again changes nothing. -/
theorem erase_erase_self [DecidableEq κ] (t : Table κ α) (key : κ) :
    (t.erase key).erase key = t.erase key := by
  apply ext_get?
  intro other
  rw [get?_erase, get?_erase]
  split
  · rfl
  · rfl

/-- Tables that agree without a key agree at every other key. -/
theorem get?_of_erase_eq [DecidableEq κ] {s t : Table κ α} {key other : κ}
    (h : s.erase key = t.erase key) (hother : other ≠ key) : s.get? other = t.get? other := by
  have hget := congrArg (get? · other) h
  simpa only [get?_erase, if_neg hother] using hget

/-- The values are what can be found under some key. -/
theorem mem_values_iff {t : Table κ α} {a : α} : a ∈ t.values ↔ ∃ key, t.get? key = some a := by
  simp only [values, List.mem_map, Prod.exists, exists_eq_right, get?_eq_some_iff]

/-- What is found after a value was put is that value, or is found under another key. -/
theorem get?_insert_eq_some_iff [DecidableEq κ] {t : Table κ α} {key other : κ} {a b : α} :
    (t.insert key a).get? other = some b ↔
      other = key ∧ a = b ∨ other ≠ key ∧ t.get? other = some b := by
  rw [get?_insert]
  by_cases heq : other = key
  · rw [if_pos heq, Option.some.injEq]
    exact ⟨fun h => .inl ⟨heq, h⟩, fun h => h.elim And.right fun hold => absurd heq hold.1⟩
  · rw [if_neg heq]
    exact ⟨fun h => .inr ⟨heq, h⟩, fun h => h.elim (fun hnew => absurd hnew.1 heq) And.right⟩

/-- What is found after a key was erased is found under another key. -/
theorem get?_erase_eq_some_iff [DecidableEq κ] {t : Table κ α} {key other : κ} {a : α} :
    (t.erase key).get? other = some a ↔ other ≠ key ∧ t.get? other = some a := by
  rw [get?_erase]
  by_cases heq : other = key
  · rw [if_pos heq]
    constructor
    · intro h
      cases h
    · intro h
      exact absurd heq h.1
  · rw [if_neg heq]
    exact ⟨fun h => ⟨heq, h⟩, And.right⟩

/-- A table is empty just if nothing can be found in it. -/
theorem isEmpty_iff {t : Table κ α} : t.isEmpty = true ↔ ∀ key, t.get? key = none := by
  simp only [isEmpty, List.isEmpty_iff]
  constructor
  · intro hnil key
    rw [get?, hnil]
    rfl
  · intro hnone
    cases hlist : t.toList with
    | nil => rfl
    | cons head rest =>
      have hmem : (head.1, head.2) ∈ t.toList := by
        rw [hlist]
        exact List.mem_cons_self
      have hsome := get?_eq_some_iff.mpr hmem
      rw [hnone head.1] at hsome
      cases hsome

/-- A table in which something can be found is not empty. -/
theorem isEmpty_eq_false_of_get? {t : Table κ α} {key : κ} {a : α} (h : t.get? key = some a) :
    t.isEmpty = false := by
  cases hempty : t.isEmpty with
  | false => rfl
  | true =>
    rw [isEmpty_iff.mp hempty key] at h
    cases h

/-- The keys are those under which something can be found. -/
theorem mem_keys_iff {t : Table κ α} {key : κ} : key ∈ t.keys ↔ ∃ a, t.get? key = some a := by
  simp only [keys, List.mem_map, Prod.exists, exists_and_right, exists_eq_right, get?_eq_some_iff]

/-- There are as many values of a kind as keys that are bound to one. -/
theorem countP_values_eq_length {t : Table κ α} {p : α → Bool} {keys : List κ}
    (hnodup : keys.Nodup) (hmem : ∀ key, key ∈ keys ↔ ∃ a, t.get? key = some a ∧ p a = true) :
    t.values.countP p = keys.length := by
  let bindings := t.toList.filter fun binding => p binding.2
  have hcount : t.values.countP p = (bindings.map (·.1)).length := by
    rw [values, List.countP_map, List.countP_eq_length_filter, List.length_map]
    rfl
  have hbindings : (bindings.map (·.1)).Nodup :=
    t.keys_nodup.sublist (List.filter_sublist.map _)
  have hsame : ∀ key, key ∈ bindings.map (·.1) ↔ key ∈ keys := by
    intro key
    simp only [hmem, bindings, List.mem_map, List.mem_filter, Prod.exists, exists_and_right,
      exists_eq_right, get?_eq_some_iff]
  rw [hcount]
  exact ((List.perm_ext_iff_of_nodup hbindings hnodup).mpr hsame).length_eq

/-- Tables that bind the same keys to values of a kind hold as many of them. -/
theorem countP_values_congr {β : Type} {s : Table κ α} {t : Table κ β} {p : α → Bool} {q : β → Bool}
    (h : ∀ key, (s.get? key).any p = (t.get? key).any q) :
    s.values.countP p = t.values.countP q := by
  have hnodup : (s.keys.filter fun key => (s.get? key).any p).Nodup := s.keys_nodup.filter _
  have hmem : ∀ key, key ∈ s.keys.filter (fun key => (s.get? key).any p) ↔
      (s.get? key).any p = true := by
    intro key
    rw [List.mem_filter, mem_keys_iff, Option.any_eq_true]
    exact ⟨And.right, fun hbound => ⟨hbound.imp fun _ => And.left, hbound⟩⟩
  have hmem' : ∀ key, key ∈ s.keys.filter (fun key => (s.get? key).any p) ↔
      (t.get? key).any q = true := by
    intro key
    rw [hmem, h]
  rw [countP_values_eq_length hnodup fun key => (hmem key).trans (Option.any_eq_true ..),
    countP_values_eq_length hnodup fun key => (hmem' key).trans (Option.any_eq_true ..)]

end Lookup

/-- A table contains a key just if something can be found under it. -/
theorem contains_iff {t : Table κ α} {key : κ} :
    t.contains key = true ↔ ∃ a, t.get? key = some a := Option.isSome_iff_exists

/-- The bound values are that of one key, if it is bound, and those of the others. -/
theorem values_perm (t : Table κ α) (key : κ) :
    t.values.Perm ((t.get? key).toList ++ (t.erase key).values) := by
  simp only [values, erase, get?]
  induction t.toList with
  | nil => exact .refl _
  | cons head rest ih =>
    obtain ⟨k, a⟩ := head
    simp only [unbind, lookup]
    split
    · exact .refl _
    · exact .refl _
    · simp only [List.map_cons]
      exact (ih.cons a).trans List.perm_middle.symm

/-- Binding a key leaves the values of the others. -/
theorem values_insert [TransOrd κ] (t : Table κ α) (key : κ) (value : α) :
    (t.insert key value).values.Perm (value :: (t.erase key).values) := by
  simp only [values, insert, erase]
  induction t.toList with
  | nil => exact .refl _
  | cons head rest ih =>
    obtain ⟨k, a⟩ := head
    simp only [unbind, bind]
    split
    · exact .refl _
    · exact .refl _
    · simp only [List.map_cons]
      exact (ih.cons a).trans (.swap _ _ _)

/-! ## Sums over the bound values -/

/-- The weights of all bound values together. -/
def total (t : Table κ α) (weight : α → Nat) : Nat := (t.values.map weight).sum

/-- Values are counted one by one. -/
theorem countP_values (t : Table κ α) (p : α → Bool) :
    t.values.countP p = t.total fun a => if p a then 1 else 0 := by
  unfold total
  induction t.values with
  | nil => rfl
  | cons a rest ih =>
    rw [List.countP_cons, ih, List.map_cons, List.sum_cons, Nat.add_comm]

/-- The size of a table counts every value once. -/
theorem size_eq_total (t : Table κ α) : t.size = t.total fun _ => 1 := by
  simp only [size, total, values, List.map_map]
  induction t.toList with
  | nil => rfl
  | cons b rest ih =>
    rw [List.length_cons, ih, List.map_cons, List.sum_cons, Nat.add_comm]
    rfl

/-- Removing a binding takes its weight away. -/
theorem total_erase (t : Table κ α) (key : κ) (weight : α → Nat) :
    (t.erase key).total weight + (t.get? key).elim 0 weight = t.total weight := by
  have hsplit := ((t.values_perm key).map weight).sum_nat
  rw [List.map_append, List.sum_append_nat] at hsplit
  rw [total, total, hsplit, Nat.add_comm]
  cases t.get? key with
  | none => rfl
  | some a => rfl

/-- Binding a key replaces the weight of what it was bound to. -/
theorem total_insert [TransOrd κ] (t : Table κ α) (key : κ) (value : α) (weight : α → Nat) :
    (t.insert key value).total weight + (t.get? key).elim 0 weight =
      t.total weight + weight value := by
  have hinsert := ((t.values_insert key value).map weight).sum_nat
  rw [List.map_cons, List.sum_cons] at hinsert
  rw [← total_erase t key, total, hinsert, ← total]
  omega

end SharedWorld.Table
