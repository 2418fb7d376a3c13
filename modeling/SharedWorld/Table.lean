/-!
# Finite tables

A table binds keys to values and keeps its bindings in increasing order of the key. The order is
part of the type, so two tables with the same bindings are equal, and whatever walks over a table
meets the keys in their order. `Table.get?` is the view every operation is described by.
-/

namespace SharedWorld

open Std

/-- A list of bindings whose keys strictly increase. -/
def KeysIncrease {κ α : Type} [Ord κ] (bindings : List (κ × α)) : Prop :=
  bindings.Pairwise fun a b => compare a.1 b.1 = .lt

/-- A finite map, held as its bindings in increasing order of the key. -/
structure Table (κ α : Type) [Ord κ] where
  /-- The bindings, each key at most once. -/
  toList : List (κ × α)
  /-- The keys strictly increase along the list. -/
  increasing : KeysIncrease toList

namespace Table

variable {κ α : Type} [Ord κ]

/-- Two tables with the same list of bindings are the same table. -/
@[ext]
theorem eq_of_toList_eq {s t : Table κ α} (h : s.toList = t.toList) : s = t := by
  cases s
  cases t
  cases h
  rfl

instance [DecidableEq κ] [DecidableEq α] : DecidableEq (Table κ α) := fun s t =>
  if h : s.toList = t.toList then isTrue (eq_of_toList_eq h)
  else isFalse fun heq => h (congrArg toList heq)

/-- The table without bindings. -/
def empty : Table κ α := ⟨[], .nil⟩

instance : EmptyCollection (Table κ α) := ⟨empty⟩

instance : Inhabited (Table κ α) := ⟨empty⟩

/-! ## Operations on the bindings -/

/-- The value bound to `key` in a list of bindings with increasing keys. -/
def lookup (key : κ) : List (κ × α) → Option α
  | [] => none
  | (k, a) :: rest =>
    match compare key k with
    | .lt => none
    | .eq => some a
    | .gt => lookup key rest

/-- Bind `key`, in the place its order gives it. -/
def bind (key : κ) (value : α) : List (κ × α) → List (κ × α)
  | [] => [(key, value)]
  | (k, a) :: rest =>
    match compare key k with
    | .lt => (key, value) :: (k, a) :: rest
    | .eq => (key, value) :: rest
    | .gt => (k, a) :: bind key value rest

/-- Remove the binding of `key`. -/
def unbind (key : κ) : List (κ × α) → List (κ × α)
  | [] => []
  | (k, a) :: rest =>
    match compare key k with
    | .lt => (k, a) :: rest
    | .eq => rest
    | .gt => (k, a) :: unbind key rest

/-- Binding a key adds no key but that one. -/
theorem mem_bind {key : κ} {value : α} {bindings : List (κ × α)} {b : κ × α}
    (h : b ∈ bind key value bindings) : b = (key, value) ∨ b ∈ bindings := by
  induction bindings with
  | nil => simpa [bind] using h
  | cons head rest ih =>
    obtain ⟨k, a⟩ := head
    simp only [bind] at h
    split at h
    · simpa using h
    · rcases List.mem_cons.mp h with h | h
      · exact .inl h
      · exact .inr (List.mem_cons_of_mem _ h)
    · rcases List.mem_cons.mp h with rfl | h
      · exact .inr List.mem_cons_self
      · exact (ih h).imp id (List.mem_cons_of_mem _)

/-- Removing a binding adds none. -/
theorem unbind_sublist (key : κ) (bindings : List (κ × α)) :
    (unbind key bindings).Sublist bindings := by
  induction bindings with
  | nil => exact .slnil
  | cons head rest ih =>
    obtain ⟨k, a⟩ := head
    simp only [unbind]
    split
    · exact .refl _
    · exact List.sublist_cons_self _ _
    · exact ih.cons_cons _

/-- Removing a binding keeps the keys increasing. -/
theorem unbind_increasing (key : κ) {bindings : List (κ × α)} (h : KeysIncrease bindings) :
    KeysIncrease (unbind key bindings) :=
  List.Pairwise.sublist (unbind_sublist key bindings) h

/-- Binding a key keeps the keys increasing. -/
theorem bind_increasing [TransOrd κ] (key : κ) (value : α) {bindings : List (κ × α)}
    (h : KeysIncrease bindings) : KeysIncrease (bind key value bindings) := by
  induction bindings with
  | nil => exact List.pairwise_singleton _ _
  | cons head rest ih =>
    obtain ⟨k, a⟩ := head
    obtain ⟨hhead, hrest⟩ := List.pairwise_cons.mp h
    simp only [bind]
    cases hkey : compare key k with
    | lt =>
      refine List.pairwise_cons.mpr ⟨fun b hb => ?_, h⟩
      rcases List.mem_cons.mp hb with rfl | hb
      · exact hkey
      · exact TransCmp.lt_trans hkey (hhead b hb)
    | eq =>
      exact List.pairwise_cons.mpr ⟨fun b hb => TransCmp.lt_of_eq_of_lt hkey (hhead b hb), hrest⟩
    | gt =>
      refine List.pairwise_cons.mpr ⟨fun b hb => ?_, ih hrest⟩
      rcases mem_bind hb with rfl | hb
      · exact OrientedCmp.gt_iff_lt.mp hkey
      · exact hhead b hb

/-! ## Operations on tables -/

/-- The value bound to `key`. -/
def get? (t : Table κ α) (key : κ) : Option α := lookup key t.toList

/-- Whether `key` is bound. -/
def contains (t : Table κ α) (key : κ) : Bool := (t.get? key).isSome

/-- Bind `key` to `value`, in place of whatever it was bound to. -/
def insert [TransOrd κ] (t : Table κ α) (key : κ) (value : α) : Table κ α :=
  ⟨bind key value t.toList, bind_increasing key value t.increasing⟩

/-- Remove the binding of `key`. -/
def erase (t : Table κ α) (key : κ) : Table κ α :=
  ⟨unbind key t.toList, unbind_increasing key t.increasing⟩

/-- Change the value bound to `key`, if there is one. -/
def modify [TransOrd κ] (t : Table κ α) (key : κ) (f : α → α) : Table κ α :=
  match t.get? key with
  | some a => t.insert key (f a)
  | none => t

/-- The number of bindings. -/
def size (t : Table κ α) : Nat := t.toList.length

/-- Whether nothing is bound. -/
def isEmpty (t : Table κ α) : Bool := t.toList.isEmpty

/-- The bound keys, in increasing order. -/
def keys (t : Table κ α) : List κ := t.toList.map (·.1)

/-- The bound values, in increasing order of their keys. -/
def values (t : Table κ α) : List α := t.toList.map (·.2)

/-- Bind every key of a list, later bindings replacing earlier ones. -/
def ofList [TransOrd κ] (bindings : List (κ × α)) : Table κ α :=
  bindings.foldl (fun t b => t.insert b.1 b.2) empty

/-! ## Look-up after each operation -/

/-- Nothing is in the empty table. -/
@[simp]
theorem get?_empty (key : κ) : (empty : Table κ α).get? key = none := rfl

/-- A key below every key of a list is not bound in it. -/
theorem lookup_eq_none_of_lt [TransOrd κ] {key : κ} {bindings : List (κ × α)}
    (h : ∀ b ∈ bindings, compare key b.1 = .lt) : lookup key bindings = none := by
  cases bindings with
  | nil => rfl
  | cons head rest => simp [lookup, h head List.mem_cons_self]

/-- A binding of a list with increasing keys is the one found. -/
theorem lookup_eq_some_iff [TransOrd κ] [LawfulEqOrd κ] {key : κ} {value : α}
    {bindings : List (κ × α)} (h : KeysIncrease bindings) :
    lookup key bindings = some value ↔ (key, value) ∈ bindings := by
  induction bindings with
  | nil => simp [lookup]
  | cons head rest ih =>
    obtain ⟨k, a⟩ := head
    obtain ⟨hhead, hrest⟩ := List.pairwise_cons.mp h
    simp only [lookup, List.mem_cons, Prod.mk.injEq]
    cases hkey : compare key k with
    | lt =>
      simp only [reduceCtorEq, false_iff, not_or]
      refine ⟨fun ⟨heq, _⟩ => ?_, fun hmem => ?_⟩
      · rw [heq, compare_self] at hkey
        cases hkey
      · have hk : compare k key = .lt := hhead _ hmem
        rw [OrientedOrd.eq_swap, hkey] at hk
        cases hk
    | eq =>
      obtain rfl := LawfulEqOrd.eq_of_compare hkey
      constructor
      · rintro ⟨rfl⟩
        exact .inl ⟨rfl, rfl⟩
      · rintro (⟨_, rfl⟩ | hmem)
        · rfl
        · have hk : compare key key = .lt := hhead _ hmem
          rw [compare_self] at hk
          cases hk
    | gt =>
      rw [ih hrest]
      refine ⟨.inr, fun h => h.elim (fun ⟨heq, _⟩ => ?_) id⟩
      rw [heq, compare_self] at hkey
      cases hkey

/-- A table binds `key` to `value` exactly when its list holds that binding. -/
theorem get?_eq_some_iff [TransOrd κ] [LawfulEqOrd κ] {t : Table κ α} {key : κ} {value : α} :
    t.get? key = some value ↔ (key, value) ∈ t.toList :=
  lookup_eq_some_iff t.increasing

/-- A key that is bound is found with its new value, and the others with theirs. -/
theorem lookup_bind [TransOrd κ] [LawfulEqOrd κ] (key other : κ) (value : α)
    (bindings : List (κ × α)) :
    lookup other (bind key value bindings) =
      if compare other key = .eq then some value else lookup other bindings := by
  induction bindings with
  | nil =>
    simp only [bind, lookup]
    cases compare other key <;> rfl
  | cons head rest ih =>
    obtain ⟨k, a⟩ := head
    simp only [bind]
    cases hkey : compare key k with
    | lt =>
      simp only [lookup]
      cases hother : compare other key with
      | lt => simp [TransCmp.lt_trans hother hkey]
      | eq => rfl
      | gt => rfl
    | eq =>
      obtain rfl := LawfulEqOrd.eq_of_compare hkey
      simp only [lookup]
      cases compare other key <;> rfl
    | gt =>
      simp only [lookup, ih]
      by_cases hother : compare other key = .eq
      · obtain rfl := LawfulEqOrd.eq_of_compare hother
        simp [hkey]
      · simp [hother]

/-- The key that was just bound has its new value, every other key keeps its own. -/
theorem get?_insert [TransOrd κ] [LawfulEqOrd κ] [DecidableEq κ] (t : Table κ α)
    (key other : κ) (value : α) :
    (t.insert key value).get? other = if other = key then some value else t.get? other := by
  simp only [get?, insert, lookup_bind, Std.compare_eq_iff_eq]

/-- What was put under a key is found there. -/
@[simp]
theorem get?_insert_self [TransOrd κ] [LawfulEqOrd κ] (t : Table κ α) (key : κ) (value : α) :
    (t.insert key value).get? key = some value := by
  simp [get?, insert, lookup_bind]

/-- A key that is unbound is not found, and the others are found with their values. -/
theorem lookup_unbind [TransOrd κ] [LawfulEqOrd κ] (key other : κ)
    {bindings : List (κ × α)} (h : KeysIncrease bindings) :
    lookup other (unbind key bindings) =
      if compare other key = .eq then none else lookup other bindings := by
  induction bindings with
  | nil => simp [unbind, lookup]
  | cons head rest ih =>
    obtain ⟨k, a⟩ := head
    obtain ⟨hhead, hrest⟩ := List.pairwise_cons.mp h
    simp only [unbind]
    cases hkey : compare key k with
    | lt =>
      by_cases hother : compare other key = .eq
      · obtain rfl := LawfulEqOrd.eq_of_compare hother
        simp [lookup, hkey]
      · simp [hother]
    | eq =>
      obtain rfl := LawfulEqOrd.eq_of_compare hkey
      simp only [lookup]
      cases hother : compare other key with
      | lt => simp [lookup_eq_none_of_lt fun b hb => TransCmp.lt_trans hother (hhead b hb)]
      | eq =>
        obtain rfl := LawfulEqOrd.eq_of_compare hother
        simp [lookup_eq_none_of_lt fun b hb => hhead b hb]
      | gt => simp
    | gt =>
      simp only [lookup, ih hrest]
      by_cases hother : compare other key = .eq
      · obtain rfl := LawfulEqOrd.eq_of_compare hother
        simp [hkey]
      · simp [hother]

/-- The key that was just removed is not bound, every other key keeps its value. -/
theorem get?_erase [TransOrd κ] [LawfulEqOrd κ] [DecidableEq κ] (t : Table κ α)
    (key other : κ) :
    (t.erase key).get? other = if other = key then none else t.get? other := by
  simp only [get?, erase, lookup_unbind key other t.increasing, Std.compare_eq_iff_eq]

/-- Nothing is left under a key that was erased. -/
@[simp]
theorem get?_erase_self [TransOrd κ] [LawfulEqOrd κ] (t : Table κ α) (key : κ) :
    (t.erase key).get? key = none := by
  simp [get?, erase, lookup_unbind key key t.increasing]

/-- Tables with the same look-ups are equal. -/
theorem ext_get? [TransOrd κ] [LawfulEqOrd κ] {s t : Table κ α}
    (h : ∀ key, s.get? key = t.get? key) : s = t := by
  obtain ⟨l, hl⟩ := s
  obtain ⟨r, hr⟩ := t
  simp only [get?] at h
  congr 1
  induction l generalizing r with
  | nil =>
    cases r with
    | nil => rfl
    | cons head rest =>
      have := h head.1
      simp [lookup, compare_self] at this
  | cons head rest ih =>
    obtain ⟨k, a⟩ := head
    cases r with
    | nil =>
      have := h k
      simp [lookup, compare_self] at this
    | cons head' rest' =>
      obtain ⟨k', a'⟩ := head'
      obtain ⟨hhead, hrest⟩ := List.pairwise_cons.mp hl
      obtain ⟨hhead', hrest'⟩ := List.pairwise_cons.mp hr
      have hk := h k
      have hk' := h k'
      simp only [lookup, compare_self] at hk hk'
      have heq : compare k k' = .eq := by
        cases hc : compare k k' with
        | eq => rfl
        | lt => simp [hc] at hk
        | gt => simp [OrientedCmp.gt_iff_lt.mp hc] at hk'
      obtain rfl := LawfulEqOrd.eq_of_compare heq
      simp only [compare_self, Option.some.injEq] at hk
      subst hk
      congr 1
      refine ih hrest rest' hrest' fun key => ?_
      have hkey := h key
      simp only [lookup] at hkey
      cases hc : compare key k with
      | gt => simpa [hc] using hkey
      | eq =>
        obtain rfl := LawfulEqOrd.eq_of_compare hc
        rw [lookup_eq_none_of_lt fun b hb => hhead b hb,
          lookup_eq_none_of_lt fun b hb => hhead' b hb]
      | lt =>
        rw [lookup_eq_none_of_lt fun b hb => TransCmp.lt_trans hc (hhead b hb),
          lookup_eq_none_of_lt fun b hb => TransCmp.lt_trans hc (hhead' b hb)]

end Table

end SharedWorld
