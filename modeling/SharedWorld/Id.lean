/-!
# Ids

Everything that has an identity of its own is named by an id of its kind. A kind fixes how many ids
there are. A number that is too large for a kind names its largest id, so that a counter can never
produce an id outside its range. Participants are named by their identity, which is a text.
-/

namespace SharedWorld

open Std

/-- What an id names. -/
inductive IdKind where
  | zone
  | scene
  | place
  | entity
  | location
  | group
  | request
  | session
  | connection
  | service
  | method
  deriving DecidableEq, Repr

/-- The number of bits an id of the kind has. -/
def IdKind.bits : IdKind → Nat
  | .zone | .scene | .location => 32
  | .service => 16
  | .method => 8
  | _ => 64

/-- How many ids of the kind there are. -/
def IdKind.count (kind : IdKind) : Nat := Nat.pow 2 kind.bits

/-- There are ids of every kind. -/
theorem IdKind.count_pos (kind : IdKind) : 0 < kind.count := Nat.two_pow_pos _

/-- An id of a kind: a number below the count of the kind. -/
structure Id (kind : IdKind) where
  /-- The number. -/
  val : Nat
  /-- The number is in the range of the kind. -/
  val_lt : val < kind.count := by decide
  deriving DecidableEq, Repr

/-- Identifies a zone, which groups scenes. -/
abbrev ZoneId := Id .zone
/-- Identifies a scene of a zone. -/
abbrev SceneId := Id .scene
/-- Identifies a live place, which hosts the occupants of a scene. -/
abbrev PlaceId := Id .place
/-- Identifies a body. -/
abbrev EntityId := Id .entity
/-- Identifies a spot within a scene. -/
abbrev LocationId := Id .location
/-- Identifies a feed that clients subscribe to while they stand at a location of its group. -/
abbrev GroupId := Id .group
/-- Correlates a request with its response. -/
abbrev RequestId := Id .request
/-- Identifies a session. -/
abbrev SessionKey := Id .session
/-- Identifies a physical connection, as the transport numbers it. -/
abbrev ConnectionId := Id .connection
/-- Identifies a service. -/
abbrev ServiceId := Id .service
/-- Identifies a method of a service. -/
abbrev MethodId := Id .method

namespace Id

variable {kind : IdKind}

/-- Ids with the same number are the same id. -/
@[ext]
theorem eq_of_val_eq {a b : Id kind} (h : a.val = b.val) : a = b := by
  cases a
  cases b
  cases h
  rfl

/-- The id with the given number, or the largest one if there is none. -/
def clamp (n : Nat) : Id kind :=
  ⟨min n (kind.count - 1), by have := kind.count_pos; omega⟩

/-- An id is the one of its own value. -/
theorem clamp_val (a : Id kind) : clamp a.val = a := by
  have := a.val_lt
  exact eq_of_val_eq (by simp only [clamp]; omega)

/-- The id with the given number, if there is one. -/
def ofNat? (n : Nat) : Option (Id kind) :=
  if h : n < kind.count then some ⟨n, h⟩ else none

instance (n : Nat) : OfNat (Id kind) n := ⟨clamp n⟩

instance : Inhabited (Id kind) := ⟨clamp 0⟩

/-- Ids are ordered by their numbers. -/
instance : Ord (Id kind) := ⟨fun a b => compare a.val b.val⟩

/-- Ids are compared by their values. -/
theorem compare_def (a b : Id kind) : compare a b = compare a.val b.val := rfl

instance : TransOrd (Id kind) where
  eq_swap {a b} := OrientedOrd.eq_swap (α := Nat) (a := a.val) (b := b.val)
  isLE_trans {a b c} := @TransCmp.isLE_trans Nat compare _ a.val b.val c.val

instance : LawfulEqOrd (Id kind) where
  compare_self := compare_self (α := Nat)
  eq_of_compare h := eq_of_val_eq (LawfulEqOrd.eq_of_compare (α := Nat) h)

/-- An id is written as its number; a connection's is marked as such. -/
instance : ToString (Id kind) where
  toString a :=
    match kind with
    | .connection => "conn#" ++ toString a.val
    | _ => toString a.val

end Id

/-- The stable name of a participant. It outlives every connection. -/
structure Identity where
  /-- The participant's name. -/
  name : String
  deriving DecidableEq, Repr

namespace Identity

/-- Identities with the same name are the same. -/
@[ext]
theorem eq_of_name_eq {a b : Identity} (h : a.name = b.name) : a = b := by
  cases a
  cases b
  cases h
  rfl

instance : Inhabited Identity := ⟨⟨""⟩⟩

/-- Identities are ordered by the code points of their names. -/
instance : Ord Identity := ⟨fun a b => compare a.name b.name⟩

instance : TransOrd Identity where
  eq_swap {a b} := OrientedOrd.eq_swap (α := String) (a := a.name) (b := b.name)
  isLE_trans {a b c} := @TransCmp.isLE_trans String compare _ a.name b.name c.name

instance : LawfulEqOrd Identity where
  compare_self := compare_self (α := String)
  eq_of_compare h := eq_of_name_eq (LawfulEqOrd.eq_of_compare (α := String) h)

instance : ToString Identity := ⟨Identity.name⟩

end Identity

/-- Hands out ids of one kind, each number once until the counter comes round again. -/
structure IdGenerator (kind : IdKind) where
  /-- The number of the first id. -/
  first : UInt64 := 1
  /-- How many ids were handed out. -/
  issued : Nat := 0
  deriving DecidableEq, Repr

namespace IdGenerator

variable {kind : IdKind}

instance : Inhabited (IdGenerator kind) := ⟨{}⟩

/-- A generator whose first id has the given number. -/
def startingAt (first : UInt64) : IdGenerator kind := { first := first }

/-- The number of the next id. It wraps around. -/
def next (g : IdGenerator kind) : UInt64 := g.first + .ofNat g.issued

/-- The id that `generate` gives next. -/
def peek (g : IdGenerator kind) : Id kind := Id.clamp g.next.toNat

/-- The next id, and the generator after it. -/
def generate (g : IdGenerator kind) : Id kind × IdGenerator kind :=
  (g.peek, { g with issued := g.issued + 1 })

end IdGenerator

end SharedWorld
