import SharedWorld.Fault

/-!
# Arguments of an invocation

A request carries a list of values. A handler reads them by position and kind; a position past the
end or a value of another kind is a fault of the method that is being invoked.
-/

namespace SharedWorld

/-- One value in the argument list of a request. -/
inductive Argument where
  | bool (value : Bool)
  | word32 (value : UInt32)
  | word64 (value : UInt64)
  | text (value : String)
  deriving DecidableEq, Repr

/-- The kinds of values. -/
inductive ArgumentKind where
  | bool
  | word32
  | word64
  | text
  deriving DecidableEq, Repr

/-- All kinds of values. -/
def ArgumentKind.all : List ArgumentKind := [.bool, .word32, .word64, .text]

/-- The name of a kind. -/
def ArgumentKind.name : ArgumentKind → String
  | .bool => "bool"
  | .word32 => "u32"
  | .word64 => "u64"
  | .text => "str"

/-- The kind of a value. -/
def Argument.kind : Argument → ArgumentKind
  | .bool _ => .bool
  | .word32 _ => .word32
  | .word64 _ => .word64
  | .text _ => .text

/-- The truth value, if it is one. -/
def Argument.bool? : Argument → Option Bool
  | .bool value => some value
  | _ => none

/-- The 32-bit number, if it is one. -/
def Argument.word32? : Argument → Option UInt32
  | .word32 value => some value
  | _ => none

/-- The 64-bit number, if it is one. -/
def Argument.word64? : Argument → Option UInt64
  | .word64 value => some value
  | _ => none

/-- The text, if it is one. -/
def Argument.text? : Argument → Option String
  | .text value => some value
  | _ => none

/-- What can be wrong with an argument list. -/
inductive ArgumentProblem where
  /-- There is no value at `index`, as there are only `count`. -/
  | missing (index count : Nat)
  /-- The value at `index` is of kind `found`, not of kind `expected`. -/
  | mismatch (index : Nat) (expected found : ArgumentKind)
  deriving DecidableEq, Repr

/-- The text of a problem with the arguments. -/
def ArgumentProblem.message : ArgumentProblem → String
  | .missing index count =>
    "missing argument " ++ toString index ++ " (got " ++ toString count ++ " arguments)"
  | .mismatch index expected found =>
    "argument " ++ toString index ++ " should be " ++ expected.name ++ " but was " ++ found.name

/-- The argument list of an invocation of `method`. -/
structure Arguments where
  /-- The method that is being invoked. -/
  method : MethodId
  /-- The values, in order. -/
  values : List Argument
  deriving DecidableEq, Repr

namespace Arguments

/-- The number of values. -/
def size (args : Arguments) : Nat := args.values.length

/-- Whether there are no values. -/
def isEmpty (args : Arguments) : Bool := args.values.isEmpty

/-- The fault that reports a problem with these arguments. -/
def fault (args : Arguments) (problem : ArgumentProblem) : Fault :=
  .invalidArguments args.method problem.message

/-- Read the value at `index` through `read`, which accepts the values of one kind. -/
def getAs {α : Type} (args : Arguments) (kind : ArgumentKind) (read : Argument → Option α)
    (index : Nat) : Except Fault α :=
  match args.values[index]? with
  | none => .error (args.fault (.missing index args.size))
  | some value =>
    match read value with
    | some a => .ok a
    | none => .error (args.fault (.mismatch index kind value.kind))

/-- The truth value at `index`. -/
def bool (args : Arguments) : Nat → Except Fault Bool := args.getAs .bool Argument.bool?

/-- The 32-bit number at `index`. -/
def word32 (args : Arguments) : Nat → Except Fault UInt32 := args.getAs .word32 Argument.word32?

/-- The 64-bit number at `index`. -/
def word64 (args : Arguments) : Nat → Except Fault UInt64 := args.getAs .word64 Argument.word64?

/-- The text at `index`. -/
def text (args : Arguments) : Nat → Except Fault String := args.getAs .text Argument.text?

/-- The value at `index`, if it is of the given kind. -/
def get (args : Arguments) (kind : ArgumentKind) : Nat → Except Fault Argument :=
  args.getAs kind fun value => if value.kind = kind then some value else none

/-- The values from `index` on, one for each of the given kinds. The first one that is missing or of
another kind is the fault. -/
def getAll (args : Arguments) (index : Nat) : List ArgumentKind → Except Fault (List Argument)
  | [] => .ok []
  | kind :: kinds => do
    let value ← args.get kind index
    let values ← args.getAll (index + 1) kinds
    return value :: values

end Arguments

end SharedWorld
