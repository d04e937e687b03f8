/-
# Values

Programs are values and values are what programs compute.  There are numbers, texts, symbols,
errors, two kinds of lists, and two kinds of functions.  A round list is a form to evaluate, a
curly list is quoted; the empty round list stands for "no result".

An error is a value like any other.  Its kind says what went wrong to whoever wants to branch on
it; the message says it in words.

A function that a program makes holds its parameters, its body, the arguments that it has been
given so far, and the frame it was made in.  The arguments so far are its own: no call changes
them.
-/
import CurryLisp.Builtin

namespace CurryLisp

/-! ## 1. Kinds of errors -/

/-- What went wrong. -/
inductive ErrorKind
  | parseFailure
  | unboundSymbol
  | arityMismatch
  | typeMismatch
  | divisionByZero
  | notAFunction
  | tooManyArguments
  | invalidVariadicSignature
  | loadFailure
  | overflow
  | outOfRange
  | user
  deriving DecidableEq, Repr

namespace ErrorKind

/-- The name of a kind. -/
def name : ErrorKind → String
  | parseFailure => "parse-failure"
  | unboundSymbol => "unbound-symbol"
  | arityMismatch => "arity-mismatch"
  | typeMismatch => "type-mismatch"
  | divisionByZero => "division-by-zero"
  | notAFunction => "not-a-function"
  | tooManyArguments => "too-many-arguments"
  | invalidVariadicSignature => "invalid-variadic-signature"
  | loadFailure => "load-failure"
  | overflow => "overflow"
  | outOfRange => "out-of-range"
  | user => "user"

/-- Every kind of error. -/
def all : List ErrorKind :=
  [parseFailure, unboundSymbol, arityMismatch, typeMismatch, divisionByZero, notAFunction,
   tooManyArguments, invalidVariadicSignature, loadFailure, overflow, outOfRange, user]

/-- The kind with a given name. -/
def ofName? (n : String) : Option ErrorKind := all.find? (fun k => k.name == n)

end ErrorKind

/-! ## 2. Parameters -/

/-- The symbol that introduces the rest parameter in a parameter list. -/
def restMarker : String := "&"

/-- The parameters of a function: the ones that each take an argument, and the one that takes
whatever arguments are left, if there is one. -/
structure Formals where
  required : List String := []
  rest : Option String := none
  deriving DecidableEq, Repr

namespace Formals

/-- The symbols of a parameter list as it is written. -/
def names (f : Formals) : List String :=
  f.required ++ match f.rest with
    | none => []
    | some r => [restMarker, r]

/-- How many names a parameter list binds. -/
def count (f : Formals) : Nat := f.required.length + if f.rest.isSome then 1 else 0

/-- Where a list is cut by a count that, when negative, counts from the end. -/
def cutAt (length : Nat) (n : Int) : Nat := if n < 0 then (length + n).toNat else n.toNat

/-- The parameters left when the first `n` required ones are bound; a negative `n` leaves that many
required ones. -/
def drop (f : Formals) (n : Int) : Formals :=
  { f with required := f.required.drop (cutAt f.required.length n) }

@[simp] theorem drop_natCast (f : Formals) (n : Nat) :
    f.drop n = { f with required := f.required.drop n } := by
  have h : ¬ ((n : Int) < 0) := by omega
  simp [drop, cutAt, h]

end Formals

/-! ## 3. Values -/

/-- The number of a frame in the store: frames are numbered in the order in which they are made. -/
abbrev FrameId := Nat

/-- A value. -/
inductive Value
  | number (n : Int)
  | string (text : String)
  | symbol (name : String)
  | error (message : String) (kind : ErrorKind)
  | sexpr (cells : List Value)
  | qexpr (cells : List Value)
  | builtin (b : Builtin)
  /-- A function with the arguments it has so far, in the order they were bound, and the frame
  around them. -/
  | lambda (formals : Formals) (body : List Value) (own : List (String × Value))
      (scope : Option FrameId)

instance : Inhabited Value := ⟨.sexpr []⟩

/-- The variants of values as programs are told about them: the two kinds of functions are one. -/
inductive Shape
  | number
  | string
  | symbol
  | error
  | sexpr
  | qexpr
  | function
  deriving DecidableEq, Repr

/-- The name of a variant. -/
def Shape.name : Shape → String
  | number => "Number"
  | string => "String"
  | symbol => "Symbol"
  | error => "Error"
  | sexpr => "S-Expression"
  | qexpr => "Q-Expression"
  | function => "Function"

namespace Value

/-- The variant of a value. -/
def shape : Value → Shape
  | number _ => .number
  | string _ => .string
  | symbol _ => .symbol
  | error _ _ => .error
  | sexpr _ => .sexpr
  | qexpr _ => .qexpr
  | builtin _ => .function
  | lambda _ _ _ _ => .function

/-- The value of a form that is evaluated for its effect only. -/
def unit : Value := sexpr []

/-- The truth values: one for true, zero for false. -/
def truth (b : Bool) : Value := number (if b then 1 else 0)

/-- Whether a value is an error. -/
def isError : Value → Bool
  | error _ _ => true
  | _ => false

/-- A list of symbols. -/
def symbols (names : List String) : List Value := names.map symbol

/-- A parameter list as a program writes it. -/
def ofFormals (f : Formals) : Value := qexpr (symbols f.names)

@[simp] theorem shape_unit : unit.shape = .sexpr := rfl
@[simp] theorem isError_unit : unit.isError = false := rfl
@[simp] theorem isError_truth (b : Bool) : (truth b).isError = false := rfl

/-- A value is an error exactly when its variant is. -/
theorem isError_iff {v : Value} : v.isError = true ↔ v.shape = .error := by
  cases v <;> simp [isError, shape]

end Value

/-! ## 4. The range of numbers -/

/-- The smallest number. -/
def minNumber : Int := -9223372036854775808

/-- The largest number. -/
def maxNumber : Int := 9223372036854775807

/-- Whether a number fits the range of numbers. -/
def fits (n : Int) : Bool := minNumber ≤ n && n ≤ maxNumber

theorem fits_iff {n : Int} : fits n = true ↔ minNumber ≤ n ∧ n ≤ maxNumber := by
  simp [fits]

end CurryLisp
