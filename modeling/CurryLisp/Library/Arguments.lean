/-
# Checking arguments

A builtin checks how many arguments it is given before it looks at them, and then looks at them
from left to right, so that the first argument that does not fit is the one that is reported.
`Variant` joins the variant that is wanted with what a value of that variant holds.
-/
import CurryLisp.Failure

namespace CurryLisp

/-! ## 1. One argument -/

/-- A variant of values, and what a value of that variant holds. -/
structure Variant (α : Type) where
  shape : Shape
  get? : Value → Option α

namespace Variant

/-- Numbers. -/
def number : Variant Int := ⟨.number, fun | .number n => some n | _ => none⟩

/-- Texts. -/
def string : Variant String := ⟨.string, fun | .string s => some s | _ => none⟩

/-- Symbols. -/
def symbol : Variant String := ⟨.symbol, fun | .symbol s => some s | _ => none⟩

/-- Quoted lists. -/
def qexpr : Variant (List Value) := ⟨.qexpr, fun | .qexpr cs => some cs | _ => none⟩

variable {α : Type}

/-- What the argument with a given number holds. -/
def take (k : Variant α) (func : String) (index : Nat) (v : Value) : Except Failure α :=
  match k.get? v with
  | some a => .ok a
  | none => .error (.wrongType func index (.shape k.shape) v.shape)

/-! ## 2. All arguments -/

/-- What the arguments hold, numbered from a given number on. -/
def takeFrom (k : Variant α) (func : String) (index : Nat) :
    List Value → Except Failure (List α)
  | [] => .ok []
  | v :: rest =>
    match k.take func index v with
    | .error f => .error f
    | .ok a => (k.takeFrom func (index + 1) rest).map (a :: ·)

/-- What the arguments hold. -/
def takeAll (k : Variant α) (func : String) (args : List Value) : Except Failure (List α) :=
  k.takeFrom func 0 args

@[simp] theorem takeFrom_nil (k : Variant α) (func : String) (index : Nat) :
    k.takeFrom func index [] = .ok [] := rfl

theorem take_of_get? {k : Variant α} {v : Value} {a : α} (h : k.get? v = some a)
    (func : String) (index : Nat) : k.take func index v = .ok a := by
  simp [take, h]

/-- One thing is held by each argument. -/
theorem takeFrom_length {k : Variant α} {func : String} {index : Nat} {args : List Value}
    {as : List α} (h : k.takeFrom func index args = .ok as) : as.length = args.length := by
  induction args generalizing index as with
  | nil => cases h; rfl
  | cons v rest ih =>
    unfold takeFrom at h
    split at h
    · cases h
    · cases hr : k.takeFrom func (index + 1) rest with
      | error f => rw [hr] at h; cases h
      | ok bs =>
        rw [hr] at h
        cases h
        simp [ih hr]

end Variant

/-! ## 3. How many arguments -/

/-- The failure of a call with a number of arguments that is not the one expected. -/
def arityFailure (func : String) (n : Nat) (args : List Value) : Failure :=
  .arity func (.exactly n) args.length

/-- The failure of a call without arguments where one is needed. -/
def noArguments (func : String) : Failure := .arity func .atLeastOne 0

end CurryLisp
