/-
# Texts

The characters of a text, the number it denotes, and parts of it.
-/
import CurryLisp.Library.Arguments
import CurryLisp.Text.Numeral

namespace CurryLisp.Texts

/-- The list of the one-character texts of a text. -/
def chars (func : String) (args : List Value) : Except Failure Value :=
  match args with
  | [v] => do
    let s ← Variant.string.take func 0 v
    return .qexpr (s.toList.map (fun c => .string (String.singleton c)))
  | args => .error (arityFailure func 1 args)

/-- Why the host does not read a text that is a plain numeral, if it does not. -/
def unread? (s : String) : Option Text.NumeralFault :=
  if (Text.plainNumeral? s.toList).isSome then
    match Text.readNumeral s with
    | .ok _ => none
    | .error f => some f
  else none

/-- The number that a text denotes, if it is plain and in range.  This is for texts that the host
reads; about the others nothing is answered. -/
def numberIn (s : String) : Except Failure Value :=
  match Text.plainNumeral? s.toList with
  | some n => if fits n then .ok (.number n) else .error (.invalidNumber s)
  | none => .error (.invalidNumber s)

/-- The number that a text denotes. -/
def int (func : String) (args : List Value) : Except Failure Value :=
  match args with
  | [v] => do numberIn (← Variant.string.take func 0 v)
  | args => .error (arityFailure func 1 args)

/-- The part of a text from one index up to another. -/
def slice (func : String) (s : String) (start stop : Int) : Except Failure Value :=
  if start < 0 ∨ stop < 0 then .error (.outOfRange func (.negativeIndex (min start stop)))
  else if stop < start then .error (.outOfRange func (.startAfterEnd start stop))
  else if (s.length : Int) < stop then .error (.outOfRange func (.endBeyondLength stop s.length))
  else
    .ok (.string (String.ofList ((s.toList.drop start.toNat).take (stop.toNat - start.toNat))))

/-- The part of a text from one index up to another. -/
def substring (func : String) (args : List Value) : Except Failure Value :=
  match args with
  | [v, a, b] => do
    let s ← Variant.string.take func 0 v
    let start ← Variant.number.take func 1 a
    let stop ← Variant.number.take func 2 b
    slice func s start stop
  | args => .error (arityFailure func 3 args)

/-- The failure that carries a program's own message. -/
def error (func : String) (args : List Value) : Except Failure Value :=
  match args with
  | [v] => do throw (.user (← Variant.string.take func 0 v))
  | args => .error (arityFailure func 1 args)

end CurryLisp.Texts
