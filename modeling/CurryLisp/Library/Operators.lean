/-
# The operators

What each operator answers.  An operator looks at nothing but its arguments and changes nothing.
Two things can keep it from answering: values that are nested too deeply to be gone through, and a
numeral with too many digits for the host.
-/
import CurryLisp.Host.Calls
import CurryLisp.Library.Lists
import CurryLisp.Library.Numbers
import CurryLisp.Library.Texts

namespace CurryLisp.Operator

/-- Whether two arguments are the same, or not. -/
def compareSame (func : String) (want : Bool) (args : List Value) : Except Failure Value :=
  match args with
  | [a, b] => .ok (.truth (a.same b == want))
  | args => .error (arityFailure func 2 args)

/-- What an operator goes through: values that are compared. -/
def walks (o : Operator) (args : List Value) : List Walk :=
  match o, args with
  | eq, [a, b] => [.comparing a b]
  | ne, [a, b] => [.comparing a b]
  | split, [delimiter, .qexpr cells] => cells.map (.comparing · delimiter)
  | _, _ => []

/-- Why the host does not read the numeral that an operator is given as a text. -/
def fault? (o : Operator) (args : List Value) : Option Text.NumeralFault :=
  match o, args with
  | int, [.string s] => Texts.unread? s
  | _, _ => none

/-- What an operator answers. -/
def run (o : Operator) (args : List Value) : Except Failure Value :=
  match o with
  | list => .ok (.qexpr args)
  | head => Lists.head o.name args
  | tail => Lists.tail o.name args
  | last => Lists.last o.name args
  | join => Lists.join o.name args
  | add => Numbers.foldTotal o.name (· + ·) args
  | sub => Numbers.sub o.name args
  | mul => Numbers.foldTotal o.name (· * ·) args
  | div => Numbers.div o.name args
  | eq => compareSame o.name true args
  | ne => compareSame o.name false args
  | gt => Numbers.compare o.name (fun a b => decide (b < a)) args
  | ge => Numbers.compare o.name (fun a b => decide (b ≤ a)) args
  | lt => Numbers.compare o.name (fun a b => decide (a < b)) args
  | le => Numbers.compare o.name (fun a b => decide (a ≤ b)) args
  | error => Texts.error o.name args
  | rem => Numbers.rem o.name args
  | pow => Numbers.pow o.name args
  | bitAnd => Numbers.bitwise o.name Bool.and args
  | bitOr => Numbers.bitwise o.name Bool.or args
  | bitXor => Numbers.bitwise o.name Bool.xor args
  | shiftLeft => Numbers.shift o.name Numbers.shiftLeft args
  | shiftRight => Numbers.shift o.name Numbers.shiftRight args
  | len => Lists.len o.name args
  | range => Lists.range o.name args
  | sort => Lists.sort o.name args
  | min => Numbers.select o.name Min.min args
  | max => Numbers.select o.name Max.max args
  | abs => Numbers.abs o.name args
  | and => Numbers.all o.name args
  | or => Numbers.any o.name args
  | not => Numbers.negate o.name args
  | chars => Texts.chars o.name args
  | int => Texts.int o.name args
  | substring => Texts.substring o.name args
  | split => Lists.split o.name args

end CurryLisp.Operator
