/-
# From syntax trees to values

A number node outside the range of numbers reads as an error in the tree, so that the rest of the
text can still be used.  Comments are passed over.  The root reads as the round list of all forms.
Reading stops at a number node that the host does not read, because it has too many digits.  A tree
that was made by hand may also hold a node that has no value, or a number node that holds no
numeral; reading it stops there too.
-/
import CurryLisp.Failure
import CurryLisp.Syntax.Node
import CurryLisp.Text.Numeral

namespace CurryLisp

/-- Why a tree has no value. -/
inductive NodeFault
  /-- no value is written with this tag -/
  | unreadable (tag : Tag)
  /-- the host does not read what a number node holds -/
  | badNumeral (f : Text.NumeralFault)
  deriving DecidableEq

/-- Reads the contents of a number node. -/
def numberOf (contents : String) : Except NodeFault Value :=
  match Text.readNumeral contents with
  | .error f => .error (.badNumeral f)
  | .ok n => .ok (if fits n then .number n else (Failure.invalidNumber contents).toValue)

/-- Reads the contents of a string node: the first and the last character are its quotes. -/
def stringOf (contents : String) : Value :=
  .string (String.ofList (Text.unescapeChars (contents.toList.drop 1).dropLast))

namespace Value

mutual

/-- The value of a tree. -/
def ofNode : Node → Except NodeFault Value
  | ⟨tag, contents, children, _⟩ =>
    match tag with
    | .number => numberOf contents
    | .symbol => .ok (.symbol contents)
    | .string => .ok (stringOf contents)
    | .sexpr => (ofNodes children).map .sexpr
    | .root => (ofNodes children).map .sexpr
    | .qexpr => (ofNodes children).map .qexpr
    | .comment => .error (.unreadable .comment)
    | .other n => .error (.unreadable (.other n))

/-- The values of some trees, comments left out. -/
def ofNodes : List Node → Except NodeFault (List Value)
  | [] => .ok []
  | n :: rest =>
    if n.tag = .comment then ofNodes rest
    else match ofNode n with
      | .error e => .error e
      | .ok v => (ofNodes rest).map (v :: ·)

end

/-- The value of a tree that stands alone. -/
theorem ofNodes_single {node : Node} {v : Value} (htag : node.tag ≠ .comment)
    (h : ofNode node = .ok v) : ofNodes [node] = .ok [v] := by
  rw [ofNodes, if_neg htag, h]
  rfl

end Value

end CurryLisp
