/-
# Syntax trees

The tree that a text is read as.  Every node carries its tag, the text it was written with and the
place where it starts; a list node is written with its opening bracket, and the root with nothing.
Comments stay in the tree: whoever reads values out of it passes over them.
-/
import CurryLisp.Syntax.Token

namespace CurryLisp

/-- What a node stands for.  Trees that are made by hand may carry tags that no text gives. -/
inductive Tag
  | number
  | symbol
  | string
  | comment
  | sexpr
  | qexpr
  | root
  | other (name : String)
  deriving DecidableEq, Repr

namespace Tag

/-- The name of a tag. -/
def name : Tag → String
  | number => "number"
  | symbol => "symbol"
  | string => "string"
  | comment => "comment"
  | sexpr => "sexpr"
  | qexpr => "qexpr"
  | root => "root"
  | other n => n

/-- The tags that have a meaning. -/
def known : List Tag := [number, symbol, string, comment, sexpr, qexpr, root]

/-- The tag with a given name. -/
def ofName (n : String) : Tag := (known.find? (fun t => t.name == n)).getD (.other n)

/-- The tag of a list between brackets. -/
def ofBracket : Bracket → Tag
  | .round => sexpr
  | .curly => qexpr

end Tag

/-- A node of a syntax tree. -/
structure Node where
  tag : Tag
  contents : String := ""
  children : List Node := []
  position : Position := {}

instance : Inhabited Node := ⟨⟨.root, "", [], {}⟩⟩

namespace Node

/-- The node of a token that is not a bracket. -/
def leaf (tag : Tag) (t : Token) : Node := ⟨tag, t.text, [], t.position⟩

/-- The node of a list between brackets. -/
def list (b : Bracket) (opener : Token) (children : List Node) : Node :=
  ⟨.ofBracket b, opener.text, children, opener.position⟩

/-- The root over the forms of a text. -/
def ofForms (forms : List Node) : Node := ⟨.root, "", forms, {}⟩

end Node

end CurryLisp
