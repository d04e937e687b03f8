/-
# Tokens

The vocabulary of the reader: positions in a text, the two kinds of brackets, tokens, and the
faults that a text can have.  A position counts lines and columns from one, and only a line feed
ends a line.
-/

namespace CurryLisp

/-! ## 1. Positions -/

/-- A place in a text. -/
structure Position where
  line : Nat := 1
  column : Nat := 1
  deriving DecidableEq, Repr, Inhabited

namespace Position

/-- The position after one more character. -/
def advance (p : Position) (c : Char) : Position :=
  if c = '\n' then ⟨p.line + 1, 1⟩ else ⟨p.line, p.column + 1⟩

/-- The position after some more characters. -/
def advanceOver (p : Position) (cs : List Char) : Position := cs.foldl advance p

@[simp] theorem advanceOver_nil (p : Position) : p.advanceOver [] = p := rfl

@[simp] theorem advanceOver_cons (p : Position) (c : Char) (cs : List Char) :
    p.advanceOver (c :: cs) = (p.advance c).advanceOver cs := rfl

@[simp] theorem advanceOver_append (p : Position) (cs ds : List Char) :
    p.advanceOver (cs ++ ds) = (p.advanceOver cs).advanceOver ds := by
  simp [advanceOver]

end Position

/-! ## 2. Tokens -/

/-- The two kinds of brackets: round ones enclose a form to evaluate, curly ones a quoted list. -/
inductive Bracket
  | round
  | curly
  deriving DecidableEq, Repr

namespace Bracket

/-- The character that opens a list. -/
def openChar : Bracket → Char
  | round => '('
  | curly => '\x7b'

/-- The character that closes a list. -/
def closeChar : Bracket → Char
  | round => ')'
  | curly => '\x7d'

end Bracket

/-- What a token is. -/
inductive TokenKind
  | comment
  | opener (b : Bracket)
  | closer (b : Bracket)
  | string
  | number
  | symbol
  deriving DecidableEq, Repr

/-- The name of a kind of token. -/
def TokenKind.name : TokenKind → String
  | comment => "comment"
  | opener .round => "lparen"
  | closer .round => "rparen"
  | opener .curly => "lbrace"
  | closer .curly => "rbrace"
  | string => "string"
  | number => "number"
  | symbol => "symbol"

/-- A token: its text as it stands in the source, and where it starts. -/
structure Token where
  kind : TokenKind
  text : String
  position : Position
  deriving DecidableEq, Repr

/-! ## 3. Faults -/

/-- What is wrong with a text that cannot be read. -/
inductive SyntaxDetail
  /-- a double quote opens a string that nothing closes -/
  | unterminatedString
  /-- a character starts no token -/
  | unexpectedChar (c : Char)
  /-- a closing bracket closes nothing, or not the list that is open -/
  | strayCloser (b : Bracket)
  /-- the text ends inside a list -/
  | unclosed (b : Bracket)
  deriving DecidableEq, Repr

/-- A fault and the place where it shows. -/
structure SyntaxFault where
  detail : SyntaxDetail
  position : Position
  deriving DecidableEq, Repr

end CurryLisp
