/-
# The printed form of values

How `print` and the command line show a value.  Texts are shown as literals, lists between their
brackets with one space between cells, and functions as the form that makes them; what a function
has been given so far and where it was made is not shown.
-/
import CurryLisp.Value
import CurryLisp.Syntax.Token
import CurryLisp.Text.Escape

namespace CurryLisp

/-! ## 1. Pieces -/

/-- A number in decimal, with a minus when it is negative. -/
def decimalChars (n : Int) : List Char :=
  if n < 0 then '-' :: Nat.toDigits 10 n.natAbs else Nat.toDigits 10 n.natAbs

/-- A text between double quotes. -/
def literalChars (cs : List Char) : List Char := '"' :: (Text.escapeChars cs ++ ['"'])

/-- Something between brackets. -/
def bracketed (b : Bracket) (cs : List Char) : List Char :=
  b.openChar :: (cs ++ [b.closeChar])

/-- Words with one space between them. -/
def spaced : List (List Char) → List Char
  | [] => []
  | [w] => w
  | w :: v :: rest => w ++ ' ' :: spaced (v :: rest)

/-- The printed form of a parameter list. -/
def Formals.chars (f : Formals) : List Char :=
  bracketed .curly (spaced (f.names.map String.toList))

/-- The printed form of a parameter list. -/
def Formals.text (f : Formals) : String := String.ofList f.chars

/-! ## 2. Values -/

namespace Value

mutual

/-- The printed form of a value. -/
def chars : Value → List Char
  | number n => decimalChars n
  | string s => literalChars s.toList
  | symbol s => s.toList
  | error m _ => "error: ".toList ++ m.toList
  | sexpr cells => bracketed .round (cellsChars cells)
  | qexpr cells => bracketed .curly (cellsChars cells)
  | builtin _ => "<builtin>".toList
  | lambda f body _ _ =>
    bracketed .round ('\\' :: ' ' :: (f.chars ++ ' ' :: bracketed .curly (cellsChars body)))

/-- The printed forms of some values with one space between them. -/
def cellsChars : List Value → List Char
  | [] => []
  | [v] => v.chars
  | v :: w :: rest => v.chars ++ ' ' :: cellsChars (w :: rest)

end

theorem chars_number (n : Int) : (number n).chars = decimalChars n := rfl

theorem chars_string (s : String) : (string s).chars = literalChars s.toList := rfl

theorem chars_symbol (s : String) : (symbol s).chars = s.toList := rfl

theorem chars_sexpr (cells : List Value) :
    (sexpr cells).chars = bracketed .round (cellsChars cells) := rfl

theorem chars_qexpr (cells : List Value) :
    (qexpr cells).chars = bracketed .curly (cellsChars cells) := rfl

theorem chars_lambda (f : Formals) (body : List Value) (own : List (String × Value))
    (scope : Option FrameId) : (lambda f body own scope).chars =
      bracketed .round ('\\' :: ' ' :: (f.chars ++ ' ' :: bracketed .curly (cellsChars body))) :=
  rfl

/-- The printed form of a value. -/
def text (v : Value) : String := String.ofList v.chars

@[simp] theorem toList_text (v : Value) : v.text.toList = v.chars := by
  simp [text]

/-- The printed forms of some values are set side by side. -/
theorem cellsChars_eq_spaced (vs : List Value) : cellsChars vs = spaced (vs.map chars) := by
  induction vs with
  | nil => simp [cellsChars, spaced]
  | cons v rest ih =>
    cases rest with
    | nil => simp [cellsChars, spaced]
    | cons w rest' => simp_all [cellsChars, spaced]

end Value

end CurryLisp
