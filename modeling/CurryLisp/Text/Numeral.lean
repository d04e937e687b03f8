/-
# Numerals

Two readings of a text as a whole number.  The plain one is an optional sign and ASCII digits and
nothing else.  The lenient one allows blanks around the numeral, decimal digits of every script,
and a single underscore between two digits.  The host reads a text in this way, but it does not
read a numeral of very many digits, and it gives up on one before it looks at what follows the
digits.  A text that it does not read is answered with a complaint.
-/
import CurryLisp.Text.Blank
import CurryLisp.Text.Digit
import CurryLisp.Text.Quoted

namespace CurryLisp.Text

/-! ## 1. Digits to numbers -/

/-- The number that a list of digits, most significant first, denotes in base ten. -/
def ofDigits (ds : List Nat) : Nat := ds.foldl (fun n d => 10 * n + d) 0

/-- The value of an ASCII digit. -/
def asciiValue (c : Char) : Nat := c.toNat - '0'.toNat

/-- Gives a number the sign that stood before it. -/
def signed (negative : Bool) (n : Nat) : Int := if negative then -(n : Int) else n

/-- Takes a sign off the front of a numeral and says whether it was a minus. -/
def takeSign : List Char → Bool × List Char
  | c :: rest => if c = '-' then (true, rest) else if c = '+' then (false, rest) else (false, c :: rest)
  | [] => (false, [])

/-! ## 2. The plain reading -/

/-- An optional sign and one or more ASCII digits. -/
def plainNumeral? (cs : List Char) : Option Int :=
  let (negative, ds) := takeSign cs
  if ds.isEmpty || !ds.all Char.isDigit then none
  else some (signed negative (ofDigits (ds.map asciiValue)))

/-! ## 3. The lenient reading -/

/-- The digits of a numeral in which an underscore may stand between two digits.  The flag says
whether a digit came last. -/
def brokenDigits? : Bool → List Char → Option (List Nat)
  | afterDigit, [] => if afterDigit then some [] else none
  | afterDigit, c :: rest =>
    if c = '_' then
      if afterDigit then brokenDigits? false rest else none
    else match decimalValue? c with
      | some d => (brokenDigits? true rest).map (d :: ·)
      | none => none

/-- The blanks that may stand around a numeral: all but the information separators. -/
def isNumeralBlank (c : Char) : Bool :=
  isBlank c && !(0x1C ≤ c.toNat && c.toNat ≤ 0x1F)

/-- Takes the blanks off both ends of a numeral. -/
def trimNumeral (cs : List Char) : List Char :=
  ((cs.dropWhile isNumeralBlank).reverse.dropWhile isNumeralBlank).reverse

/-- A numeral with blanks around it, digits of any script, and underscores between digits. -/
def lenientNumeral? (cs : List Char) : Option Int :=
  let (negative, ds) := takeSign (trimNumeral cs)
  (brokenDigits? false ds).map (fun ds => signed negative (ofDigits ds))

/-! ## 4. What the host reads -/

/-- The most digits of a numeral that the host reads. -/
def maxDigits : Nat := 4300

/-- The characters that a numeral goes on with after its sign. -/
def isNumeralChar (c : Char) : Bool := c == '_' || isDecimal c

/-- How many digits a text begins with, behind blanks and a sign.  If underscores stand among them
in places where they may not, the text does not begin with a numeral. -/
def leadingDigits (cs : List Char) : Nat :=
  let run := (takeSign (trimNumeral cs)).2.takeWhile isNumeralChar
  ((brokenDigits? false run).getD []).length

/-- Why the host does not read a text as a number. -/
inductive NumeralFault
  /-- the text is no numeral -/
  | malformed (text : String)
  /-- the text begins with so many digits that the host does not read on -/
  | tooLong (digits : Nat)
  deriving DecidableEq

/-- A fault in words.  The text that is quoted is cut off after two hundred characters. -/
def NumeralFault.message : NumeralFault → String
  | malformed text =>
    "invalid literal for int() with base 10: " ++
      String.ofList ((quoteChars text.toList).take 200)
  | tooLong digits =>
    s!"Exceeds the limit ({maxDigits} digits) for integer string conversion: value has " ++
      s!"{digits} digits; use sys.set_int_max_str_digits() to increase the limit"

/-- Reads a text as a number. -/
def readNumeral (s : String) : Except NumeralFault Int :=
  if maxDigits < leadingDigits s.toList then .error (.tooLong (leadingDigits s.toList))
  else match lenientNumeral? s.toList with
    | some n => .ok n
    | none => .error (.malformed s)

end CurryLisp.Text
