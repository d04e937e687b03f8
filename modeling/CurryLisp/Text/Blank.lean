/-
# Blank characters

The reader skips blanks between tokens, and settings are read with the blanks at both ends
taken off.  Both mean the same set of characters: the controls tab to carriage return, the four
information separators, the next-line control, and every character of Unicode's space
separators, line separators and paragraph separators.

`isBlank_of_isWhitespace` says that the set holds every character that core calls whitespace;
`trim_eq_self` and the lemmas beside it say what trimming leaves.
-/

namespace CurryLisp.Text

/-! ## 1. The set -/

/-- A blank: it separates tokens and carries no meaning of its own. -/
def isBlank (c : Char) : Bool :=
  let n := c.toNat
  (9 ≤ n && n ≤ 13) || (0x1C ≤ n && n ≤ 0x20) || n == 0x85 || n == 0xA0 || n == 0x1680 ||
    (0x2000 ≤ n && n ≤ 0x200A) || n == 0x2028 || n == 0x2029 || n == 0x202F || n == 0x205F ||
    n == 0x3000

/-- Core's whitespace (space, tab, line feed, carriage return) is blank. -/
theorem isBlank_of_isWhitespace {c : Char} (h : c.isWhitespace = true) : isBlank c = true := by
  simp only [Char.isWhitespace, Bool.or_eq_true, decide_eq_true_eq] at h
  rcases h with ((rfl | rfl) | rfl) | rfl <;> decide

/-! ## 2. Trimming -/

/-- Takes the blanks off both ends of a list of characters. -/
def trimChars (cs : List Char) : List Char :=
  ((cs.dropWhile isBlank).reverse.dropWhile isBlank).reverse

/-- Takes the blanks off both ends of a text. -/
def trim (s : String) : String :=
  String.ofList (trimChars s.toList)

@[simp] theorem trimChars_nil : trimChars [] = [] := rfl

/-- Characters without a blank are left alone. -/
theorem trimChars_eq_self {cs : List Char} (h : ∀ c ∈ cs, isBlank c = false) :
    trimChars cs = cs := by
  have keep : ∀ l : List Char, (∀ c ∈ l, isBlank c = false) → l.dropWhile isBlank = l := by
    intro l hl
    cases l with
    | nil => rfl
    | cons c r => simp [hl c (by simp)]
  rw [trimChars, keep cs h, keep cs.reverse (by simpa using h), List.reverse_reverse]

/-- A text without a blank is left alone. -/
theorem trim_eq_self {s : String} (h : ∀ c ∈ s.toList, isBlank c = false) : trim s = s := by
  rw [trim, trimChars_eq_self h, String.ofList_toList]

end CurryLisp.Text
