/-
# What tokens look like

A token has a kind and a text, and cutting makes the text fit the kind: a bracket is its character,
a symbol is a single symbol token, and a number is a numeral (`proper_of_mem_lex`).  Whoever knows
the kind of a token of a text need not go back to its characters.

* `isSymbolToken_run`, `isNumeral_run`: the two kinds of lexemes that are runs;
* `numeral?_of_isNumeral`: the plain and the lenient reading of a numeral agree;
* `Token.isTooLong`: numerals with too many digits for the host;
* `ofNode_number`: what a number token reads as.
-/
import CurryLisp.Proofs.RoundTrip
import Mathlib.Data.List.TakeWhile

namespace CurryLisp

/-! ## 1. Kinds and texts -/

/-- The text is a numeral: ASCII digits, with a minus before them or without. -/
def IsNumeral (text : String) : Prop :=
  ∃ ds, ds ≠ [] ∧ (∀ d ∈ ds, d.isDigit = true) ∧
    (text.toList = ds ∨ text.toList = '-' :: ds)

/-- The text of a token is as its kind says. -/
def Token.Proper (t : Token) : Prop :=
  match t.kind with
  | .opener b => t.text = String.singleton b.openChar
  | .closer b => t.text = String.singleton b.closeChar
  | .symbol => IsSymbolToken t.text
  | .number => IsNumeral t.text
  | .string | .comment => True

section Runs

variable {c : Char} {rest : List Char}

theorem isSymbolToken_run (hc : isSymbolChar c = true) (hstart : startsNumber c rest = false) :
    IsSymbolToken (String.ofList (c :: (takeRun isSymbolChar rest).1)) := by
  refine ⟨c, (takeRun isSymbolChar rest).1, String.toList_ofList, ?_, ?_⟩
  · cases rest with
    | nil => exact hstart
    | cons d more =>
      by_cases hd : isSymbolChar d = true
      · simpa [takeRun, hd, startsNumber] using hstart
      · -- The run is empty, and what it leaves begins with no digit.
        simp_all [takeRun, startsNumber]
  · intro d hd
    rcases List.mem_cons.mp hd with rfl | hd
    · exact hc
    · exact List.mem_takeWhile_imp hd

theorem isNumeral_run (hstart : startsNumber c rest = true) :
    IsNumeral (String.ofList (c :: (takeRun Char.isDigit rest).1)) := by
  have hrun : ∀ d ∈ (takeRun Char.isDigit rest).1, d.isDigit = true := fun d hd =>
    List.mem_takeWhile_imp hd
  rcases Bool.or_eq_true_iff.mp hstart with hc | hc
  · refine ⟨_, List.cons_ne_nil _ _, fun d hd => ?_, Or.inl String.toList_ofList⟩
    rcases List.mem_cons.mp hd with rfl | hd
    · exact hc
    · exact hrun d hd
  · obtain ⟨hminus, hdigit⟩ := Bool.and_eq_true_iff.mp hc
    obtain rfl : c = '-' := by simpa using hminus
    refine ⟨_, ?_, hrun, Or.inr String.toList_ofList⟩
    cases rest with
    | nil => exact absurd hdigit (by decide)
    | cons d more =>
      have hd : d.isDigit = true := hdigit
      simp [takeRun, hd]

end Runs

/-- A lexeme makes a proper token, wherever it stands. -/
theorem proper_of_lexeme? {cs : List Char} {l : Lexeme} (h : lexeme? cs = some l)
    (p : Position) : Token.Proper ⟨l.kind, String.ofList l.chars, p⟩ := by
  revert h
  fun_cases lexeme? cs with
  | case1 | case10 => exact fun h => nomatch h
  | case2 =>
    rintro ⟨⟩
    trivial
  | case3 | case4 | case5 | case6 =>
    rintro ⟨⟩
    rfl
  | case7 rest =>
    intro h
    obtain ⟨r, -, rfl⟩ := Option.map_eq_some_iff.mp h
    trivial
  | case8 c rest _ _ _ _ _ _ hstart =>
    rintro ⟨⟩
    exact isNumeral_run hstart
  | case9 c rest _ _ _ _ _ _ hstart hc =>
    rintro ⟨⟩
    exact isSymbolToken_run hc (Bool.eq_false_iff.mpr hstart)

theorem proper_of_mem_lexFrom (p : Position) (cs : List Char) :
    ∀ t ∈ (lexFrom p cs).tokens, t.Proper := by
  fun_induction lexFrom p cs with
  | case1 | case3 => exact fun t ht => absurd ht List.not_mem_nil
  | case2 _ _ _ _ ih => exact ih
  | case4 p c rest hblank l hl ih =>
    intro t ht
    rcases List.mem_cons.mp ht with rfl | ht
    · exact proper_of_lexeme? hl p
    · exact ih t ht

/-- **Every token of a text is proper.** -/
theorem proper_of_mem_lex {source : String} {t : Token} (h : t ∈ (lex source).tokens) : t.Proper :=
  proper_of_mem_lexFrom _ _ t h

/-- A numeral begins like a number and goes on with digits. -/
theorem IsNumeral.exists_cons {text : String} (h : IsNumeral text) :
    ∃ c more, text.toList = c :: more ∧ isSymbolChar c = true ∧
      (∀ rest, startsNumber c (more ++ rest) = true) ∧ ∀ d ∈ more, d.isDigit = true := by
  obtain ⟨ds, hne, hds, htext⟩ := h
  cases ds with
  | nil => exact absurd rfl hne
  | cons c more =>
    have hc : c.isDigit = true := hds c List.mem_cons_self
    rcases htext with htext | htext
    · refine ⟨c, more, htext, isSymbolChar_of_isDigit hc, fun rest => ?_,
        fun d hd => hds d (List.mem_cons_of_mem _ hd)⟩
      rw [startsNumber, hc, Bool.true_or]
    · refine ⟨'-', c :: more, htext, by decide, fun rest => ?_, hds⟩
      simp [startsNumber, hc]

/-! ## 2. What numerals denote -/

section Numerals

open Text

/-- What a numeral is made of: its sign is taken off, and its digits are left. -/
theorem IsNumeral.exists_takeSign {text : String} (h : IsNumeral text) :
    ∃ negative ds, takeSign text.toList = (negative, ds) ∧ ds ≠ [] ∧
      (∀ d ∈ ds, d.isDigit = true) ∧ (∀ c ∈ text.toList, isBlank c = false) ∧
      text.toList.filter Char.isDigit = ds := by
  obtain ⟨ds, hne, hds, htext⟩ := h
  have hkept : ds.filter Char.isDigit = ds := List.filter_eq_self.mpr hds
  have hblank : ∀ d ∈ ds, isBlank d = false := fun d hd =>
    isBlank_of_isSymbolChar (isSymbolChar_of_isDigit (hds d hd))
  rcases htext with h | h
  · exact ⟨false, ds, by rw [h, takeSign_of_isDigit hds], hne, hds, h ▸ hblank, by rw [h, hkept]⟩
  · refine ⟨true, ds, by rw [h]; rfl, hne, hds, fun c hc => ?_, ?_⟩
    · rw [h] at hc
      rcases List.mem_cons.mp hc with rfl | hc
      · decide
      · exact hblank c hc
    · rw [h, List.filter_cons_of_neg (by decide), hkept]

/-- **Both readings of a numeral give the number that its digits denote.** -/
theorem numeral?_of_isNumeral {text : String} (h : IsNumeral text) :
    ∃ n, plainNumeral? text.toList = some n ∧ lenientNumeral? text.toList = some n := by
  obtain ⟨negative, ds, hsign, hne, hds, hblank, -⟩ := h.exists_takeSign
  refine ⟨signed negative (ofDigits (ds.map asciiValue)), ?_, ?_⟩
  · simp [plainNumeral?, hsign, hne, List.all_eq_true.mpr hds]
  · simp [lenientNumeral?, trimNumeral_eq_self hblank, hsign, brokenDigits?_of_ne_nil hne hds]

/-- The digits of a numeral are counted. -/
theorem leadingDigits_of_isNumeral {text : String} (h : IsNumeral text) :
    leadingDigits text.toList = (text.toList.filter Char.isDigit).length := by
  obtain ⟨negative, ds, hsign, -, hds, hblank, hkept⟩ := h.exists_takeSign
  rw [leadingDigits_of_isDigit hblank hsign hds, hkept]

end Numerals

/-! ## 3. What number tokens read as -/

namespace Token

/-- Whether a token is a numeral with too many digits for the host. -/
def isTooLong (t : Token) : Bool :=
  t.kind = .number && Text.maxDigits < Text.leadingDigits t.text.toList

/-- Why the host does not read a numeral with too many digits. -/
def unread (t : Token) : NodeFault := .badNumeral (.tooLong (Text.leadingDigits t.text.toList))

theorem isTooLong_of_kind {t : Token} (hk : t.kind ≠ .number) : t.isTooLong = false := by
  rw [isTooLong, decide_eq_false hk, Bool.false_and]

end Token

/-- **A number token** with not too many digits reads as a number in range or as an error, and one
with too many is not read. -/
theorem ofNode_number {t : Token} (hk : t.kind = .number) (ht : t.Proper) :
    ∃ n, Text.plainNumeral? t.text.toList = some n ∧
      Value.ofNode (.leaf .number t) =
        if t.isTooLong then .error t.unread
        else .ok (if fits n then .number n else (Failure.invalidNumber t.text).toValue) := by
  have hnumeral : IsNumeral t.text := by
    rw [Token.Proper, hk] at ht
    exact ht
  obtain ⟨n, hplain, hlenient⟩ := numeral?_of_isNumeral hnumeral
  refine ⟨n, hplain, ?_⟩
  rw [Node.leaf, Value.ofNode, numberOf, Text.readNumeral, hlenient, Token.isTooLong,
    decide_eq_true hk, Bool.true_and]
  by_cases hlong : Text.maxDigits < Text.leadingDigits t.text.toList
  · rw [if_pos hlong, if_pos (decide_eq_true hlong)]
    rfl
  · rw [if_neg hlong, if_neg (by simpa using hlong)]

end CurryLisp
