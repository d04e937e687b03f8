/-
# Printed pieces are lexemes

A numeral, a symbol and a text as they are printed are each cut off as one lexeme, whatever comes
after them, as long as what comes after a numeral or a symbol does not go on with it (`Apart`).  So
are brackets.

* `lexeme?_number`, `lexeme?_symbol`, `lexeme?_string`, `lexeme?_open`, `lexeme?_close`;
* `leadingDigits_of_takeSign`, `readNumeral_of_lenient`: how many digits a numeral has, and what the
  host reads if they are not too many;
* `numberOf_decimal`, `stringOf_literal`: a numeral and a text are read as what they were printed
  from.
-/
import CurryLisp.Syntax.Lexer
import CurryLisp.Value.OfNode
import Mathlib.Data.List.Forall2
import Mathlib.Data.List.TakeWhile
import Mathlib.Data.Nat.Digits.Defs

namespace CurryLisp

/-! ## 1. Characters -/

theorem isSymbolChar_of_isDigit {c : Char} (h : c.isDigit = true) : isSymbolChar c = true := by
  simp [isSymbolChar, Char.isAlphanum, h]

/-- Letters and digits lie between the digit zero and the letter z. -/
theorem toNat_of_isAlphanum {c : Char} (h : c.isAlphanum = true) :
    48 ≤ c.toNat ∧ c.toNat ≤ 122 := by
  rcases Bool.or_eq_true_iff.mp h with h | h
  · rcases Bool.or_eq_true_iff.mp h with h | h
    · have hupper : 65 ≤ c.toNat ∧ c.toNat ≤ 90 := of_decide_eq_true h
      omega
    · obtain ⟨h₁, h₂⟩ := Bool.and_eq_true_iff.mp h
      have hlow : 97 ≤ c.toNat := of_decide_eq_true h₁
      have hhigh : c.toNat ≤ 122 := of_decide_eq_true h₂
      omega
  · obtain ⟨h₁, h₂⟩ := Bool.and_eq_true_iff.mp h
    have hlow : 48 ≤ c.toNat := of_decide_eq_true h₁
    have hhigh : c.toNat ≤ 57 := of_decide_eq_true h₂
    omega

/-- No blank belongs to a symbol. -/
theorem isBlank_of_isSymbolChar {c : Char} (h : isSymbolChar c = true) :
    Text.isBlank c = false := by
  rcases Bool.or_eq_true_iff.mp h with h | h
  · obtain ⟨hlow, hhigh⟩ := toNat_of_isAlphanum h
    simp [Text.isBlank]
    omega
  · have hall : ("_+-*/\\=<>!&%|^".toList.all fun d => !Text.isBlank d) = true := by decide
    have hc := List.all_eq_true.mp hall c (List.contains_iff_mem.mp h)
    simpa using hc

/-- A character that begins something else belongs to no symbol. -/
theorem ne_of_isSymbolChar {c d : Char} (h : isSymbolChar c = true) (hd : isSymbolChar d = false) :
    c ≠ d := by
  rintro rfl
  rw [h] at hd
  cases hd

/-! ## 2. Where a run ends -/

/-- What follows does not go on with a symbol or a numeral. -/
def Apart (rest : List Char) : Prop := ∀ c ∈ rest.head?, isSymbolChar c = false

theorem apart_nil : Apart [] := fun _ h => nomatch h

theorem apart_cons {c : Char} (h : isSymbolChar c = false) (rest : List Char) :
    Apart (c :: rest) := by
  intro d hd
  cases hd
  exact h

/-- A run ends where its predicate first fails. -/
theorem takeRun_of_all {p : Char → Bool} {cs rest : List Char} (h : ∀ c ∈ cs, p c = true)
    (hrest : ∀ c ∈ rest.head?, p c = false) : takeRun p (cs ++ rest) = (cs, rest) := by
  rw [takeRun, List.takeWhile_append_of_pos h, List.dropWhile_append_of_pos h]
  cases rest with
  | nil => simp
  | cons c more =>
    have hc : p c = false := hrest c rfl
    simp [hc]

/-! ## 3. Lexemes -/

section Lexemes

variable {c : Char} {more rest : List Char}

theorem lexeme?_open (b : Bracket) (rest : List Char) :
    lexeme? (b.openChar :: rest) = some (.single (.opener b) b.openChar rest) := by
  cases b <;> rfl

theorem lexeme?_close (b : Bracket) (rest : List Char) :
    lexeme? (b.closeChar :: rest) = some (.single (.closer b) b.closeChar rest) := by
  cases b <;> rfl

/-- What begins with a character of a symbol is a numeral or a symbol. -/
theorem lexeme?_of_isSymbolChar (h : isSymbolChar c = true) :
    lexeme? (c :: rest) = if startsNumber c rest then some (.run .number Char.isDigit c rest)
      else some (.run .symbol isSymbolChar c rest) := by
  have hcomment : c ≠ ';' := ne_of_isSymbolChar h (by decide)
  have hopen : ∀ b : Bracket, c ≠ b.openChar := fun b =>
    ne_of_isSymbolChar h (by cases b <;> decide)
  have hclose : ∀ b : Bracket, c ≠ b.closeChar := fun b =>
    ne_of_isSymbolChar h (by cases b <;> decide)
  have hquote : c ≠ '"' := ne_of_isSymbolChar h (by decide)
  rw [lexeme?, if_neg hcomment, if_neg (hopen .round), if_neg (hclose .round),
    if_neg (hopen .curly), if_neg (hclose .curly), if_neg hquote, if_pos h]

/-- **A numeral is one lexeme.** -/
theorem lexeme?_number (hc : isSymbolChar c = true) (hstart : startsNumber c (more ++ rest) = true)
    (hmore : ∀ d ∈ more, d.isDigit = true) (hrest : Apart rest) :
    lexeme? (c :: (more ++ rest)) = some ⟨.number, c :: more, rest⟩ := by
  have hstop : ∀ d ∈ rest.head?, d.isDigit = false := by
    intro d hd
    rw [Bool.eq_false_iff]
    intro hdigit
    exact absurd (isSymbolChar_of_isDigit hdigit) (Bool.eq_false_iff.mp (hrest d hd))
  rw [lexeme?_of_isSymbolChar hc, if_pos hstart, Lexeme.run, takeRun_of_all hmore hstop]

/-- **A symbol is one lexeme.** -/
theorem lexeme?_symbol (hc : isSymbolChar c = true) (hstart : startsNumber c more = false)
    (hmore : ∀ d ∈ more, isSymbolChar d = true) (hrest : Apart rest) :
    lexeme? (c :: (more ++ rest)) = some ⟨.symbol, c :: more, rest⟩ := by
  have hsame : startsNumber c (more ++ rest) = false := by
    cases more with
    | cons d more => exact hstart
    | nil =>
      cases rest with
      | nil => exact hstart
      | cons d rest =>
        have hd : d.isDigit = false := by
          rw [Bool.eq_false_iff]
          intro hdigit
          exact absurd (isSymbolChar_of_isDigit hdigit) (Bool.eq_false_iff.mp (hrest d rfl))
        simp_all [startsNumber]
  rw [lexeme?_of_isSymbolChar hc, hsame, if_neg Bool.false_ne_true, Lexeme.run,
    takeRun_of_all hmore hrest]

theorem closeString?_quote (rest : List Char) : closeString? ('"' :: rest) = some (['"'], rest) := by
  rw [closeString?.eq_def]
  rfl

theorem closeString?_escape (d : Char) (rest : List Char) :
    closeString? ('\\' :: d :: rest) =
      (closeString? rest).map (fun r => ('\\' :: d :: r.1, r.2)) := by
  rw [closeString?.eq_def]
  rfl

theorem closeString?_plain {c : Char} (hquote : c ≠ '"') (hback : c ≠ '\\') (rest : List Char) :
    closeString? (c :: rest) = (closeString? rest).map (fun r => (c :: r.1, r.2)) := by
  rw [closeString?.eq_def]
  dsimp only
  rw [if_neg hquote, if_neg hback]

/-- The inside of a literal is closed by the quote after it. -/
theorem closeString?_escapeChars (cs rest : List Char) :
    closeString? (Text.escapeChars cs ++ '"' :: rest) =
      some (Text.escapeChars cs ++ ['"'], rest) := by
  induction cs with
  | nil => exact closeString?_quote rest
  | cons c cs ih =>
    rw [Text.escapeChars, List.flatMap_cons, ← Text.escapeChars]
    cases h : Text.escapeLetter? c with
    | some l =>
      have hc : Text.escapeChar c = ['\\', l] := by rw [Text.escapeChar, h]
      rw [hc]
      change closeString? ('\\' :: l :: (Text.escapeChars cs ++ '"' :: rest)) =
        some ('\\' :: l :: (Text.escapeChars cs ++ ['"']), rest)
      rw [closeString?_escape, ih]
      rfl
    | none =>
      have hc : Text.escapeChar c = [c] := by rw [Text.escapeChar, h]
      have hback : c ≠ '\\' := Text.ne_backslash_of_escapeLetter?_eq_none h
      have hquote : c ≠ '"' := by
        rintro rfl
        exact absurd h (by decide)
      rw [hc]
      change closeString? (c :: (Text.escapeChars cs ++ '"' :: rest)) =
        some (c :: (Text.escapeChars cs ++ ['"']), rest)
      rw [closeString?_plain hquote hback, ih]
      rfl

/-- **A literal is one lexeme.** -/
theorem lexeme?_string (cs rest : List Char) :
    lexeme? (literalChars cs ++ rest) = some ⟨.string, literalChars cs, rest⟩ := by
  have hsplit : literalChars cs ++ rest = '"' :: (Text.escapeChars cs ++ '"' :: rest) := by
    simp [literalChars]
  rw [hsplit, lexeme?, closeString?_escapeChars]
  rfl

end Lexemes

/-! ## 4. What is read from a lexeme -/

section Numerals

open Text

/-- Decimal digits are read one by one. -/
theorem brokenDigits?_of_decimal {cs : List Char} {ds : List Nat}
    (h : List.Forall₂ (fun c d => decimalValue? c = some d) cs ds) :
    brokenDigits? true cs = some ds := by
  induction h with
  | nil => rfl
  | @cons c d cs ds hc _ ih =>
    have hnone : decimalValue? '_' = none := by decide
    have hscore : c ≠ '_' := by
      rintro rfl
      rw [hnone] at hc
      cases hc
    rw [brokenDigits?, if_neg hscore, hc, ih]
    rfl

/-- ASCII digits are read one by one. -/
theorem brokenDigits?_of_isDigit {cs : List Char} (h : ∀ c ∈ cs, c.isDigit = true) :
    brokenDigits? true cs = some (cs.map asciiValue) :=
  brokenDigits?_of_decimal <| List.forall₂_map_right_iff.mpr <| List.forall₂_same.mpr fun c hc =>
    decimalValue?_of_isDigit (h c hc)

/-- Only an underscore asks for a digit before it. -/
theorem brokenDigits?_start {cs : List Char} (hne : cs ≠ []) (h : '_' ∉ cs) :
    brokenDigits? false cs = brokenDigits? true cs := by
  cases cs with
  | nil => exact absurd rfl hne
  | cons c rest =>
    have hscore : c ≠ '_' := fun hc => h (hc ▸ List.mem_cons_self)
    rw [brokenDigits?, brokenDigits?, if_neg hscore, if_neg hscore]

/-- No sign is taken off where there is none. -/
theorem takeSign_of_not_mem {cs : List Char} (hminus : '-' ∉ cs) (hplus : '+' ∉ cs) :
    takeSign cs = (false, cs) := by
  cases cs with
  | nil => rfl
  | cons c rest =>
    have hminus : c ≠ '-' := fun hc => hminus (hc ▸ List.mem_cons_self)
    have hplus : c ≠ '+' := fun hc => hplus (hc ▸ List.mem_cons_self)
    rw [takeSign, if_neg hminus, if_neg hplus]

theorem takeSign_of_isDigit {ds : List Char} (hds : ∀ d ∈ ds, d.isDigit = true) :
    takeSign ds = (false, ds) :=
  takeSign_of_not_mem (mt (hds '-') (by decide)) (mt (hds '+') (by decide))

theorem brokenDigits?_of_ne_nil {ds : List Char} (hne : ds ≠ []) (hds : ∀ d ∈ ds, d.isDigit = true) :
    brokenDigits? false ds = some (ds.map asciiValue) := by
  rw [brokenDigits?_start hne (mt (hds '_') (by decide)), brokenDigits?_of_isDigit hds]

/-- The digits of a number stand for it. -/
theorem ofDigits_toDigits (n : Nat) : ofDigits ((Nat.toDigits 10 n).map asciiValue) = n := by
  rw [ofDigits, List.foldl_map]
  exact Nat.ofDigitChars_ten_toDigits

/-- Characters without a blank are left alone. -/
theorem trimNumeral_eq_self {cs : List Char} (h : ∀ c ∈ cs, isBlank c = false) :
    trimNumeral cs = cs := by
  have hkeep : ∀ l : List Char, (∀ c ∈ l, isBlank c = false) → l.dropWhile isNumeralBlank = l := by
    intro l hl
    cases l with
    | nil => rfl
    | cons c rest =>
      have hc : isNumeralBlank c = false := by
        rw [isNumeralBlank, hl c List.mem_cons_self, Bool.false_and]
      rw [List.dropWhile_cons, hc, if_neg Bool.false_ne_true]
  rw [trimNumeral, hkeep cs h, hkeep cs.reverse fun c hc => h c (List.mem_reverse.mp hc),
    List.reverse_reverse]

theorem isDigit_of_mem_toDigits {n : Nat} {c : Char} (h : c ∈ Nat.toDigits 10 n) :
    c.isDigit = true :=
  Nat.isDigit_of_mem_toDigits (by decide) (by decide) h

/-- The first digit of a number, and the others. -/
theorem exists_toDigits_eq_cons (n : Nat) : ∃ c more, Nat.toDigits 10 n = c :: more := by
  cases h : Nat.toDigits 10 n with
  | nil => exact absurd h Nat.toDigits_ne_nil
  | cons c more => exact ⟨c, more, rfl⟩

/-- A number in decimal is made of characters of a symbol. -/
theorem isSymbolChar_of_mem_decimalChars {n : Int} {c : Char} (h : c ∈ decimalChars n) :
    isSymbolChar c = true := by
  unfold decimalChars at h
  split at h
  · rcases List.mem_cons.mp h with rfl | h
    · decide
    · exact isSymbolChar_of_isDigit (isDigit_of_mem_toDigits h)
  · exact isSymbolChar_of_isDigit (isDigit_of_mem_toDigits h)

/-- A number in decimal begins with a digit, or with a minus and a digit, and goes on with
digits. -/
theorem exists_decimalChars_eq_cons (n : Int) : ∃ c more, decimalChars n = c :: more ∧
    (∀ rest, startsNumber c (more ++ rest) = true) ∧ ∀ d ∈ more, d.isDigit = true := by
  obtain ⟨c, more, hdigits⟩ := exists_toDigits_eq_cons n.natAbs
  have hall : ∀ d ∈ c :: more, d.isDigit = true := fun d hd =>
    isDigit_of_mem_toDigits (hdigits ▸ hd)
  have hc : c.isDigit = true := hall c List.mem_cons_self
  by_cases hneg : n < 0
  · refine ⟨'-', c :: more, ?_, fun rest => ?_, hall⟩
    · rw [decimalChars, if_pos hneg, hdigits]
    · simp [startsNumber, hc]
  · refine ⟨c, more, ?_, fun rest => ?_, fun d hd => hall d (List.mem_cons_of_mem _ hd)⟩
    · rw [decimalChars, if_neg hneg, hdigits]
    · simp [startsNumber, hc]

/-- A sign is taken off a number in decimal. -/
theorem takeSign_decimalChars (n : Int) :
    takeSign (decimalChars n) = (decide (n < 0), Nat.toDigits 10 n.natAbs) := by
  unfold decimalChars
  by_cases hneg : n < 0
  · rw [if_pos hneg]
    simp [takeSign, hneg]
  · rw [if_neg hneg, takeSign_of_isDigit fun d hd => isDigit_of_mem_toDigits hd]
    simp [hneg]

/-- **A number in decimal is read as that number.** -/
theorem lenientNumeral?_decimalChars (n : Int) : lenientNumeral? (decimalChars n) = some n := by
  have htrim : trimNumeral (decimalChars n) = decimalChars n :=
    trimNumeral_eq_self fun _ hc => isBlank_of_isSymbolChar (isSymbolChar_of_mem_decimalChars hc)
  rw [lenientNumeral?, htrim, takeSign_decimalChars]
  dsimp only
  rw [brokenDigits?_of_ne_nil Nat.toDigits_ne_nil fun d hd => isDigit_of_mem_toDigits hd,
    Option.map_some, ofDigits_toDigits]
  by_cases hneg : n < 0
  · simp only [signed, hneg, decide_true, if_true]
    congr 1
    omega
  · simp only [signed, hneg, decide_false, Bool.false_eq_true, if_false]
    congr 1
    omega

/-! ### How many digits there are -/

/-- Decimal digits have values. -/
theorem exists_decimalValues {cs : List Char} (h : ∀ c ∈ cs, isDecimal c = true) :
    ∃ ds, List.Forall₂ (fun c d => decimalValue? c = some d) cs ds := by
  induction cs with
  | nil => exact ⟨[], .nil⟩
  | cons c rest ih =>
    obtain ⟨d, hd⟩ := Option.isSome_iff_exists.mp (h c List.mem_cons_self)
    obtain ⟨ds, hds⟩ := ih fun c hc => h c (List.mem_cons_of_mem _ hc)
    exact ⟨d :: ds, .cons hd hds⟩

/-- Decimal digits behind a sign are as many digits as they are characters, up to the first
character that no numeral goes on with. -/
theorem leadingDigits_of_takeSign {cs ds after : List Char} {negative : Bool}
    (htrim : trimNumeral cs = cs) (hsign : takeSign cs = (negative, ds ++ after))
    (hds : ∀ d ∈ ds, isDecimal d = true) (hafter : ∀ c ∈ after.head?, isNumeralChar c = false) :
    leadingDigits cs = ds.length := by
  have hrun : (ds ++ after).takeWhile isNumeralChar = ds := by
    rw [List.takeWhile_append_of_pos fun c hc => by rw [isNumeralChar, hds c hc, Bool.or_true]]
    cases after with
    | nil => rw [List.takeWhile_nil, List.append_nil]
    | cons c rest =>
      rw [List.takeWhile_cons, hafter c rfl, if_neg Bool.false_ne_true, List.append_nil]
  have hscore : '_' ∉ ds := mt (hds '_') (by decide)
  obtain ⟨values, hvalues⟩ := exists_decimalValues hds
  rw [leadingDigits, htrim, hsign]
  dsimp only
  rw [hrun]
  by_cases hne : ds = []
  · rw [hne]
    rfl
  · rw [brokenDigits?_start hne hscore, brokenDigits?_of_decimal hvalues, Option.getD_some,
      hvalues.length_eq]

/-- ASCII digits behind a sign are counted. -/
theorem leadingDigits_of_isDigit {cs ds : List Char} {negative : Bool}
    (hblank : ∀ c ∈ cs, isBlank c = false) (hsign : takeSign cs = (negative, ds))
    (hds : ∀ d ∈ ds, d.isDigit = true) : leadingDigits cs = ds.length := by
  have hdecimal : ∀ d ∈ ds, isDecimal d = true := fun d hd => by
    rw [isDecimal, decimalValue?_of_isDigit (hds d hd)]
    rfl
  have hsign' : takeSign cs = (negative, ds ++ []) := by rw [hsign, List.append_nil]
  exact leadingDigits_of_takeSign (trimNumeral_eq_self hblank) hsign' hdecimal
    fun c hc => nomatch hc

/-- A number in range has few digits. -/
theorem leadingDigits_decimalChars {n : Int} (h : fits n = true) :
    leadingDigits (decimalChars n) ≤ maxDigits := by
  rw [leadingDigits_of_isDigit
    (fun _ hc => isBlank_of_isSymbolChar (isSymbolChar_of_mem_decimalChars hc))
    (takeSign_decimalChars n) fun d hd => isDigit_of_mem_toDigits hd]
  have hbound := fits_iff.mp h
  have hlt : n.natAbs < 10 ^ 19 := by
    unfold minNumber maxNumber at hbound
    omega
  exact Nat.le_trans (Nat.toDigits_length 10 n.natAbs 19 (by decide) hlt) (by decide)

/-- **A numeral without too many digits is read by the host.** -/
theorem readNumeral_of_lenient {s : String} {n : Int}
    (hdigits : leadingDigits s.toList ≤ maxDigits) (h : lenientNumeral? s.toList = some n) :
    readNumeral s = .ok n := by
  rw [readNumeral, if_neg (Nat.not_lt_of_le hdigits), h]

theorem numberOf_decimal {n : Int} (h : fits n = true) :
    numberOf (String.ofList (decimalChars n)) = .ok (.number n) := by
  have hread : readNumeral (String.ofList (decimalChars n)) = .ok n := by
    refine readNumeral_of_lenient ?_ ?_
    · rw [String.toList_ofList]
      exact leadingDigits_decimalChars h
    · rw [String.toList_ofList]
      exact lenientNumeral?_decimalChars n
  rw [numberOf, hread]
  dsimp only
  rw [if_pos h]

/-- **A literal is read as the text it was written for.** -/
theorem stringOf_literal (s : String) :
    stringOf (String.ofList (literalChars s.toList)) = .string s := by
  have hinside : ((literalChars s.toList).drop 1).dropLast = escapeChars s.toList := by
    simp [literalChars]
  rw [stringOf, String.toList_ofList, hinside, unescapeChars_escapeChars, String.ofList_toList]

end Numerals

end CurryLisp
