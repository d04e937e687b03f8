/-
# The texts that set a limit

The limit on nesting is a setting, and a setting can hold any text.  With the blanks around it
taken off, a text is a numeral if it is made of decimal digits, of whatever script; it asks for the
number that it denotes.  Nearly every other text is ignored: an interpreter is made as if there were
no such setting.

The exceptions are texts that are made of digits and that the host does not read, because not all of
the digits are decimal, as with a superscript, or because there are too many of them.  Such a text
passes for a numeral until it is read, and then no interpreter is made.

* `Text.decimalValue?_eq_some_iff`: which characters are decimal digits, and what they stand for;
* `Text.Decimal`, `Text.LooksDecimal`: numerals, and texts that only look like one;
* `Text.lenientNumeral?_of_decimal`, `Text.lenientNumeral?_of_looksDecimal`: how they are read;
* `Text.NotRead`: why the host does not read a text of digits;
* `Host.recursionLimit_asks`: what each kind of text asks for;
* `Host.settledDepth_eq_error`: which texts leave it unsettled how deep evaluation may nest;
* `Interpreter.make_congr`: an interpreter is made in the same way wherever the same is asked for;
* `Interpreter.make_eq_error`: why it may be that none is made.

The main statement is `limit_texts_are_read_ignored_or_refused`; `superscript_stops_making` shows the
exception.
-/
import CurryLisp.Proofs.Limits
import CurryLisp.Proofs.Numerals

namespace CurryLisp

/-! ## 1. Digits -/

namespace Text

/-- The number that a decimal digit stands for: how far it is from the zero of its script. -/
def StandsFor (c : Char) (d : Nat) : Prop := ∃ z ∈ zeros, c.toNat = z + d ∧ d < 10

instance (c : Char) (d : Nat) : Decidable (StandsFor c d) :=
  inferInstanceAs (Decidable (∃ z ∈ zeros, c.toNat = z + d ∧ d < 10))

/-- The digits of a script end before those of the next begin. -/
theorem zeros_pairwise : zeros.Pairwise fun z z' => z + 10 ≤ z' := by
  have htrans : Trans (fun z z' : Nat => z + 10 ≤ z') (fun z z' => z + 10 ≤ z')
      fun z z' => z + 10 ≤ z' := ⟨fun h h' => by omega⟩
  exact List.isChain_iff_pairwise.mp (by decide +kernel)

/-- **A decimal digit stands for one number.** -/
theorem decimalValue?_eq_some_iff {c : Char} {d : Nat} :
    decimalValue? c = some d ↔ StandsFor c d := by
  rw [decimalValue?, Option.map_eq_some_iff]
  constructor
  · rintro ⟨z, hfind, rfl⟩
    have hz := List.find?_some hfind
    simp only [Bool.and_eq_true, decide_eq_true_eq] at hz
    exact ⟨z, List.mem_of_find?_eq_some hfind, by omega, by omega⟩
  · rintro ⟨z, hmem, hz, hd⟩
    obtain ⟨before, after, hsplit⟩ := List.append_of_mem hmem
    have hapart : ∀ z' ∈ before, z' + 10 ≤ z := fun z' hz' =>
      (List.pairwise_append.mp (hsplit ▸ zeros_pairwise)).2.2 z' hz' z List.mem_cons_self
    have hin : z ≤ c.toNat ∧ c.toNat ≤ z + 9 := by omega
    refine ⟨z, List.find?_eq_some_iff_append.mpr ⟨by simpa using hin, before, after, hsplit, ?_⟩,
      by omega⟩
    -- The scripts before this one have ended, so none of them is found first.
    intro z' hz'
    have hended := hapart z' hz'
    have hout : c.toNat < z' ∨ z' + 9 < c.toNat := by omega
    simpa using hout

theorem isDecimal_iff {c : Char} : isDecimal c = true ↔ ∃ d, StandsFor c d := by
  rw [isDecimal, Option.isSome_iff_exists]
  exact exists_congr fun d => decimalValue?_eq_some_iff

/-- The blanks, by code point. -/
def blankCodes : List Nat :=
  List.range' 0x9 5 ++ List.range' 0x1C 5 ++ [0x85, 0xA0, 0x1680] ++ List.range' 0x2000 11 ++
    [0x2028, 0x2029, 0x202F, 0x205F, 0x3000]

theorem mem_blankCodes {c : Char} (h : isBlank c = true) : c.toNat ∈ blankCodes := by
  simp only [isBlank, Bool.or_eq_true, Bool.and_eq_true, decide_eq_true_eq, beq_iff_eq] at h
  simp only [blankCodes, List.mem_append, List.mem_range'_1, List.mem_cons, List.not_mem_nil,
    or_false]
  omega

/-- No digit is blank. -/
theorem isBlank_of_isAnyDigit {c : Char} (h : isAnyDigit c = true) : isBlank c = false := by
  have hnone : ∀ n ∈ blankCodes, isAnyDigit (Char.ofNat n) = false := by decide +kernel
  by_contra hblank
  have hc := hnone _ (mem_blankCodes (Bool.eq_true_of_not_eq_false hblank))
  rw [Char.ofNat_toNat, h] at hc
  cases hc

/-! ## 2. Numerals and what looks like one -/

/-- Characters that denote a number: one or more decimal digits, each of which counts by the power
of ten of its place. -/
inductive Decimal : List Char → Nat → Prop
  | mk {cs : List Char} {ds : List Nat} : cs ≠ [] → List.Forall₂ StandsFor cs ds →
      Decimal cs (Nat.ofDigits 10 ds.reverse)

/-- Characters that are digits, but not all of them decimal. -/
structure LooksDecimal (cs : List Char) : Prop where
  digits : ∀ c ∈ cs, isAnyDigit c = true
  other : ∃ c ∈ cs, isDecimal c = false

variable {cs : List Char} {n : Nat}

theorem Decimal.ne_nil (h : Decimal cs n) : cs ≠ [] := by
  cases h with
  | mk hne _ => exact hne

theorem Decimal.isDecimal (h : Decimal cs n) : ∀ c ∈ cs, isDecimal c = true := by
  cases h with
  | mk hne hds =>
    clear hne
    induction hds with
    | nil => exact fun c hc => absurd hc List.not_mem_nil
    | cons hd _ ih =>
      intro c hc
      rcases List.mem_cons.mp hc with rfl | hc
      · exact isDecimal_iff.mpr ⟨_, hd⟩
      · exact ih c hc

theorem Decimal.digits (h : Decimal cs n) : ∀ c ∈ cs, isAnyDigit c = true := fun c hc =>
  isAnyDigit_of_isDecimal (h.isDecimal c hc)

theorem LooksDecimal.ne_nil (h : LooksDecimal cs) : cs ≠ [] := by
  obtain ⟨c, hc, -⟩ := h.other
  exact List.ne_nil_of_mem hc

/-- No numeral only looks like one. -/
theorem Decimal.not_looksDecimal (h : Decimal cs n) : ¬ LooksDecimal cs := by
  intro hlooks
  obtain ⟨c, hc, hother⟩ := hlooks.other
  rw [h.isDecimal c hc] at hother
  cases hother

/-- Decimal digits denote some number. -/
theorem exists_decimal (hne : cs ≠ []) (h : ∀ c ∈ cs, isDecimal c = true) : ∃ n, Decimal cs n := by
  have hds : ∃ ds, List.Forall₂ StandsFor cs ds := by
    clear hne
    induction cs with
    | nil => exact ⟨[], .nil⟩
    | cons c rest ih =>
      obtain ⟨d, hd⟩ := isDecimal_iff.mp (h c List.mem_cons_self)
      obtain ⟨ds, hds⟩ := ih fun c hc => h c (List.mem_cons_of_mem _ hc)
      exact ⟨d :: ds, .cons hd hds⟩
  obtain ⟨ds, hds⟩ := hds
  exact ⟨_, .mk hne hds⟩

/-- Digits are a numeral, or they only look like one. -/
theorem decimal_or_looksDecimal (hne : cs ≠ []) (h : ∀ c ∈ cs, isAnyDigit c = true) :
    (∃ n, Decimal cs n) ∨ LooksDecimal cs := by
  by_cases hall : ∀ c ∈ cs, isDecimal c = true
  · exact Or.inl (exists_decimal hne hall)
  · push Not at hall
    obtain ⟨c, hc, hother⟩ := hall
    exact Or.inr ⟨h, c, hc, Bool.eq_false_iff.mpr hother⟩

/-! ## 3. Reading digits -/

/-- Digits have no blanks and no sign to be taken off. -/
theorem lenientNumeral?_of_digits (hne : cs ≠ []) (h : ∀ c ∈ cs, isAnyDigit c = true) :
    lenientNumeral? cs = (brokenDigits? true cs).map fun ds => (ofDigits ds : Int) := by
  have htrim : trimNumeral cs = cs := trimNumeral_eq_self fun c hc => isBlank_of_isAnyDigit (h c hc)
  have hsign : takeSign cs = (false, cs) :=
    takeSign_of_not_mem (mt (h '-') (by decide)) (mt (h '+') (by decide))
  rw [lenientNumeral?, htrim, hsign]
  dsimp only
  rw [brokenDigits?_start hne (mt (h '_') (by decide))]
  rfl

/-- **A numeral is read as the number that it denotes.** -/
theorem lenientNumeral?_of_decimal (h : Decimal cs n) : lenientNumeral? cs = some (n : Int) := by
  rw [lenientNumeral?_of_digits h.ne_nil h.digits]
  cases h with
  | mk _ hds =>
    have hread := brokenDigits?_of_decimal (hds.imp fun c d => decimalValue?_eq_some_iff.mpr)
    rw [hread, Option.map_some, ofDigits_eq]

/-- A character that is no decimal digit ends the reading, unless it is an underscore. -/
theorem brokenDigits?_of_not_isDecimal (hscore : '_' ∉ cs) (h : ∃ c ∈ cs, isDecimal c = false) :
    brokenDigits? true cs = none := by
  induction cs with
  | nil =>
    obtain ⟨c, hc, -⟩ := h
    exact absurd hc List.not_mem_nil
  | cons c rest ih =>
    obtain ⟨hc, hrest⟩ := not_or.mp (mt List.mem_cons.mpr hscore)
    rw [brokenDigits?, if_neg (Ne.symm hc)]
    cases hvalue : decimalValue? c with
    | none => rfl
    | some d =>
      obtain ⟨other, hmem, hother⟩ := h
      rcases List.mem_cons.mp hmem with rfl | hmem
      · rw [isDecimal, hvalue] at hother
        cases hother
      · dsimp only
        rw [ih hrest ⟨other, hmem, hother⟩]
        rfl

/-- **What only looks like a numeral cannot be read.** -/
theorem lenientNumeral?_of_looksDecimal (h : LooksDecimal cs) : lenientNumeral? cs = none := by
  have hscore : '_' ∉ cs := mt (h.digits '_') (by decide)
  rw [lenientNumeral?_of_digits h.ne_nil h.digits, brokenDigits?_of_not_isDecimal hscore h.other]
  rfl

/-- Without underscores a numeral goes on with decimal digits only. -/
theorem takeWhile_isNumeralChar (h : '_' ∉ cs) :
    cs.takeWhile isNumeralChar = cs.takeWhile isDecimal := by
  induction cs with
  | nil => rfl
  | cons c rest ih =>
    obtain ⟨hc, hrest⟩ := not_or.mp (mt List.mem_cons.mpr h)
    have hchar : isNumeralChar c = isDecimal c := by
      rw [isNumeralChar, beq_false_of_ne (Ne.symm hc), Bool.false_or]
    rw [List.takeWhile_cons, List.takeWhile_cons, hchar, ih hrest]

/-- The digits that count for the host are the decimal ones at the front. -/
theorem leadingDigits_of_digits (h : ∀ c ∈ cs, isAnyDigit c = true) :
    leadingDigits cs = (cs.takeWhile isDecimal).length := by
  have htrim : trimNumeral cs = cs := trimNumeral_eq_self fun c hc => isBlank_of_isAnyDigit (h c hc)
  have hsign : takeSign cs = (false, cs) :=
    takeSign_of_not_mem (mt (h '-') (by decide)) (mt (h '+') (by decide))
  have hdecimal : ∀ c ∈ cs.takeWhile isDecimal, isDecimal c = true := fun c hc =>
    List.mem_takeWhile_imp hc
  rw [leadingDigits, htrim, hsign]
  dsimp only
  rw [takeWhile_isNumeralChar (mt (h '_') (by decide))]
  by_cases hne : cs.takeWhile isDecimal = []
  · rw [hne]
    rfl
  · obtain ⟨n, hn⟩ := exists_decimal hne hdecimal
    cases hn with
    | mk _ hds =>
      have hscore : '_' ∉ cs.takeWhile isDecimal := mt (hdecimal '_') (by decide)
      rw [brokenDigits?_start hne hscore,
        brokenDigits?_of_decimal (hds.imp fun c d => decimalValue?_eq_some_iff.mpr), Option.getD_some,
        hds.length_eq]

theorem Decimal.leadingDigits_eq (h : Decimal cs n) : leadingDigits cs = cs.length := by
  rw [leadingDigits_of_digits h.digits, List.takeWhile_eq_self_iff.mpr h.isDecimal]

/-- Why the host does not read a text that is made of digits: there are too many of them in front, or
there are not and one of the digits is not decimal. -/
inductive NotRead (text : String) : NumeralFault → Prop
  | tooLong : (∀ c ∈ text.toList, isAnyDigit c = true) →
      maxDigits < (text.toList.takeWhile isDecimal).length →
      NotRead text (.tooLong (text.toList.takeWhile isDecimal).length)
  | malformed : LooksDecimal text.toList →
      (text.toList.takeWhile isDecimal).length ≤ maxDigits → NotRead text (.malformed text)

theorem NotRead.digits {text : String} {f : NumeralFault} (h : NotRead text f) :
    ∀ c ∈ text.toList, isAnyDigit c = true := by
  cases h with
  | tooLong hdigits _ => exact hdigits
  | malformed hlooks _ => exact hlooks.digits

theorem NotRead.ne_nil {text : String} {f : NumeralFault} (h : NotRead text f) :
    text.toList ≠ [] := by
  cases h with
  | tooLong _ hlong =>
    intro hnil
    rw [hnil] at hlong
    exact absurd hlong (by decide)
  | malformed hlooks _ => exact hlooks.ne_nil

/-- **What the host does not read** of the texts that are made of digits. -/
theorem readNumeral_eq_error_iff {text : String} {f : NumeralFault} (hne : text.toList ≠ [])
    (h : ∀ c ∈ text.toList, isAnyDigit c = true) :
    readNumeral text = .error f ↔ NotRead text f := by
  rw [readNumeral, leadingDigits_of_digits h]
  constructor
  · intro hread
    split at hread
    · next hlong =>
      cases hread
      exact .tooLong h hlong
    · next hshort =>
      rcases decimal_or_looksDecimal hne h with ⟨n, hn⟩ | hlooks
      · rw [lenientNumeral?_of_decimal hn] at hread
        cases hread
      · rw [lenientNumeral?_of_looksDecimal hlooks] at hread
        cases hread
        exact .malformed hlooks (Nat.le_of_not_lt hshort)
  · intro hnot
    cases hnot with
    | tooLong _ hlong => rw [if_pos hlong]
    | malformed hlooks hshort =>
      rw [if_neg (Nat.not_lt_of_le hshort), lenientNumeral?_of_looksDecimal hlooks]

/-- A numeral is read unless it has too many digits. -/
theorem Decimal.readNumeral_eq {text : String} (h : Decimal text.toList n)
    (hlength : text.toList.length ≤ maxDigits) : readNumeral text = .ok (n : Int) := by
  rw [readNumeral, h.leadingDigits_eq, if_neg (Nat.not_lt_of_le hlength),
    lenientNumeral?_of_decimal h]

end Text

/-! ## 4. What a text asks for -/

namespace Host

open Text

variable {h : Host} {n : Nat}

/-- The text of the setting, without the blanks around it. -/
def limitText (h : Host) : String := h.trimmed limitName

theorem trimmed_limit (h : Host) : h.trimmed "JLISP_RECURSION_LIMIT" = h.limitText := rfl

/-- Digits pass the first check, decimal or not. -/
theorem digits_pass (hne : h.limitText.toList ≠ [])
    (hdigits : ∀ c ∈ h.limitText.toList, isAnyDigit c = true) :
    ¬ (h.limitText.toList.isEmpty || !h.limitText.toList.all isAnyDigit) = true := by
  simpa [hne] using hdigits

/-- **A numeral asks for its number.** -/
theorem recursionLimit_of_decimal (hn : Decimal h.limitText.toList n)
    (hlength : h.limitText.toList.length ≤ maxDigits) : h.recursionLimit = .ok (some n) := by
  unfold recursionLimit
  dsimp only
  rw [trimmed_limit, if_neg (digits_pass hn.ne_nil hn.digits), hn.readNumeral_eq hlength]
  rfl

/-- **What is not read is refused.** -/
theorem recursionLimit_of_notRead {f : NumeralFault} (hnot : NotRead h.limitText f) :
    h.recursionLimit = .error f := by
  unfold recursionLimit
  dsimp only
  rw [trimmed_limit, if_neg (digits_pass hnot.ne_nil hnot.digits),
    (readNumeral_eq_error_iff hnot.ne_nil hnot.digits).mpr hnot]

/-- **Any other text asks for nothing.** -/
theorem recursionLimit_of_other (hn : ∀ n, ¬ Decimal h.limitText.toList n)
    (hlooks : ¬ LooksDecimal h.limitText.toList) : h.recursionLimit = .ok none := by
  unfold recursionLimit
  dsimp only
  rw [trimmed_limit, if_pos]
  by_contra hdigits
  simp only [Bool.or_eq_true, Bool.not_eq_true', not_or, Bool.not_eq_true, Bool.not_eq_false,
    List.isEmpty_eq_false_iff, List.all_eq_true] at hdigits
  rcases decimal_or_looksDecimal hdigits.1 hdigits.2 with ⟨n, hdecimal⟩ | hl
  · exact hn n hdecimal
  · exact hlooks hl

/-- What a text asks for: a number, nothing, or something that is not read. -/
inductive Asks (text : String) : Except NumeralFault (Option Nat) → Prop
  | number {n : Nat} : Decimal text.toList n → text.toList.length ≤ maxDigits →
      Asks text (.ok (some n))
  | nothing : (∀ n, ¬ Decimal text.toList n) → ¬ LooksDecimal text.toList → Asks text (.ok none)
  | refused {f : NumeralFault} : NotRead text f → Asks text (.error f)

/-- **Every text asks for one of the three.** -/
theorem recursionLimit_asks (h : Host) : Asks h.limitText h.recursionLimit := by
  by_cases hn : ∃ n, Decimal h.limitText.toList n
  · obtain ⟨n, hn⟩ := hn
    by_cases hlength : h.limitText.toList.length ≤ maxDigits
    · rw [recursionLimit_of_decimal hn hlength]
      exact .number hn hlength
    · have hlong : maxDigits < (h.limitText.toList.takeWhile isDecimal).length := by
        rw [List.takeWhile_eq_self_iff.mpr hn.isDecimal]
        exact Nat.lt_of_not_le hlength
      rw [recursionLimit_of_notRead (.tooLong hn.digits hlong)]
      exact .refused (.tooLong hn.digits hlong)
  · by_cases hlooks : LooksDecimal h.limitText.toList
    · obtain ⟨f, hnot⟩ : ∃ f, NotRead h.limitText f := by
        by_cases hlong : maxDigits < (h.limitText.toList.takeWhile isDecimal).length
        · exact ⟨_, .tooLong hlooks.digits hlong⟩
        · exact ⟨_, .malformed hlooks (Nat.le_of_not_lt hlong)⟩
      rw [recursionLimit_of_notRead hnot]
      exact .refused hnot
    · rw [recursionLimit_of_other (not_exists.mp hn) hlooks]
      exact .nothing (not_exists.mp hn) hlooks

theorem recursionLimit_eq_some_iff : h.recursionLimit = .ok (some n) ↔
    Decimal h.limitText.toList n ∧ h.limitText.toList.length ≤ maxDigits := by
  refine ⟨fun hread => ?_, fun hn => recursionLimit_of_decimal hn.1 hn.2⟩
  have hasks := h.recursionLimit_asks
  rw [hread] at hasks
  cases hasks with
  | number hn hlength => exact ⟨hn, hlength⟩

theorem recursionLimit_eq_none_iff : h.recursionLimit = .ok none ↔
    (∀ n, ¬ Decimal h.limitText.toList n) ∧ ¬ LooksDecimal h.limitText.toList := by
  refine ⟨fun hread => ?_, fun hother => recursionLimit_of_other hother.1 hother.2⟩
  have hasks := h.recursionLimit_asks
  rw [hread] at hasks
  cases hasks with
  | nothing hn hlooks => exact ⟨hn, hlooks⟩

theorem recursionLimit_eq_error_iff {f : NumeralFault} :
    h.recursionLimit = .error f ↔ NotRead h.limitText f := by
  refine ⟨fun hread => ?_, recursionLimit_of_notRead⟩
  have hasks := h.recursionLimit_asks
  rw [hread] at hasks
  cases hasks with
  | refused hnot => exact hnot

/-- The same surroundings without the setting. -/
def withoutLimit (h : Host) : Host :=
  { h with settings := h.settings.filter fun s => s.1 != limitName }

theorem sameButLimit_withoutLimit (h : Host) : h.SameButLimit h.withoutLimit where
  files := rfl
  nesting := rfl
  allows := rfl
  settings name hname := by
    rw [setting?, setting?, withoutLimit]
    induction h.settings with
    | nil => rfl
    | cons s rest ih =>
      obtain ⟨key, text⟩ := s
      by_cases hkey : key = limitName
      · have hskip : (name == key) = false := beq_false_of_ne (hkey ▸ hname)
        rw [List.lookup_cons, hskip, ih, List.filter_cons_of_neg (by simpa using hkey)]
      · rw [List.filter_cons_of_pos (by simpa using hkey), List.lookup_cons, List.lookup_cons, ih]

theorem setting?_withoutLimit (h : Host) : h.withoutLimit.setting? limitName = none := by
  rw [setting?, withoutLimit, List.lookup_eq_none_iff]
  intro s hs
  obtain ⟨-, hkept⟩ := List.mem_filter.mp hs
  have hne : s.1 ≠ limitName := by simpa using hkept
  exact bne_iff_ne.mpr (Ne.symm hne)

theorem recursionLimit_withoutLimit (h : Host) : h.withoutLimit.recursionLimit = .ok none := by
  have htext : h.withoutLimit.limitText.toList = [] := by
    rw [limitText, trimmed, setting?_withoutLimit]
    rfl
  exact recursionLimit_of_other (fun n hn => hn.ne_nil htext) fun hlooks => hlooks.ne_nil htext

/-! ## 5. What the depth comes to -/

/-- The limit that holds is the one that is asked for, but never less than without. -/
theorem effectiveLimit_some (h : Host) (n : Nat) : h.effectiveLimit (some n) =
    if n ≤ greatestRecursionLimit then some (max h.calls.usual n) else none := rfl

/-- **A number is the limit that the depth comes from,** unless it is too large. -/
theorem settledDepth_of_decimal (hn : Decimal h.limitText.toList n)
    (hlength : h.limitText.toList.length ≤ maxDigits) :
    h.settledDepth = if n ≤ greatestRecursionLimit then
        .ok (h.calls.nesting (max h.calls.usual n))
      else .error .unsettableDepth := by
  simp only [settledDepth, recursionLimit_of_decimal hn hlength, effectiveLimit_some]
  by_cases hle : n ≤ greatestRecursionLimit
  · rw [if_pos hle, if_pos hle]
  · rw [if_neg hle, if_neg hle]

theorem settledDepth_of_notRead {f : NumeralFault} (hnot : NotRead h.limitText f) :
    h.settledDepth = .error (.badDepth f) := by
  simp only [settledDepth, recursionLimit_of_notRead hnot]

/-- **Two kinds of text leave the depth unsettled.** -/
theorem settledDepth_eq_error {f : Fault} (hf : h.settledDepth = .error f) :
    (∃ g, f = .badDepth g ∧ NotRead h.limitText g) ∨
    (f = .unsettableDepth ∧
      ∃ n, Decimal h.limitText.toList n ∧ greatestRecursionLimit < n) := by
  have hasks := h.recursionLimit_asks
  generalize hread : h.recursionLimit = r at hasks
  cases hasks with
  | @number n hn hlength =>
    rw [settledDepth_of_decimal hn hlength] at hf
    split at hf
    · cases hf
    · next hlt =>
      cases hf
      exact Or.inr ⟨rfl, n, hn, Nat.lt_of_not_le hlt⟩
  | nothing =>
    rw [settledDepth, hread] at hf
    cases hf
  | @refused g hnot =>
    rw [settledDepth_of_notRead hnot] at hf
    cases hf
    exact Or.inl ⟨g, rfl, hnot⟩

end Host

/-! ## 6. Making an interpreter -/

namespace Interpreter

variable {h h' : Host}

/-- A prelude does not look at the limit. -/
theorem runPrelude_congr (hh : h.SameButLimit h') (root : FrameId) (depth : Nat)
    (prelude : String) :
    runPrelude ⟨h, root, depth⟩ prelude = runPrelude ⟨h', root, depth⟩ prelude := by
  change runPreludeWith (CurryLisp.evaluate h depth) root prelude =
    runPreludeWith (CurryLisp.evaluate h' depth) root prelude
  rw [evaluate_congr hh.sameFiles hh.allows]

/-- **Where the same is asked for,** an interpreter is made in the same way. -/
theorem make_congr (hh : h.SameButLimit h') (husual : h.calls.usual = h'.calls.usual)
    (hasked : h.recursionLimit = h'.recursionLimit)
    (extended : Option Bool) (prelude : String) :
    make h extended prelude = (fun i => { i with host := h }) <$> make h' extended prelude := by
  have hsettle : settleDepth h = settleDepth h' := by
    simp only [settleDepth, hasked, Host.effectiveLimit, husual, hh.nesting]
  unfold make
  simp only [hh.extendedByDefault_eq, hsettle, map_bind]
  by_cases hempty : prelude = ""
  · simp [hempty]
  · simp [hempty, runPrelude_congr hh]

/-- An interpreter is not made if the depth is not settled, or if the prelude is stopped. -/
theorem make_eq_error {extended : Option Bool} {prelude : String} {f : Fault} {m : Machine}
    (hrun : make h extended prelude {} = .error f m) :
    h.settledDepth = .error f ∨ f = .tooDeep ∨ f.OfName ∨ f.OfNumeral := by
  rw [make_eq] at hrun
  split at hrun
  · next depth hdepth =>
    unfold begin at hrun
    split at hrun
    · rcases EvalM.bind_eq_error.mp hrun with hprelude | ⟨_, _, -, hpure⟩
      · have hfollows := runPreludeWith_follows
          (evaluate_follows_self h .any (fun _ => True) depth) 0
          fun (nodes : List Node) (_ : parse prelude = .ok nodes) => trivial
        exact Or.inr (hfollows.faults _ _ _ hprelude)
      · cases hpure
    · cases hrun
  · next hsettled =>
    cases hrun
    exact Or.inl hsettled

end Interpreter

/-! ## 7. The theorem -/

/-- **The texts that set a limit are read, ignored or refused.**

Take any surroundings and the text of the setting, without the blanks around it.

1. A limit is asked for if the text is a numeral with not too many digits for the host, and it is the
   number that the numeral denotes.
2. Nothing is asked for by any text that is neither a numeral nor looks like one.
3. A text is refused if it is made of digits and the host does not read it, because there are too many
   digits or because one of them is not decimal, and no other text is.
4. So an interpreter is not made with such a text, or with a number that cannot be set; nothing is
   evaluated then.  With any other number it has the depth that the number allows, but not less than
   without, and with a text that is ignored it is made as if there were no such setting.  Apart from
   this it is only the prelude that can be stopped. -/
theorem limit_texts_are_read_ignored_or_refused (h : Host) :
    let text := h.limitText
    (∀ n, h.recursionLimit = .ok (some n) ↔
      Text.Decimal text.toList n ∧ text.toList.length ≤ Text.maxDigits) ∧
    (h.recursionLimit = .ok none ↔
      (∀ n, ¬ Text.Decimal text.toList n) ∧ ¬ Text.LooksDecimal text.toList) ∧
    (∀ f, h.recursionLimit = .error f ↔ Text.NotRead text f) ∧
    ∀ extended prelude,
      let more := extended.getD h.extendedByDefault
      (∀ f, Text.NotRead text f → Interpreter.make h extended prelude {} =
        .error (.badDepth f) { store := .fresh more }) ∧
      (∀ n, Text.Decimal text.toList n → text.toList.length ≤ Text.maxDigits →
        Interpreter.make h extended prelude {} =
          if n ≤ Host.greatestRecursionLimit then
            Interpreter.begin ⟨h, 0, h.calls.nesting (max h.calls.usual n)⟩ prelude (.fresh more)
          else .error .unsettableDepth { store := .fresh more }) ∧
      ((∀ n, ¬ Text.Decimal text.toList n) → ¬ Text.LooksDecimal text.toList →
        Interpreter.make h extended prelude =
          (fun i => { i with host := h }) <$> Interpreter.make h.withoutLimit extended prelude) ∧
      ∀ f m, Interpreter.make h extended prelude {} = .error f m →
        (∃ g, f = .badDepth g ∧ Text.NotRead text g) ∨
        (f = .unsettableDepth ∧
          ∃ n, Text.Decimal text.toList n ∧ Host.greatestRecursionLimit < n) ∨
        f = .tooDeep ∨ f.OfName ∨ f.OfNumeral := by
  intro text
  refine ⟨fun n => Host.recursionLimit_eq_some_iff, Host.recursionLimit_eq_none_iff,
    fun f => Host.recursionLimit_eq_error_iff, fun extended prelude => ?_⟩
  refine ⟨fun f hnot => ?_, fun n hn hlength => ?_, fun hn hlooks => ?_, fun f m hrun => ?_⟩
  · rw [Interpreter.make_eq, Host.settledDepth_of_notRead hnot]
  · rw [Interpreter.make_eq, Host.settledDepth_of_decimal hn hlength]
    by_cases hle : n ≤ Host.greatestRecursionLimit
    · rw [if_pos hle, if_pos hle]
    · rw [if_neg hle, if_neg hle]
  · refine Interpreter.make_congr h.sameButLimit_withoutLimit rfl ?_ extended prelude
    rw [Host.recursionLimit_of_other hn hlooks, h.recursionLimit_withoutLimit]
  · rcases Interpreter.make_eq_error hrun with hsettled | hprelude
    · exact (Host.settledDepth_eq_error hsettled).imp_right Or.inl
    · exact Or.inr (Or.inr hprelude)

/-- Surroundings without files in which nothing is set but the limit. -/
def Host.asking (text : String) : Host := { Host.bare with settings := [(limitName, text)] }

theorem Host.extendedByDefault_asking (text : String) :
    (asking text).extendedByDefault = false := by
  have hbare : Host.bare.extendedByDefault = false := by decide +kernel
  exact (SameButLimit.of_limit .bare text).extendedByDefault_eq.symm.trans hbare

/-- A numeral in the digits of another script with blanks around it, a word, a number with an
exponent written above it, and a number that is one too large. -/
theorem limit_texts_are_read_ignored_or_refused_scripts :
    (Text.Decimal "٧٥٠٠".toList 7500 ∧
      (Host.asking " ٧٥٠٠\n").recursionLimit = .ok (some 7500) ∧
      Interpreter.make (Host.asking " ٧٥٠٠\n") none "" {} =
        .ok ⟨.asking " ٧٥٠٠\n", 0, 2500⟩ (.fresh false)) ∧
    ((∀ n, ¬ Text.Decimal "lots".toList n) ∧ ¬ Text.LooksDecimal "lots".toList ∧
      (Host.asking "lots").recursionLimit = .ok none ∧
      Interpreter.make (Host.asking "lots") none "(print 1)" =
        (fun i => { i with host := .asking "lots" }) <$> Interpreter.make .bare none "(print 1)") ∧
    (Text.LooksDecimal "3²".toList ∧
      (Host.asking "3²").recursionLimit = .error (.malformed "3²") ∧
      Interpreter.make (Host.asking "3²") none "" {} =
        .error (.badDepth (.malformed "3²")) { store := .fresh false }) ∧
    Text.Decimal "2147483648".toList 2147483648 ∧
      Interpreter.make (Host.asking "2147483648") none "" {} =
        .error .unsettableDepth { store := .fresh false } := by
  have htext : (Host.asking " ٧٥٠٠\n").limitText = "٧٥٠٠" ∧
      (Host.asking "lots").limitText = "lots" ∧
      (Host.asking "3²").limitText = "3²" ∧
      (Host.asking "2147483648").limitText = "2147483648" := by decide +kernel
  obtain ⟨hscript, hword, hraised, hlarge⟩ := htext
  have hwithout : (Host.asking "lots").withoutLimit = .bare := by
    simp [Host.withoutLimit, Host.asking, Host.bare]
  have hdigits : List.Forall₂ Text.StandsFor "٧٥٠٠".toList [7, 5, 0, 0] := by decide +kernel
  have hmany : List.Forall₂ Text.StandsFor "2147483648".toList [2, 1, 4, 7, 4, 8, 3, 6, 4, 8] := by
    decide +kernel
  have hnumeral : Text.Decimal "٧٥٠٠".toList 7500 := by
    have h := Text.Decimal.mk (by decide) hdigits
    rwa [← Text.ofDigits_eq] at h
  have hnumber : Text.Decimal "2147483648".toList 2147483648 := by
    have h := Text.Decimal.mk (by decide) hmany
    rwa [← Text.ofDigits_eq] at h
  have hletter : ¬ Text.isAnyDigit 'l' = true := by decide
  have hnone : ∀ n, ¬ Text.Decimal "lots".toList n := fun n hn =>
    hletter (hn.digits 'l' (by decide))
  have hnor : ¬ Text.LooksDecimal "lots".toList := fun hlooks =>
    hletter (hlooks.digits 'l' (by decide))
  have hlooks : Text.LooksDecimal "3²".toList :=
    ⟨List.all_eq_true.mp (by decide), '²', by decide, by decide⟩
  have hnot : Text.NotRead "3²" (.malformed "3²") := .malformed hlooks (by decide)
  obtain ⟨hread, -, -, hmade⟩ := limit_texts_are_read_ignored_or_refused (Host.asking " ٧٥٠٠\n")
  obtain ⟨-, hignored, -, hbare⟩ := limit_texts_are_read_ignored_or_refused (Host.asking "lots")
  obtain ⟨-, -, hrefused, hstopped⟩ := limit_texts_are_read_ignored_or_refused (Host.asking "3²")
  obtain ⟨-, -, -, hunsettled⟩ := limit_texts_are_read_ignored_or_refused (Host.asking "2147483648")
  rw [hscript] at hread hmade
  rw [hword] at hignored hbare
  rw [hraised] at hrefused hstopped
  rw [hlarge] at hunsettled
  refine ⟨⟨hnumeral, (hread 7500).mpr ⟨hnumeral, by decide⟩, ?_⟩,
    ⟨hnone, hnor, hignored.mpr ⟨hnone, hnor⟩, ?_⟩,
    ⟨hlooks, (hrefused _).mpr hnot, ?_⟩, hnumber, ?_⟩
  · rw [(hmade none "").2.1 7500 hnumeral (by decide), if_pos (by decide), Option.getD_none,
      Host.extendedByDefault_asking]
    rfl
  · rw [(hbare none "(print 1)").2.2.1 hnone hnor, hwithout]
  · rw [(hstopped none "").1 _ hnot, Option.getD_none, Host.extendedByDefault_asking]
  · rw [(hunsettled none "").2.1 2147483648 hnumber (by decide), if_neg (by decide), Option.getD_none,
      Host.extendedByDefault_asking]

/-- A superscript is a digit and no numeral: it is neither read nor ignored, and nothing can be
evaluated.  So it is with a numeral that has one digit too many. -/
theorem superscript_stops_making :
    let h : Host := .asking "²"
    let long := nines (Text.maxDigits + 1)
    let h' : Host := .asking long
    (h.limitText = "²" ∧ (∀ n, ¬ Text.Decimal "²".toList n) ∧
      h.recursionLimit = .error (.malformed "²") ∧
      Interpreter.make h none "" {} =
        .error (.badDepth (.malformed "²")) { store := .fresh false }) ∧
    h'.limitText = long ∧ (∃ n, Text.Decimal long.toList n) ∧
      h'.recursionLimit = .error (.tooLong (Text.maxDigits + 1)) := by
  intro h long h'
  constructor
  · have htext : h.limitText = "²" := by decide +kernel
    have hlooks : Text.LooksDecimal "²".toList :=
      ⟨List.all_eq_true.mp (by decide), '²', by decide, by decide⟩
    have hnot : Text.NotRead h.limitText (.malformed "²") := by
      rw [htext]
      exact .malformed hlooks (by decide)
    refine ⟨htext, fun n hn => hn.not_looksDecimal hlooks, Host.recursionLimit_of_notRead hnot, ?_⟩
    rw [Interpreter.make_eq, Host.settledDepth_of_notRead hnot, Option.getD_none,
      Host.extendedByDefault_asking]
  · have hchars : long.toList = List.replicate (Text.maxDigits + 1) '9' := String.toList_ofList
    have hnine : ∀ c ∈ long.toList, c = '9' := fun c hc => by
      rw [hchars] at hc
      exact List.eq_of_mem_replicate hc
    have hdecimal : ∀ c ∈ long.toList, Text.isDecimal c = true := fun c hc => by
      rw [hnine c hc]
      decide
    have hlength : long.toList.length = Text.maxDigits + 1 := by
      rw [hchars, List.length_replicate]
    have htext : h'.limitText = long :=
      Text.trim_eq_self fun c hc => by
        rw [hnine c hc]
        decide
    have htake : long.toList.takeWhile Text.isDecimal = long.toList :=
      List.takeWhile_eq_self_iff.mpr hdecimal
    have hnot : Text.NotRead long (.tooLong (Text.maxDigits + 1)) := by
      have hlong : Text.NotRead long _ := .tooLong
        (fun c hc => Text.isAnyDigit_of_isDecimal (hdecimal c hc))
        (by rw [htake, hlength]; exact Nat.lt_succ_self _)
      rwa [htake, hlength] at hlong
    refine ⟨htext, Text.exists_decimal ?_ hdecimal, Host.recursionLimit_of_notRead (htext ▸ hnot)⟩
    exact List.ne_nil_of_length_pos (by rw [hlength]; exact Nat.succ_pos _)

end CurryLisp
