/-
# Numerals in texts and in programs

There are two ways from characters to a number.  The operator `int` reads a text that a program holds,
and the reader reads a numeral that a program is written with.  The operator accepts a plus sign, the
reader takes a numeral as far as digits go; where both apply, they agree, also about a numeral that is
out of range, and about one with too many digits for the host.

* `Text.Denotes`: which characters denote which number, by the places of the digits;
* `Text.plainNumeral?_eq_some_iff`: the plain reading finds just these;
* `ofNodes_numeral`: a numeral in a program is read as what the operator answers;
* `isNumeral_decimal`: a printed number is a numeral.

The main statement is `int_reads_what_the_reader_reads`.
-/
import CurryLisp.Library.Operators
import CurryLisp.Proofs.Reading
import Mathlib.Data.Nat.Digits.Defs

namespace CurryLisp

/-! ## 1. What characters denote -/

namespace Text

/-- The number that ASCII digits denote: each digit counts by the power of ten of its place. -/
def placeValue (ds : List Char) : Nat := Nat.ofDigits 10 (ds.map asciiValue).reverse

/-- Characters that denote a number: one or more ASCII digits, with or without a sign before them. -/
inductive Denotes : List Char → Int → Prop
  | bare {ds : List Char} : ds ≠ [] → (∀ d ∈ ds, d.isDigit = true) → Denotes ds (placeValue ds)
  | plus {ds : List Char} : ds ≠ [] → (∀ d ∈ ds, d.isDigit = true) →
      Denotes ('+' :: ds) (placeValue ds)
  | minus {ds : List Char} : ds ≠ [] → (∀ d ∈ ds, d.isDigit = true) →
      Denotes ('-' :: ds) (-placeValue ds)

/-- Taking the digits one by one, the most significant first, adds up their places. -/
theorem ofDigits_eq (ds : List Nat) : ofDigits ds = Nat.ofDigits 10 ds.reverse := by
  rw [ofDigits, Nat.ofDigits_eq_foldr, List.foldr_reverse]
  simp only [Nat.cast_id, Nat.add_comm]

theorem ofDigits_eq_placeValue (ds : List Char) : ofDigits (ds.map asciiValue) = placeValue ds :=
  ofDigits_eq _

/-- A sign is taken off, or there is none. -/
theorem takeSign_cases (cs : List Char) :
    (∃ ds, cs = '-' :: ds ∧ takeSign cs = (true, ds)) ∨
    (∃ ds, cs = '+' :: ds ∧ takeSign cs = (false, ds)) ∨ takeSign cs = (false, cs) := by
  cases cs with
  | nil => exact Or.inr (Or.inr rfl)
  | cons c rest =>
    by_cases hminus : c = '-'
    · subst hminus
      exact Or.inl ⟨rest, rfl, rfl⟩
    · by_cases hplus : c = '+'
      · subst hplus
        exact Or.inr (Or.inl ⟨rest, rfl, rfl⟩)
      · rw [takeSign, if_neg hminus, if_neg hplus]
        exact Or.inr (Or.inr rfl)

/-- What is left behind the sign must be digits. -/
theorem plainNumeral?_of_takeSign {cs ds : List Char} {negative : Bool} {n : Int}
    (h : takeSign cs = (negative, ds)) :
    plainNumeral? cs = some n ↔
      (ds ≠ [] ∧ ∀ d ∈ ds, d.isDigit = true) ∧ n = signed negative (placeValue ds) := by
  rw [plainNumeral?, h]
  dsimp only
  rw [ofDigits_eq_placeValue]
  by_cases hds : ds ≠ [] ∧ ∀ d ∈ ds, d.isDigit = true
  · have hpass : ¬ (ds.isEmpty || !ds.all Char.isDigit) = true := by
      simpa using hds
    rw [if_neg hpass, Option.some_inj, and_iff_right hds, eq_comm]
  · have hstop : (ds.isEmpty || !ds.all Char.isDigit) = true := by
      by_contra hpass
      exact hds (by simpa using hpass)
    rw [if_pos hstop]
    constructor
    · intro h
      cases h
    · exact fun h => absurd h.1 hds

/-- **The plain reading** finds the number that the characters denote, and finds none where they denote
none. -/
theorem plainNumeral?_eq_some_iff {cs : List Char} {n : Int} :
    plainNumeral? cs = some n ↔ Denotes cs n := by
  constructor
  · intro h
    rcases takeSign_cases cs with ⟨ds, rfl, hsign⟩ | ⟨ds, rfl, hsign⟩ | hsign
    · obtain ⟨⟨hne, hds⟩, rfl⟩ := (plainNumeral?_of_takeSign hsign).mp h
      exact .minus hne hds
    · obtain ⟨⟨hne, hds⟩, rfl⟩ := (plainNumeral?_of_takeSign hsign).mp h
      exact .plus hne hds
    · obtain ⟨⟨hne, hds⟩, rfl⟩ := (plainNumeral?_of_takeSign hsign).mp h
      exact .bare hne hds
  · intro h
    cases h with
    | bare hne hds =>
      exact (plainNumeral?_of_takeSign (takeSign_of_isDigit hds)).mpr ⟨⟨hne, hds⟩, rfl⟩
    | plus hne hds => exact (plainNumeral?_of_takeSign rfl).mpr ⟨⟨hne, hds⟩, rfl⟩
    | minus hne hds => exact (plainNumeral?_of_takeSign rfl).mpr ⟨⟨hne, hds⟩, rfl⟩

/-- The lenient reading finds the same number. -/
theorem Denotes.lenientNumeral? {cs : List Char} {n : Int} (h : Denotes cs n) :
    lenientNumeral? cs = some n := by
  have read {ds : List Char} {negative : Bool} (hsign : takeSign cs = (negative, ds)) (hne : ds ≠ [])
      (hds : ∀ d ∈ ds, d.isDigit = true) (hblank : ∀ c ∈ cs, isBlank c = false) :
      Text.lenientNumeral? cs = some (signed negative (placeValue ds)) := by
    rw [Text.lenientNumeral?, trimNumeral_eq_self hblank, hsign]
    dsimp only
    rw [brokenDigits?_of_ne_nil hne hds, Option.map_some, ofDigits_eq_placeValue]
  have hblank {ds : List Char} (hds : ∀ d ∈ ds, d.isDigit = true) : ∀ d ∈ ds, isBlank d = false :=
    fun d hd => isBlank_of_isSymbolChar (isSymbolChar_of_isDigit (hds d hd))
  cases h with
  | bare hne hds => exact read (takeSign_of_isDigit hds) hne hds (hblank hds)
  | plus hne hds =>
    exact read rfl hne hds (List.forall_mem_cons.mpr ⟨by decide, hblank hds⟩)
  | minus hne hds =>
    exact read rfl hne hds (List.forall_mem_cons.mpr ⟨by decide, hblank hds⟩)

end Text

/-! ## 2. The operator -/

/-- The host is asked to read a text that denotes a number, and reads it unless it has too many
digits. -/
theorem Texts.unread?_eq_some_iff {s : String} {f : Text.NumeralFault} :
    unread? s = some f ↔ (∃ n, Text.Denotes s.toList n) ∧
      Text.maxDigits < Text.leadingDigits s.toList ∧
      f = .tooLong (Text.leadingDigits s.toList) := by
  cases hplain : Text.plainNumeral? s.toList with
  | none =>
    have hnot : ¬ ∃ n, Text.Denotes s.toList n := by
      rintro ⟨n, hn⟩
      rw [Text.plainNumeral?_eq_some_iff.mpr hn] at hplain
      cases hplain
    rw [unread?, hplain]
    exact iff_of_false (by rintro ⟨⟩) fun h => hnot h.1
  | some n =>
    have hdenotes : Text.Denotes s.toList n := Text.plainNumeral?_eq_some_iff.mp hplain
    rw [unread?, hplain, Option.isSome_some, if_pos rfl, Text.readNumeral, hdenotes.lenientNumeral?,
      and_iff_right ⟨n, hdenotes⟩]
    by_cases hlong : Text.maxDigits < Text.leadingDigits s.toList
    · rw [if_pos hlong, and_iff_right hlong, Option.some_inj, eq_comm]
    · rw [if_neg hlong]
      exact iff_of_false (by rintro ⟨⟩) fun h => hlong h.1

namespace Operator

variable {s : String} {n : Int}

theorem run_int (s : String) : int.run [.string s] = Texts.numberIn s := rfl

/-- The host reads what every other operator is given, and every other argument. -/
theorem fault?_eq_some {o : Operator} {args : List Value} {f : Text.NumeralFault}
    (h : o.fault? args = some f) : ∃ s, o = .int ∧ args = [.string s] ∧ Texts.unread? s = some f := by
  unfold fault? at h
  split at h
  · next s => exact ⟨s, rfl, rfl, h⟩
  · cases h

/-- A text without too many digits is answered. -/
theorem fault?_int_eq_none (h : Text.leadingDigits s.toList ≤ Text.maxDigits) :
    int.fault? [.string s] = none := by
  change Texts.unread? s = none
  rw [Option.eq_none_iff_forall_ne_some]
  exact fun f hf => absurd (Texts.unread?_eq_some_iff.mp hf).2.1 (Nat.not_lt_of_le h)

/-- A number in range is the answer. -/
theorem run_int_of_denotes (h : Text.Denotes s.toList n) :
    int.run [.string s] = if fits n then .ok (.number n) else .error (.invalidNumber s) := by
  rw [run_int, Texts.numberIn, Text.plainNumeral?_eq_some_iff.mpr h]

/-- A text that denotes no number is refused. -/
theorem run_int_of_not (h : ∀ n, ¬ Text.Denotes s.toList n) :
    int.run [.string s] = .error (.invalidNumber s) := by
  have hnone : Text.plainNumeral? s.toList = none := by
    rw [Option.eq_none_iff_forall_ne_some]
    exact fun n hn => h n (Text.plainNumeral?_eq_some_iff.mp hn)
  rw [run_int, Texts.numberIn, hnone]

/-- **The answer is a number** when the text denotes one in range. -/
theorem run_int_eq_ok : int.run [.string s] = .ok (.number n) ↔
    Text.Denotes s.toList n ∧ fits n = true := by
  constructor
  · intro h
    by_cases hdenotes : ∃ k, Text.Denotes s.toList k
    · obtain ⟨k, hk⟩ := hdenotes
      rw [run_int_of_denotes hk] at h
      split at h
      · next hfits =>
        cases h
        exact ⟨hk, hfits⟩
      · cases h
    · rw [run_int_of_not fun k hk => hdenotes ⟨k, hk⟩] at h
      cases h
  · rintro ⟨hdenotes, hfits⟩
    rw [run_int_of_denotes hdenotes, if_pos hfits]

/-- **Every other text is refused.** -/
theorem run_int_eq_error (h : ∀ n, ¬ (Text.Denotes s.toList n ∧ fits n = true)) :
    int.run [.string s] = .error (.invalidNumber s) := by
  by_cases hdenotes : ∃ k, Text.Denotes s.toList k
  · obtain ⟨k, hk⟩ := hdenotes
    rw [run_int_of_denotes hk, if_neg fun hfits => h k ⟨hk, hfits⟩]
  · exact run_int_of_not fun k hk => hdenotes ⟨k, hk⟩

end Operator

/-! ## 3. The reader -/

/-- **A numeral that is a text by itself** is read as what the operator answers for it, unless it
has too many digits; then it is not read, nor is the operator's text. -/
theorem ofNodes_numeral {s : String} (h : IsNumeral s) : ∃ nodes, parse s = .ok nodes ∧
    Value.ofNodes nodes =
      match Operator.int.fault? [.string s] with
      | some f => .error (.badNumeral f)
      | none => .ok [.ofExcept (Operator.int.run [.string s])] := by
  refine ⟨_, parse_of_isNumeral h, ?_⟩
  have htag : (Node.leaf .number ⟨.number, s, {}⟩).tag ≠ .comment := nofun
  obtain ⟨n, hplain, hnode⟩ := ofNode_number (t := ⟨.number, s, {}⟩) rfl h
  have hdenotes : Text.Denotes s.toList n := Text.plainNumeral?_eq_some_iff.mp hplain
  rw [Token.isTooLong, decide_eq_true rfl, Bool.true_and] at hnode
  by_cases hlong : Text.maxDigits < Text.leadingDigits s.toList
  · rw [if_pos (decide_eq_true hlong)] at hnode
    have hfault : Operator.int.fault? [.string s] = some (.tooLong (Text.leadingDigits s.toList)) :=
      Texts.unread?_eq_some_iff.mpr ⟨⟨n, hdenotes⟩, hlong, rfl⟩
    rw [hfault, Value.ofNodes, if_neg htag, hnode]
    rfl
  · rw [if_neg (by simpa using hlong)] at hnode
    rw [Operator.fault?_int_eq_none (Nat.le_of_not_lt hlong), Value.ofNodes_single htag hnode,
      Operator.run_int_of_denotes hdenotes]
    split <;> rfl

/-- The operator does not read the least of the numerals that the host does not read. -/
theorem Operator.fault?_nines : int.fault? [.string (nines (Text.maxDigits + 1))] =
    some (.tooLong (Text.maxDigits + 1)) := by
  obtain ⟨nodes, hparse, hread⟩ := ofNodes_numeral (isNumeral_nines Text.maxDigits)
  rw [ofNodes_of_unread hparse unread?_nines] at hread
  split at hread
  · next f hfault =>
    cases hread
    exact hfault
  · cases hread

/-! ## 4. Printed numbers -/

/-- The printed form of a number is a numeral. -/
theorem isNumeral_decimal (n : Int) : IsNumeral (Value.number n).text := by
  have hdigits : ∀ d ∈ Nat.toDigits 10 n.natAbs, d.isDigit = true := fun _ hd =>
    isDigit_of_mem_toDigits hd
  refine ⟨Nat.toDigits 10 n.natAbs, Nat.toDigits_ne_nil, hdigits, ?_⟩
  rw [Value.toList_text, Value.chars_number, decimalChars]
  split
  · exact Or.inr rfl
  · exact Or.inl rfl

/-- The printed form of a number denotes it. -/
theorem denotes_decimal (n : Int) : Text.Denotes (Value.number n).text.toList n := by
  obtain ⟨k, hplain, hlenient⟩ := numeral?_of_isNumeral (isNumeral_decimal n)
  rw [Value.toList_text, Value.chars_number, lenientNumeral?_decimalChars] at hlenient
  obtain rfl := Option.some.inj hlenient
  exact Text.plainNumeral?_eq_some_iff.mp hplain

/-! ## 5. The theorem -/

/-- **The operator and the reader read the same numbers.**

1. `int` answers a number for a text if the text denotes it and it is in range: the text is an optional
   sign and one or more ASCII digits.  For every other text there is an error that names the text.
2. A text that is an optional minus and one or more ASCII digits parses as one form, which is what `int`
   answers for the text, be it the number or the error.
3. From the printed form of a number in range both give the number back.

All this is for texts with no more digits than the host reads, and about these the answer is given.
Where a text of the second kind has more, the host reads it neither for the operator nor for the
reader, and both stop for the same reason. -/
theorem int_reads_what_the_reader_reads :
    (∀ s : String,
      (Text.leadingDigits s.toList ≤ Text.maxDigits → Operator.int.fault? [.string s] = none) ∧
      (∀ n, Operator.int.run [.string s] = .ok (.number n) ↔
        Text.Denotes s.toList n ∧ fits n = true) ∧
      ((∀ n, ¬ (Text.Denotes s.toList n ∧ fits n = true)) →
        Value.ofExcept (Operator.int.run [.string s]) =
          .error ("invalid number: " ++ s) .parseFailure)) ∧
    (∀ s : String, IsNumeral s → ∃ nodes, parse s = .ok nodes ∧
      (Text.leadingDigits s.toList ≤ Text.maxDigits →
        Value.ofNodes nodes = .ok [.ofExcept (Operator.int.run [.string s])]) ∧
      ∀ f, Operator.int.fault? [.string s] = some f →
        Value.ofNodes nodes = .error (.badNumeral f)) ∧
    ∀ n, fits n = true →
      let s := (Value.number n).text
      Text.leadingDigits s.toList ≤ Text.maxDigits ∧
        Operator.int.run [.string s] = .ok (.number n) ∧
        ∃ nodes, parse s = .ok nodes ∧ Value.ofNodes nodes = .ok [.number n] := by
  have hread (s : String) (h : IsNumeral s) : ∃ nodes, parse s = .ok nodes ∧
      (Text.leadingDigits s.toList ≤ Text.maxDigits →
        Value.ofNodes nodes = .ok [.ofExcept (Operator.int.run [.string s])]) ∧
      ∀ f, Operator.int.fault? [.string s] = some f →
        Value.ofNodes nodes = .error (.badNumeral f) := by
    obtain ⟨nodes, hparse, hnodes⟩ := ofNodes_numeral h
    refine ⟨nodes, hparse, fun hdigits => ?_, fun f hf => ?_⟩
    · rw [hnodes, Operator.fault?_int_eq_none hdigits]
    · rw [hnodes, hf]
  refine ⟨fun s => ⟨Operator.fault?_int_eq_none, fun n => Operator.run_int_eq_ok, fun h => ?_⟩, hread,
    fun n hn => ?_⟩
  · rw [Operator.run_int_eq_error h]
    rfl
  · intro s
    have hdigits : Text.leadingDigits s.toList ≤ Text.maxDigits := by
      rw [Value.toList_text, Value.chars_number]
      exact leadingDigits_decimalChars hn
    have hint : Operator.int.run [.string s] = .ok (.number n) :=
      Operator.run_int_eq_ok.mpr ⟨denotes_decimal n, hn⟩
    obtain ⟨nodes, hparse, hnodes, -⟩ := hread s (isNumeral_decimal n)
    rw [hint] at hnodes
    exact ⟨hdigits, hint, nodes, hparse, hnodes hdigits⟩

/-- A minus and a zero before the digit, a plus, a sign that stands alone, and a numeral just past the
largest number. -/
theorem int_reads_what_the_reader_reads_signs :
    Text.Denotes "-07".toList (-7) ∧ Operator.int.run [.string "-07"] = .ok (.number (-7)) ∧
      Operator.int.run [.string "+7"] = .ok (.number 7) ∧
      (∀ n, ¬ (Text.Denotes "-".toList n ∧ fits n = true)) ∧
      Value.ofExcept (Operator.int.run [.string "-"]) = .error "invalid number: -" .parseFailure ∧
      IsNumeral "9223372036854775808" ∧
      (∃ nodes, parse "9223372036854775808" = .ok nodes ∧ Value.ofNodes nodes =
        .ok [.error "invalid number: 9223372036854775808" .parseFailure]) ∧
      fits minNumber = true ∧
      Operator.int.run [.string (Value.number minNumber).text] = .ok (.number minNumber) := by
  obtain ⟨hint, hread, hback⟩ := int_reads_what_the_reader_reads
  have hminus : Text.Denotes "-07".toList (-7) :=
    .minus (List.cons_ne_nil '0' ['7']) (List.all_eq_true.mp rfl)
  have hplus : Text.Denotes "+7".toList 7 :=
    .plus (List.cons_ne_nil '7' []) (List.all_eq_true.mp rfl)
  have hsign : ∀ n, ¬ (Text.Denotes "-".toList n ∧ fits n = true) := by
    rintro n ⟨hn, -⟩
    have hnone : Text.plainNumeral? "-".toList = none := by decide
    rw [Text.plainNumeral?_eq_some_iff.mpr hn] at hnone
    cases hnone
  have hlarge : IsNumeral "9223372036854775808" :=
    ⟨"9223372036854775808".toList, by decide, List.all_eq_true.mp rfl, Or.inl rfl⟩
  have hrefused : Value.ofExcept (Operator.int.run [.string "9223372036854775808"]) =
      .error "invalid number: 9223372036854775808" .parseFailure := by with_unfolding_all rfl
  obtain ⟨nodes, hparse, hpast, -⟩ := hread _ hlarge
  rw [hrefused] at hpast
  exact ⟨hminus, ((hint _).2.1 _).mpr ⟨hminus, by decide⟩, ((hint _).2.1 _).mpr ⟨hplus, by decide⟩,
    hsign, (hint _).2.2 hsign, hlarge, ⟨nodes, hparse, hpast (by decide +kernel)⟩, by decide,
    (hback _ (by decide)).2.1⟩

end CurryLisp
