/-
# Bits and words

The operators on bits compute with integers, whose rows of bits never end, and check the range after
every step.  Words of sixty-four bits do not come into it.  All the same, what the operators answer is
what words give: an integer is in range exactly when its row repeats its sign from the last bit of a
word on (`Numbers.fits_iff_testBit`), and combining two such rows bit by bit gives such a row again.  So
the check never fails (`Numbers.fits_combine`), and nothing is lost when only the words are looked at
(`Numbers.word_injective`).

* `Numbers.testBit_combine`: integers are combined bit by bit;
* `Numbers.foldFrom_of_fits`: a fold whose steps stay in range;
* `BitOperation.word_combine`: combining integers combines their words.

The main statement is `bit_operations_combine_words`.
-/
import CurryLisp.Proofs.Arithmetic
import Mathlib.Data.Int.Bitwise
import Mathlib.Data.List.Perm.Basic

namespace CurryLisp

/-! ## 1. The bits of an integer -/

namespace Numbers

variable {f : Bool → Bool → Bool} {a b n : Int}

/-- A bit of an integer is turned over if the integer is negative. -/
theorem testBit_eq (n : Int) (i : Nat) : n.testBit i = ((bits n).testBit i ^^ decide (n < 0)) := by
  cases n with
  | ofNat m =>
    have hsign : ¬ Int.ofNat m < 0 := Int.not_lt.mpr (Int.natCast_nonneg m)
    simp only [hsign, decide_false, Bool.xor_false]
    rfl
  | negSucc m =>
    have hsign : Int.negSucc m < 0 := Int.negSucc_lt_zero m
    simp only [hsign, decide_true, Bool.xor_true]
    rfl

@[simp] theorem bits_ofBits (negative : Bool) (m : Nat) : bits (ofBits negative m) = m := by
  cases negative <;> rfl

@[simp] theorem ofBits_neg (negative : Bool) (m : Nat) :
    decide (ofBits negative m < 0) = negative := by
  cases negative <;> simp [ofBits]

/-- What is combined of two integers has the sign that is combined of their signs. -/
theorem combine_neg (f : Bool → Bool → Bool) (a b : Int) :
    decide (combine f a b < 0) = f (decide (a < 0)) (decide (b < 0)) :=
  ofBits_neg _ _

/-- **Integers are combined bit by bit.** -/
theorem testBit_combine (f : Bool → Bool → Bool) (a b : Int) (i : Nat) :
    (combine f a b).testBit i = f (a.testBit i) (b.testBit i) := by
  rw [testBit_eq, combine_neg, testBit_eq a, testBit_eq b, combine, bits_ofBits,
    Nat.testBit_bitwise (by simp)]
  simp

/-- The range of numbers leaves sixty-three bits to a number and its sign. -/
theorem fits_iff_bits : fits n = true ↔ bits n < 2 ^ 63 := by
  rw [fits_iff]
  simp only [minNumber, maxNumber]
  cases n with
  | ofNat m =>
    simp only [bits, Int.ofNat_eq_natCast]
    omega
  | negSucc m =>
    simp only [bits, Int.negSucc_eq]
    omega

/-- **An integer is in range exactly when its row of bits repeats the sign** from the last bit of a
word on. -/
theorem fits_iff_testBit : fits n = true ↔ ∀ i, 63 ≤ i → n.testBit i = decide (n < 0) := by
  have hown (i : Nat) : n.testBit i = decide (n < 0) ↔ (bits n).testBit i = false := by
    rw [testBit_eq]
    cases decide (n < 0) <;> simp
  simp only [fits_iff_bits, hown]
  constructor
  · intro hlt i hi
    exact Nat.testBit_lt_two_pow (hlt.trans_le (Nat.pow_le_pow_right (by decide) hi))
  · exact Nat.lt_pow_two_of_testBit (bits n)

/-- **Combining integers in range stays in range**: where both rows repeat their signs, so does the
combined row. -/
theorem fits_combine (f : Bool → Bool → Bool) (ha : fits a = true) (hb : fits b = true) :
    fits (combine f a b) = true := by
  rw [fits_iff_testBit] at ha hb ⊢
  intro i hi
  rw [testBit_combine, ha i hi, hb i hi, combine_neg]

/-! ## 2. Folds that stay in range -/

/-- A fold whose steps stay in range is never stopped. -/
theorem foldFrom_of_fits (func : String) {step : Int → Int → Int} {ns : List Int}
    (hstep : ∀ {a b}, fits a = true → fits b = true → fits (step a b) = true)
    (hn : fits n = true) (hns : ∀ m ∈ ns, fits m = true) :
    foldFrom func (fun a b => .ok (step a b)) n ns = .ok (ns.foldl step n) := by
  induction ns generalizing n with
  | nil => rfl
  | cons m rest ih =>
    obtain ⟨hm, hrest⟩ := List.forall_mem_cons.mp hns
    have hnext : checkedStep func (fun a b => .ok (step a b)) n m = .ok (step n m) :=
      checked_of_fits (hstep hn hm)
    rw [foldFrom_of_ok hnext, ih (hstep hn hm) hrest, List.foldl_cons]

/-! ## 3. Words -/

/-- The word of an integer in two's complement. -/
def word (n : Int) : BitVec 64 := BitVec.ofInt 64 n

/-- A word has the lowest bits of the integer. -/
theorem getLsbD_word {i : Nat} (hi : i < 64) (n : Int) : (word n).getLsbD i = n.testBit i := by
  cases n with
  | ofNat m =>
    change (BitVec.ofNat 64 m).getLsbD i = m.testBit i
    simp only [BitVec.getLsbD_ofNat, hi, decide_true, Bool.true_and]
  | negSucc m =>
    change (BitVec.ofInt 64 (.negSucc m)).getLsbD i = !m.testBit i
    simp only [BitVec.ofInt_negSucc_eq_not_ofNat, BitVec.getLsbD_not, BitVec.getLsbD_ofNat, hi,
      decide_true, Bool.true_and]

/-- **Words tell numbers in range apart.** -/
theorem word_injective (ha : fits a = true) (hb : fits b = true) (h : word a = word b) : a = b := by
  have hsigned {n : Int} (hn : fits n = true) : (word n).toInt = n := by
    rw [fits_iff] at hn
    simp only [minNumber, maxNumber] at hn
    exact BitVec.toInt_ofInt_eq_self (by decide) (by omega) (by omega)
  rw [← hsigned ha, ← hsigned hb, h]

end Numbers

/-! ## 4. Operations on bits -/

/-- The three operations on bits. -/
inductive BitOperation
  | and
  | or
  | xor
  deriving DecidableEq, Repr

namespace BitOperation

/-- The operator for an operation. -/
def operator : BitOperation → Operator
  | and => .bitAnd
  | or => .bitOr
  | xor => .bitXor

/-- What is done to two bits. -/
def onBits : BitOperation → Bool → Bool → Bool
  | and => Bool.and
  | or => Bool.or
  | xor => Bool.xor

/-- What is done to two words. -/
def onWords : BitOperation → BitVec 64 → BitVec 64 → BitVec 64
  | and => fun v w => v &&& w
  | or => fun v w => v ||| w
  | xor => fun v w => v ^^^ w

/-- The word that leaves every other word as it is. -/
def neutral : BitOperation → BitVec 64
  | and => BitVec.allOnes 64
  | or => 0
  | xor => 0

/-- One word for many, combined from left to right. -/
def combined (o : BitOperation) (ws : List (BitVec 64)) : BitVec 64 := ws.foldl o.onWords o.neutral

variable (o : BitOperation)

theorem neutral_onWords (w : BitVec 64) : o.onWords o.neutral w = w := by
  cases o with
  | and => exact BitVec.allOnes_and
  | or => exact BitVec.zero_or
  | xor => exact BitVec.zero_xor

/-- Words are combined bit by bit. -/
theorem getLsbD_onWords (v w : BitVec 64) (i : Nat) :
    (o.onWords v w).getLsbD i = o.onBits (v.getLsbD i) (w.getLsbD i) := by
  cases o <;> simp [onWords, onBits]

instance : RightCommutative o.onWords where
  right_comm u v w := by
    apply BitVec.eq_of_getLsbD_eq
    intro i _
    simp only [getLsbD_onWords]
    cases o with
    | and => exact Bool.and_right_comm _ _ _
    | or => exact Bool.or_right_comm _ _ _
    | xor => exact Bool.xor_right_comm _ _ _

/-- The order of words does not matter. -/
theorem combined_perm {vs ws : List (BitVec 64)} (h : vs.Perm ws) : o.combined vs = o.combined ws :=
  h.foldl_eq _

/-- **Combining integers combines their words.** -/
theorem word_combine (a b : Int) : Numbers.word (Numbers.combine o.onBits a b) =
    o.onWords (Numbers.word a) (Numbers.word b) := by
  apply BitVec.eq_of_getLsbD_eq
  intro i hi
  rw [getLsbD_onWords, Numbers.getLsbD_word hi, Numbers.getLsbD_word hi, Numbers.getLsbD_word hi,
    Numbers.testBit_combine]

/-- Combining many integers combines their words. -/
theorem word_foldl_combine (n : Int) (ns : List Int) :
    Numbers.word (ns.foldl (Numbers.combine o.onBits) n) =
      o.combined ((n :: ns).map Numbers.word) := by
  rw [combined, List.map_cons, List.foldl_cons, neutral_onWords, List.foldl_map]
  exact (List.foldl_hom Numbers.word fun a b => (o.word_combine a b).symm).symm

/-- An operation on bits answers a number in range, the one whose word is combined of all words. -/
theorem exists_run_numbers {ns : List Int} (hne : ns ≠ []) (hfits : ∀ n ∈ ns, fits n = true) :
    ∃ n, o.operator.run (ns.map .number) = .ok (.number n) ∧ fits n = true ∧
      Numbers.word n = o.combined (ns.map Numbers.word) := by
  cases ns with
  | nil => exact absurd rfl hne
  | cons n ns =>
    obtain ⟨hn, hns⟩ := List.forall_mem_cons.mp hfits
    have hfold := Numbers.foldFrom_of_fits o.operator.name (Numbers.fits_combine o.onBits) hn hns
    have hrun : o.operator.run ((n :: ns).map .number) =
        Numbers.foldTotal o.operator.name (Numbers.combine o.onBits) ((n :: ns).map .number) := by
      cases o <;> rfl
    refine ⟨_, ?_, Numbers.fits_of_foldFrom hn hfold, o.word_foldl_combine n ns⟩
    rw [hrun, Numbers.foldTotal, Numbers.fold_numbers, hfold]
    rfl

/-! ## 5. The theorem -/

/-- **Operations on bits combine words.**  Applied to one or more numbers in range, an operation on bits
answers a number in range and never an overflow.  The word of this number is combined of the words of
all arguments, and the order of the arguments does not matter. -/
theorem bit_operations_combine_words (o : BitOperation) (ns : List Int) (hne : ns ≠ [])
    (hfits : ∀ n ∈ ns, fits n = true) :
    ∃ n, o.operator.run (ns.map .number) = .ok (.number n) ∧ fits n = true ∧
      Numbers.word n = o.combined (ns.map Numbers.word) ∧
      ∀ ms : List Int, ms.Perm ns → o.operator.run (ms.map .number) = .ok (.number n) := by
  obtain ⟨n, hrun, hn, hword⟩ := o.exists_run_numbers hne hfits
  refine ⟨n, hrun, hn, hword, fun ms hperm => ?_⟩
  have hne' : ms ≠ [] := fun h => hne (h ▸ hperm).nil_eq.symm
  obtain ⟨m, hrun', hm, hword'⟩ := o.exists_run_numbers hne' fun k hk => hfits k (hperm.mem_iff.mp hk)
  have hsame : m = n := by
    apply Numbers.word_injective hm hn
    rw [hword, hword', o.combined_perm (hperm.map Numbers.word)]
  rw [hrun', hsame]

/-- The smallest number, the largest and two more: an exclusive or of words that differ in sign. -/
theorem bit_operations_combine_words_signs :
    let ns : List Int := [minNumber, -6, maxNumber, 12]
    (∀ n ∈ ns, fits n = true) ∧
      ∃ n, Operator.bitXor.run (ns.map .number) = .ok (.number n) ∧
        Numbers.word n = 0x9#64 ∧
        Operator.bitXor.run [.number 12, .number maxNumber, .number minNumber, .number (-6)] =
          .ok (.number n) := by
  intro ns
  have hfits : ∀ n ∈ ns, fits n = true := by decide
  obtain ⟨n, hrun, -, hword, hperm⟩ := bit_operations_combine_words xor ns nofun hfits
  exact ⟨hfits, n, hrun, hword.trans (by decide),
    hperm [12, maxNumber, minNumber, -6] (by decide)⟩

end BitOperation

end CurryLisp
