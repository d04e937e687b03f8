/-
# Powers

A power is computed exactly and then checked against the range, after a guess: a base of magnitude two
or more with an exponent above sixty-three has no power in range.  Multiplication takes copies of the
base one by one and checks every power on the way.  Both come to the same, because powers do not get
smaller in magnitude again: if one of them is in range, so are all before it.

* `Numbers.fits_pow_of_le`: the powers before a power in range;
* `Numbers.not_fits_pow`: the guess is right;
* `Operator.run_pow`: raising a number to a power checks the exact power;
* `Operator.run_mul_replicate`: so does multiplying copies, by induction on how many are left.

The main statement is `power_is_repeated_multiplication`.
-/
import CurryLisp.Proofs.Arithmetic
import Mathlib.Algebra.Order.Ring.Int

namespace CurryLisp

/-! ## 1. Powers in range -/

namespace Numbers

/-- A base of magnitude two or more at least doubles the magnitude with every factor. -/
theorem two_pow_le_natAbs_pow {b : Int} (hb : 1 < b.natAbs) (e : Nat) : 2 ^ e ≤ (b ^ e).natAbs := by
  rw [Int.natAbs_pow]
  exact Nat.pow_le_pow_left hb e

/-- **Large exponents leave the range**, unless the base is zero or one of the units. -/
theorem not_fits_pow {b : Int} (hb : 1 < b.natAbs) {e : Nat} (he : 63 < e) : fits (b ^ e) = false := by
  have hlarge : 2 ^ 64 ≤ (b ^ e).natAbs :=
    (Nat.pow_le_pow_right (by decide) he).trans (two_pow_le_natAbs_pow hb e)
  rw [Bool.eq_false_iff, Ne, fits_iff]
  simp only [minNumber, maxNumber]
  omega

/-- The power before a power in range is in range. -/
theorem fits_pow_of_succ {b : Int} {k : Nat} (h : fits (b ^ (k + 1)) = true) :
    fits (b ^ k) = true := by
  have hfactor : (b ^ (k + 1)).natAbs = (b ^ k).natAbs * b.natAbs := by
    rw [pow_succ, Int.natAbs_mul]
  rw [fits_iff] at h ⊢
  simp only [minNumber, maxNumber] at h ⊢
  by_cases hb : b.natAbs ≤ 1
  · have hsmall : (b ^ k).natAbs ≤ 1 := by
      rw [Int.natAbs_pow]
      exact (Nat.pow_le_pow_left hb k).trans_eq (one_pow k)
    omega
  · have hhalf : (b ^ k).natAbs * 2 ≤ (b ^ k).natAbs * b.natAbs :=
      Nat.mul_le_mul_left _ (Nat.lt_of_not_le hb)
    omega

/-- **All powers before a power in range are in range.** -/
theorem fits_pow_of_le {b : Int} {j k : Nat} (hjk : j ≤ k) (h : fits (b ^ k) = true) :
    fits (b ^ j) = true := by
  induction k, hjk using Nat.le_induction with
  | base => exact h
  | succ k _ ih => exact ih (fits_pow_of_succ h)

/-! ## 2. Multiplying copies -/

/-- **Multiplying copies of a base checks the last power only**, as far as one can see from what comes
out: a power that is out of range is not followed by one that is in range. -/
theorem foldFrom_replicate (func : String) {b : Int} {j : Nat} (hj : fits (b ^ j) = true) (k : Nat) :
    foldFrom func Operation.mul.step (b ^ j) (List.replicate k b) = checked func (b ^ (j + k)) := by
  induction k generalizing j with
  | zero => exact (checked_of_fits hj).symm
  | succ k ih =>
    have hstep : checkedStep func Operation.mul.step (b ^ j) b = checked func (b ^ (j + 1)) := by
      rw [Operation.checkedStep_eq, if_neg (by simp), Operation.exact, pow_succ]
    rw [List.replicate_succ]
    by_cases hnext : fits (b ^ (j + 1)) = true
    · rw [foldFrom_of_ok (hstep.trans (checked_of_fits hnext)), ih hnext, Nat.add_right_comm,
        Nat.add_assoc]
    · have hlast : fits (b ^ (j + (k + 1))) = false := by
        rw [Bool.eq_false_iff]
        exact fun h => hnext (fits_pow_of_le (by omega) h)
      rw [foldFrom_of_error (hstep.trans (checked_of_not_fits (Bool.eq_false_iff.mpr hnext))),
        checked_of_not_fits hlast]

end Numbers

namespace Operator

/-- Raising a number to a power checks the exact power. -/
theorem run_pow (b : Int) (e : Nat) :
    pow.run [.number b, .number e] = (Numbers.checked pow.name (b ^ e)).map .number := by
  have htwo : Numbers.two pow.name [.number b, .number e] = .ok (b, (e : Int)) :=
    Numbers.two_eq_ok.mpr rfl
  have hnonneg : ¬ (e : Int) < 0 := by omega
  have hpower : Numbers.power b (e : Int).toNat = b ^ e := Numbers.power_eq_pow b e
  rw [run, Numbers.pow, htwo]
  change (if (e : Int) < 0 then Except.error (Failure.outOfRange pow.name (.negativeExponent e))
    else if 1 < b.natAbs ∧ 63 < (e : Int) then .error (.overflow pow.name)
    else do return Value.number (← Numbers.checked pow.name (Numbers.power b (e : Int).toNat))) = _
  rw [if_neg hnonneg, hpower]
  split
  · next hlarge =>
    rw [Numbers.checked_of_not_fits (Numbers.not_fits_pow hlarge.1 (by omega))]
    rfl
  · cases Numbers.checked pow.name (b ^ e) <;> rfl

/-- Multiplying copies of a number in range checks their product. -/
theorem run_mul_replicate {b : Int} (hb : fits b = true) {e : Nat} (he : 0 < e) :
    mul.run (List.replicate e (.number b)) = (Numbers.checked mul.name (b ^ e)).map .number := by
  obtain ⟨k, rfl⟩ := Nat.exists_eq_succ_of_ne_zero (Nat.ne_of_gt he)
  have hcopies : List.replicate (k + 1) (Value.number b) = (b :: List.replicate k b).map .number := by
    rw [← List.replicate_succ, List.map_replicate]
  have hrun : mul.run ((b :: List.replicate k b).map .number) =
      (Numbers.foldFrom mul.name Operation.mul.step b (List.replicate k b)).map .number :=
    Operation.run_numbers (o := .mul) nofun
  have hfirst : fits (b ^ 1) = true := (pow_one b).symm ▸ hb
  have hfold := Numbers.foldFrom_replicate mul.name hfirst k
  rw [pow_one, Nat.add_comm] at hfold
  rw [hcopies, hrun, hfold]

end Operator

/-! ## 3. The theorem -/

/-- **Power is repeated multiplication.**  Take a base in range and an exponent that is not negative.

1. The power is the answer if it is in range, and otherwise there is an overflow.
2. If the exponent is not zero, multiplying so many copies of the base gives the same number, or an
   overflow as well. -/
theorem power_is_repeated_multiplication (b : Int) (hb : fits b = true) (e : Nat) :
    (Operator.pow.run [.number b, .number e] =
      if fits (b ^ e) then .ok (.number (b ^ e)) else .error (.overflow "**")) ∧
    (0 < e → Operator.mul.run (List.replicate e (.number b)) =
      if fits (b ^ e) then .ok (.number (b ^ e)) else .error (.overflow "*")) := by
  refine ⟨?_, fun he => ?_⟩
  · rw [Operator.run_pow, Numbers.map_checked]
    rfl
  · rw [Operator.run_mul_replicate hb he, Numbers.map_checked]
    rfl

/-- The smallest number is a power of minus two, and its opposite is no power of two that can be had. -/
theorem power_is_repeated_multiplication_edge :
    fits (-2) = true ∧ fits 2 = true ∧
      Operator.pow.run [.number (-2), .number 63] = .ok (.number minNumber) ∧
      Operator.mul.run (List.replicate 63 (.number (-2))) = .ok (.number minNumber) ∧
      Operator.pow.run [.number 2, .number 63] = .error (.overflow "**") ∧
      Operator.mul.run (List.replicate 63 (.number 2)) = .error (.overflow "*") := by
  have hsmallest : fits (-2) = true := by decide
  have htwo : fits 2 = true := by decide
  obtain ⟨hpow, hmul⟩ := power_is_repeated_multiplication (-2) hsmallest 63
  obtain ⟨hpow', hmul'⟩ := power_is_repeated_multiplication 2 htwo 63
  exact ⟨hsmallest, htwo, hpow, hmul (by decide), hpow', hmul' (by decide)⟩

end CurryLisp
