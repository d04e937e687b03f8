/-
# Shifts

Shifting to the right divides by a power of two and rounds down, also where division rounds toward zero.
Shifting to the left multiplies by a power of two and checks the product.  If the product is in range,
shifting back gives the number again, because nothing is rounded.  Multiplying by the power itself
comes to the same up to sixty-two places; the next power of two is no number any more, though a shift by
sixty-three places may still be in range.

* `Numbers.shift_of_le`, `Numbers.shift_of_refused`: what a shift does with the number of places;
* `Numbers.fits_div_two_pow`: dividing by a power of two stays in range;
* `Operator.run_shiftRight_shiftLeft`: shifting back.

The main statement is `shifts_scale_by_powers_of_two`.
-/
import CurryLisp.Proofs.Division
import CurryLisp.Proofs.Powers
import Mathlib.Data.Rat.Floor

namespace CurryLisp

/-! ## 1. One shift -/

namespace Numbers

variable {func : String} {op : Int → Nat → Int}

/-- A shift by at most sixty-three places checks what it comes to. -/
theorem shift_of_le (n : Int) {k : Nat} (hk : k ≤ 63) :
    shift func op [.number n, .number k] = (checked func (op n k)).map .number := by
  have htwo : two func [.number n, .number k] = .ok (n, (k : Int)) := two_eq_ok.mpr rfl
  have hplaces : ¬ ((k : Int) < 0 ∨ 63 < (k : Int)) := by omega
  rw [shift, htwo]
  change (if (k : Int) < 0 ∨ 63 < (k : Int) then Except.error (Failure.outOfRange func (.shiftAmount k))
    else do return Value.number (← checked func (op n (k : Int).toNat))) = _
  rw [if_neg hplaces, Int.toNat_natCast]
  cases checked func (op n k) <;> rfl

/-- A shift by any other number of places is refused. -/
theorem shift_of_refused (n : Int) {k : Int} (hk : k < 0 ∨ 63 < k) :
    shift func op [.number n, .number k] = .error (.outOfRange func (.shiftAmount k)) := by
  have htwo : two func [.number n, .number k] = .ok (n, k) := two_eq_ok.mpr rfl
  rw [shift, htwo]
  exact if_pos hk

/-- **Dividing by a power of two stays in range.** -/
theorem fits_div_two_pow {n : Int} (hn : fits n = true) (k : Nat) : fits (n / 2 ^ k) = true := by
  have hone : (1 : Int) ≤ 2 ^ k := Int.add_one_le_iff.mpr (Int.pow_pos (by decide))
  have hpos : (0 : Int) < 2 ^ k := by omega
  rw [fits_iff] at hn ⊢
  simp only [minNumber, maxNumber] at hn ⊢
  generalize (2 : Int) ^ k = d at hone hpos ⊢
  constructor
  · rw [Int.le_ediv_iff_mul_le hpos]
    omega
  · have hlt : n / d < 9223372036854775808 := Int.ediv_lt_of_lt_mul hpos (by omega)
    omega

/-- The powers of two that are numbers. -/
theorem fits_two_pow {k : Nat} (hk : k ≤ 62) : fits (2 ^ k) = true :=
  fits_pow_of_le hk (by decide)

end Numbers

/-! ## 2. Two operators after each other -/

namespace Operator

/-- Shifting to the left checks the product with the power of two. -/
theorem run_shiftLeft (n : Int) {k : Nat} (hk : k ≤ 63) :
    shiftLeft.run [.number n, .number k] =
      if fits (n * 2 ^ k) then .ok (.number (n * 2 ^ k)) else .error (.overflow "<<") := by
  have hrun : shiftLeft.run [.number n, .number k] =
      (Numbers.checked "<<" (n * 2 ^ k)).map .number := Numbers.shift_of_le n hk
  rw [hrun, Numbers.map_checked]

/-- Shifting to the right rounds the quotient by the power of two down. -/
theorem run_shiftRight {n : Int} (hn : fits n = true) {k : Nat} (hk : k ≤ 63) :
    shiftRight.run [.number n, .number k] = .ok (.number (n / 2 ^ k)) := by
  have hrun : shiftRight.run [.number n, .number k] =
      (Numbers.checked ">>" (n / 2 ^ k)).map .number := Numbers.shift_of_le n hk
  rw [hrun, Numbers.map_checked, if_pos (Numbers.fits_div_two_pow hn k)]

/-- **Shifting back** undoes a shift to the left that is in range. -/
theorem run_shiftRight_shiftLeft {n m : Int} {k : Nat} (hk : k ≤ 63)
    (h : shiftLeft.run [.number n, .number k] = .ok (.number m)) :
    shiftRight.run [.number m, .number k] = .ok (.number n) := by
  rw [run_shiftLeft n hk] at h
  split at h
  · next hfits =>
    cases h
    have hpos : (2 : Int) ^ k ≠ 0 := pow_ne_zero k (by decide)
    rw [run_shiftRight hfits hk, Int.mul_ediv_cancel n hpos]
  · cases h

/-- Multiplying by a power of two that is a number. -/
theorem run_mul_two_pow (n : Int) (k : Nat) : mul.run [.number n, .number (2 ^ k)] =
    if fits (n * 2 ^ k) then .ok (.number (n * 2 ^ k)) else .error (.overflow "*") := by
  have hrun : mul.run [.number n, .number (2 ^ k)] =
      (Numbers.checked "*" (n * 2 ^ k)).map .number :=
    (Operation.run_two .mul n (2 ^ k)).trans (if_neg (by simp))
  rw [hrun, Numbers.map_checked]

/-- The power of two itself. -/
theorem run_pow_two {k : Nat} (hk : k ≤ 62) :
    pow.run [.number 2, .number k] = .ok (.number (2 ^ k)) := by
  rw [run_pow, Numbers.map_checked, if_pos (Numbers.fits_two_pow hk)]

end Operator

/-! ## 3. The theorem -/

/-- **Shifts scale by powers of two.**  Take a number in range.

1. Shifted to the right by at most sixty-three places it is divided by the power of two and rounded
   down.
2. Shifted to the left it is multiplied by the power of two, unless the product is out of range; then
   there is an overflow.
3. What is shifted to the left and gives a number can be shifted back, and is the number again.
4. Up to sixty-two places the power of two is a number, and multiplying by it gives the same number as
   shifting to the left, or an overflow as well.
5. So in an environment in which the four names stand for the operators, `(>> (<< n k) k)` evaluates to
   `n` if the product is in range, and `(<< n k)` and `(* n (** 2 k))` evaluate to the product, or both
   to an overflow.
6. By any other number of places no number is shifted: that is out of range. -/
theorem shifts_scale_by_powers_of_two (n : Int) (hn : fits n = true) :
    (∀ k : Nat, k ≤ 63 →
      let product (func : String) : Except Failure Value :=
        if fits (n * 2 ^ k) then .ok (.number (n * 2 ^ k)) else .error (.overflow func)
      Operator.shiftRight.run [.number n, .number k] = .ok (.number ⌊(n : ℚ) / 2 ^ k⌋) ∧
      Operator.shiftLeft.run [.number n, .number k] = product "<<" ∧
      (∀ m, Operator.shiftLeft.run [.number n, .number k] = .ok (.number m) →
        Operator.shiftRight.run [.number m, .number k] = .ok (.number n)) ∧
      (k ≤ 62 → ∃ p, Operator.pow.run [.number 2, .number k] = .ok (.number p) ∧
        Operator.mul.run [.number n, .number p] = product "*") ∧
      ∀ (host : Host) (depth : Nat) (e : FrameId) (m : Machine),
        (∀ o ∈ [Operator.shiftLeft, .shiftRight, .mul, .pow],
          m.store.get? e o.name = some (.builtin (.operator o))) →
        let shifted : Value := .sexpr [.symbol "<<", .number n, .number k]
        evaluate host (depth + 2) shifted e m = .ok (.ofExcept (product "<<")) m ∧
        (fits (n * 2 ^ k) = true →
          evaluate host (depth + 3) (.sexpr [.symbol ">>", shifted, .number k]) e m =
            .ok (.number n) m) ∧
        (k ≤ 62 →
          evaluate host (depth + 3) (.sexpr [.symbol "*", .number n,
            .sexpr [.symbol "**", .number 2, .number k]]) e m = .ok (.ofExcept (product "*")) m)) ∧
    ∀ k : Int, k < 0 ∨ 63 < k →
      Operator.shiftRight.run [.number n, .number k] = .error (.outOfRange ">>" (.shiftAmount k)) ∧
      Operator.shiftLeft.run [.number n, .number k] = .error (.outOfRange "<<" (.shiftAmount k)) := by
  refine ⟨fun k hk => ?_, fun k hk => ⟨Numbers.shift_of_refused n hk, Numbers.shift_of_refused n hk⟩⟩
  intro product
  have hleft : Operator.shiftLeft.run [.number n, .number k] = product "<<" :=
    Operator.run_shiftLeft n hk
  have hback (m : Int) (h : Operator.shiftLeft.run [.number n, .number k] = .ok (.number m)) :
      Operator.shiftRight.run [.number m, .number k] = .ok (.number n) :=
    Operator.run_shiftRight_shiftLeft hk h
  have hproduct : Operator.mul.run [.number n, .number (2 ^ k)] = product "*" :=
    Operator.run_mul_two_pow n k
  have hfloor : ⌊(n : ℚ) / 2 ^ k⌋ = n / 2 ^ k := by
    have h := Rat.floor_intCast_div_natCast n (2 ^ k)
    push_cast at h
    exact h
  refine ⟨?_, hleft, hback, fun hk => ⟨_, Operator.run_pow_two hk, hproduct⟩,
    fun host depth e m hbound => ?_⟩
  · rw [hfloor]
    exact Operator.run_shiftRight hn hk
  · intro shifted
    have hnumber := evaluate_number host m e
    have hshifted (j : Nat) : evaluate host (j + 2) shifted e m = .ok (.ofExcept (product "<<")) m := by
      rw [← hleft]
      exact evaluate_answer_two .shiftLeft (hbound _ (by decide)) (hnumber _ _) (hnumber _ _)
    refine ⟨hshifted depth, fun hfits => ?_, fun hk => ?_⟩
    · have hgives : product "<<" = .ok (.number (n * 2 ^ k)) := if_pos hfits
      have hinner := hshifted depth
      rw [hgives] at hinner
      exact evaluate_two .shiftRight (hbound _ (by decide)) hinner (hnumber _ _)
        (hback _ (hleft.trans hgives))
    · have hinner : evaluate host (depth + 2) (.sexpr [.symbol "**", .number 2, .number k]) e m =
          .ok (.number (2 ^ k)) m :=
        evaluate_two .pow (hbound _ (by decide)) (hnumber _ _) (hnumber _ _) (Operator.run_pow_two hk)
      rw [← hproduct]
      exact evaluate_answer_two .mul (hbound _ (by decide)) (hnumber _ _) hinner

/-- Minus one shifted by sixty-three places and back, minus seven rounded down, and a number of places
that is too large. -/
theorem shifts_scale_by_powers_of_two_far :
    fits (-1) = true ∧ fits (-7) = true ∧
      Operator.shiftLeft.run [.number (-1), .number 63] = .ok (.number minNumber) ∧
      Operator.shiftRight.run [.number minNumber, .number 63] = .ok (.number (-1)) ∧
      Operator.shiftRight.run [.number (-7), .number 1] = .ok (.number (-4)) ∧
      Operator.shiftLeft.run [.number (-7), .number 64] =
        .error (.outOfRange "<<" (.shiftAmount 64)) := by
  have hone : fits (-1) = true := by decide
  have hseven : fits (-7) = true := by decide
  obtain ⟨-, hleft, hback, -⟩ := (shifts_scale_by_powers_of_two (-1) hone).1 63 (by decide)
  obtain ⟨hshifts, hrefused⟩ := shifts_scale_by_powers_of_two (-7) hseven
  obtain ⟨hright, -⟩ := hshifts 1 (by decide)
  have hfloor : ⌊((-7 : Int) : ℚ) / 2 ^ 1⌋ = -4 := by decide +kernel
  rw [hfloor] at hright
  exact ⟨hone, hseven, hleft, hback _ hleft, hright, (hrefused 64 (by decide)).2⟩

end CurryLisp
