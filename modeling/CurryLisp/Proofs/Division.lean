/-
# Quotient and remainder

Division rounds toward zero, so the remainder that belongs to it is smaller than the divisor and has
the sign of the dividend, or is zero.  Divisor times quotient plus remainder is the dividend again,
and on the way there nothing leaves the range of numbers: divisor times quotient lies between zero
and the dividend.  One division has no quotient in range, that of the smallest number by minus one;
its remainder is zero all the same.

* `Operation.run_two`: an operation on two numbers;
* `fits_mul_tdiv`: divisor times quotient is in range;
* `evaluate_recombination`: evaluating divisor times quotient plus remainder.

The main statement is `quotient_and_remainder_fit_together`.
-/
import CurryLisp.Proofs.Arithmetic
import CurryLisp.Proofs.Calls
import CurryLisp.Proofs.Session

namespace CurryLisp

/-! ## 1. Two numbers -/

/-- An operation on two numbers fails if the divisor is zero, or if its result is out of range. -/
theorem Operation.run_two (o : Operation) (a b : Int) :
    o.operator.run [.number a, .number b] =
      if o = div ∧ b = 0 then .error (.divisionByZero a)
      else (Numbers.checked o.operator.name (o.exact a b)).map .number := by
  have hfold : o.operator.run [.number a, .number b] =
      (Numbers.foldFrom o.operator.name o.step a [b]).map .number :=
    run_numbers fun _ => List.cons_ne_nil b []
  rw [hfold, Numbers.foldFrom, checkedStep_eq]
  split
  · rfl
  · cases Numbers.checked o.operator.name (o.exact a b) <;> rfl

/-- An exact result in range is the answer. -/
theorem Operation.run_two_of_fits (o : Operation) {a b : Int} (hzero : ¬ (o = div ∧ b = 0))
    (h : fits (o.exact a b) = true) :
    o.operator.run [.number a, .number b] = .ok (.number (o.exact a b)) := by
  rw [run_two, if_neg hzero, Numbers.checked_of_fits h]
  rfl

/-- A remainder is missing only if the divisor is zero. -/
theorem Operator.run_rem (n d : Int) :
    rem.run [.number n, .number d] =
      if d = 0 then .error (.divisionByZero n) else .ok (.number (n.tmod d)) := by
  have htwo : Numbers.two rem.name [.number n, .number d] = .ok (n, d) := Numbers.two_eq_ok.mpr rfl
  rw [run, Numbers.rem, htwo]
  by_cases hd : d = 0
  · rw [if_pos hd]
    exact if_pos hd
  · rw [if_neg hd, ← Numbers.remainder_eq_tmod]
    exact if_neg hd

/-- Divisor times quotient lies between zero and the dividend. -/
theorem fits_mul_tdiv {n : Int} (hn : fits n = true) (d : Int) : fits (d * n.tdiv d) = true := by
  have hsum : n.tmod d + d * n.tdiv d = n := Int.tmod_add_mul_tdiv n d
  have hbetween := Numbers.tmod_between n d
  rw [fits_iff] at hn ⊢
  simp only [minNumber, maxNumber] at hn ⊢
  generalize d * n.tdiv d = p at hsum ⊢
  omega

/-- A remainder is zero or has the sign of the dividend. -/
theorem tmod_eq_zero_or_sign (n d : Int) : n.tmod d = 0 ∨ (n.tmod d).sign = n.sign := by
  have hsign : (n.tmod d).sign = if d ∣ n then 0 else n.sign := Int.sign_tmod n d
  split at hsign
  · exact Or.inl (Int.sign_eq_zero_iff_zero.mp hsign)
  · exact Or.inr hsign

/-! ## 2. Dividend from quotient and remainder -/

/-- **Putting a division together again** evaluates to what adding up gives, when the four operations
give numbers. -/
theorem evaluate_recombination (host : Host) (depth : Nat) {m : Machine} {e : FrameId}
    {n d q p r : Int} {v : Value}
    (hbound : ∀ o ∈ [Operator.add, .mul, .div, .rem],
      m.store.get? e o.name = some (.builtin (.operator o)))
    (hquotient : Operator.div.run [.number n, .number d] = .ok (.number q))
    (hproduct : Operator.mul.run [.number d, .number q] = .ok (.number p))
    (hremainder : Operator.rem.run [.number n, .number d] = .ok (.number r))
    (hsum : Operator.add.run [.number p, .number r] = .ok v) :
    evaluate host (depth + 4) (.sexpr [.symbol "+",
      .sexpr [.symbol "*", .number d, .sexpr [.symbol "/", .number n, .number d]],
      .sexpr [.symbol "%", .number n, .number d]]) e m = .ok v m := by
  have hnumber := evaluate_number host m e
  have hinner : evaluate host (depth + 2) (.sexpr [.symbol "/", .number n, .number d]) e m =
      .ok (.number q) m := evaluate_two .div (hbound _ (by decide)) (hnumber _ _) (hnumber _ _) hquotient
  have hleft : evaluate host (depth + 3)
      (.sexpr [.symbol "*", .number d, .sexpr [.symbol "/", .number n, .number d]]) e m =
      .ok (.number p) m := evaluate_two .mul (hbound _ (by decide)) (hnumber _ _) hinner hproduct
  have hright : evaluate host (depth + 3) (.sexpr [.symbol "%", .number n, .number d]) e m =
      .ok (.number r) m := evaluate_two .rem (hbound _ (by decide)) (hnumber _ _) (hnumber _ _) hremainder
  exact evaluate_two .add (hbound _ (by decide)) hleft hright hsum

/-! ## 3. The theorem -/

/-- **Quotient and remainder fit together**, for a dividend in range and any divisor.

1. By zero neither division nor remainder can be had, and both report the dividend.
2. Otherwise there is a remainder.  It is smaller than the divisor, and it is zero or has the sign of
   the dividend.
3. There is a quotient too, except that the smallest number by minus one overflows; there the
   remainder is zero.
4. Divisor times quotient plus remainder is the dividend.  The product and the sum are in range, so
   wherever the four names stand for the operators, `(+ (* d (/ n d)) (% n d))` evaluates to `n`. -/
theorem quotient_and_remainder_fit_together (n d : Int) (hn : fits n = true) :
    (d = 0 → Operator.div.run [.number n, .number d] = .error (.divisionByZero n) ∧
      Operator.rem.run [.number n, .number d] = .error (.divisionByZero n)) ∧
    (d ≠ 0 → ∃ r, Operator.rem.run [.number n, .number d] = .ok (.number r) ∧
      r.natAbs < d.natAbs ∧ (r = 0 ∨ r.sign = n.sign) ∧
      (n = minNumber ∧ d = -1 →
        Operator.div.run [.number n, .number d] = .error (.overflow "/") ∧ r = 0) ∧
      (¬ (n = minNumber ∧ d = -1) →
        ∃ q, Operator.div.run [.number n, .number d] = .ok (.number q) ∧ n = d * q + r ∧
          Operator.mul.run [.number d, .number q] = .ok (.number (d * q)) ∧
          Operator.add.run [.number (d * q), .number r] = .ok (.number n) ∧
          ∀ (host : Host) (depth : Nat) (e : FrameId) (m : Machine),
            (∀ o ∈ [Operator.add, .mul, .div, .rem],
              m.store.get? e o.name = some (.builtin (.operator o))) →
            evaluate host (depth + 4) (.sexpr [.symbol "+",
              .sexpr [.symbol "*", .number d, .sexpr [.symbol "/", .number n, .number d]],
              .sexpr [.symbol "%", .number n, .number d]]) e m = .ok (.number n) m)) := by
  constructor
  · rintro rfl
    exact ⟨(Operation.run_two .div n 0).trans (if_pos ⟨rfl, rfl⟩),
      (Operator.run_rem n 0).trans (if_pos rfl)⟩
  · intro hzero
    have hrem : Operator.rem.run [.number n, .number d] = .ok (.number (n.tmod d)) :=
      (Operator.run_rem n d).trans (if_neg hzero)
    have hidentity : d * n.tdiv d + n.tmod d = n := Int.mul_tdiv_add_tmod n d
    refine ⟨n.tmod d, hrem, ?_, tmod_eq_zero_or_sign n d, ?_, fun hne => ?_⟩
    · rw [Int.natAbs_tmod]
      exact Nat.mod_lt _ (Int.natAbs_pos.mpr hzero)
    · rintro ⟨rfl, rfl⟩
      exact ⟨by rfl, by rfl⟩
    · have hquotient : Operator.div.run [.number n, .number d] = .ok (.number (n.tdiv d)) :=
        Operation.run_two_of_fits .div (fun h => hzero h.2) ((Numbers.fits_tdiv_iff hn).mpr hne)
      have hproduct : Operator.mul.run [.number d, .number (n.tdiv d)] =
          .ok (.number (d * n.tdiv d)) :=
        Operation.run_two_of_fits .mul nofun (fits_mul_tdiv hn d)
      have hsum : Operator.add.run [.number (d * n.tdiv d), .number (n.tmod d)] =
          .ok (.number n) := by
        have hexact : Operation.add.exact (d * n.tdiv d) (n.tmod d) = n := hidentity
        rw [← hexact] at hn
        exact (Operation.run_two_of_fits .add nofun hn).trans (by rw [hexact])
      refine ⟨_, hquotient, hidentity.symm, hproduct, hsum, fun host depth e m hbound => ?_⟩
      exact evaluate_recombination host depth hbound hquotient hproduct hrem hsum

/-- Minus seven by two, with the four names as a new session binds them. -/
theorem quotient_and_remainder_fit_together_rounded :
    let m := Machine.fresh true
    fits (-7) = true ∧
      Operator.div.run [.number (-7), .number 2] = .ok (.number (-3)) ∧
      Operator.rem.run [.number (-7), .number 2] = .ok (.number (-1)) ∧
      ∀ host : Host, evaluate host 4 (.sexpr [.symbol "+",
        .sexpr [.symbol "*", .number 2, .sexpr [.symbol "/", .number (-7), .number 2]],
        .sexpr [.symbol "%", .number (-7), .number 2]]) 0 m = .ok (.number (-7)) m := by
  intro m
  have hn : fits (-7) = true := by decide
  obtain ⟨r, hrem, -, -, -, hquotient⟩ :=
    (quotient_and_remainder_fit_together (-7) 2 hn).2 (by decide)
  obtain ⟨q, hdiv, -, -, -, hevaluate⟩ := hquotient (by decide)
  have hbound : ∀ o ∈ [Operator.add, .mul, .div, .rem],
      m.store.get? 0 o.name = some (.builtin (.operator o)) := by
    simp only [List.forall_mem_cons, List.not_mem_nil, false_imp_iff, implies_true, and_true]
    exact ⟨by with_unfolding_all rfl, by with_unfolding_all rfl, by with_unfolding_all rfl,
      by with_unfolding_all rfl⟩
  cases hrem
  cases hdiv
  exact ⟨hn, rfl, rfl, fun host => hevaluate host 0 0 m hbound⟩

end CurryLisp
