/-
# Exact arithmetic, as far as it goes

The four operations take their numbers from left to right.  On integers without bounds this gives a
row of exact results, one for each number taken (`Operation.partials`).  The operations of programs
give the last of these exact results, if none of them is out of range and no divisor is zero.
Otherwise they fail, and for the first reason that there is: what comes later is never looked at.

* `Numbers.foldFrom_append`: a fold takes some numbers and then the others;
* `Operation.fold_take`: as long as every step passes, a fold holds the exact results, by induction
  on how many numbers it has taken;
* `Operation.fold_of_error`: the first step that fails is what the fold comes to;
* `Numbers.fits_tdiv_iff`: the one division of numbers in range that is out of range;
* `Operation.run_numbers`: the operations are folds, and only a single number is taken differently.

The main statement is `arithmetic_is_exact_or_fails_first`.
-/
import CurryLisp.Proofs.Answers
import CurryLisp.Proofs.Parameters
import Mathlib.Algebra.Ring.Int.Defs

namespace CurryLisp

/-! ## 1. Arguments and folds -/

/-- A value is no number when its variant is another. -/
theorem Variant.isNone_number (v : Value) : (number.get? v).isNone = (v.shape != .number) := by
  cases v <;> rfl

/-- The first argument that is no number is reported. -/
theorem Variant.takeAll_number_eq_error {front rest : List Value} {v : Value}
    (hfront : ∀ w ∈ front, w.shape = .number) (hv : v.shape ≠ .number) (func : String) :
    number.takeAll func (front ++ v :: rest) =
      .error (.wrongType func front.length (.shape .number) v.shape) := by
  have hfirst : (front ++ v :: rest).findIdx? (fun w => (number.get? w).isNone) =
      some front.length := by
    have hnone : front.findIdx? (fun w => (number.get? w).isNone) = none := by
      rw [List.findIdx?_eq_none_iff]
      intro w hw
      rw [isNone_number, hfront w hw]
      rfl
    have hthis : (number.get? v).isNone = true := by
      rw [isNone_number, bne_iff_ne]
      exact hv
    rw [List.findIdx?_append, hnone, Option.none_or, List.findIdx?_cons, hthis]
    exact congrArg some (Nat.zero_add _)
  obtain ⟨w, hw, htake⟩ := takeFrom_eq_error hfirst func 0
  obtain rfl : v = w := by simpa using hw
  rw [Nat.zero_add] at htake
  exact htake

namespace Numbers

variable {func : String} {step : Int → Int → Except Failure Int} {n m : Int}

/-- A fold takes some numbers, and goes on with the others from there. -/
theorem foldFrom_append (ns ms : List Int) :
    foldFrom func step n (ns ++ ms) =
      foldFrom func step n ns >>= fun a => foldFrom func step a ms := by
  induction ns generalizing n with
  | nil => rfl
  | cons k ns ih =>
    rw [List.cons_append, foldFrom, foldFrom]
    cases checkedStep func step n k with
    | error f => rfl
    | ok a => exact ih

/-- A step that fails ends a fold. -/
theorem foldFrom_of_error {f : Failure} (h : checkedStep func step n m = .error f) (ns : List Int) :
    foldFrom func step n (m :: ns) = .error f := by
  rw [foldFrom, h]
  rfl

theorem foldFrom_of_ok {a : Int} (h : checkedStep func step n m = .ok a) (ns : List Int) :
    foldFrom func step n (m :: ns) = foldFrom func step a ns := by
  rw [foldFrom, h]
  rfl

/-- Numbers pass the check of arguments. -/
theorem fold_numbers (ns : List Int) :
    fold func step ((n :: ns).map .number) = (foldFrom func step n ns).map .number := by
  have htake : Variant.number.takeAll func ((n :: ns).map .number) = .ok (n :: ns) :=
    (Variant.takeAll_eq_ok Variant.number_makes).mpr rfl
  rw [List.map_cons] at htake ⊢
  rw [fold, htake]
  · change (do return Value.number (← foldFrom func step n ns)) = _
    cases foldFrom func step n ns <;> rfl
  · nofun

/-- Arguments that are refused are not folded. -/
theorem fold_of_refused {args : List Value} {f : Failure}
    (h : Variant.number.takeAll func args = .error f) : fold func step args = .error f := by
  unfold fold
  split
  · cases h
  · rw [h]
    rfl

/-- **One division of a number in range is out of range**: that of the smallest number by minus
one. -/
theorem fits_tdiv_iff (hn : fits n = true) : fits (n.tdiv m) = true ↔ ¬ (n = minNumber ∧ m = -1) := by
  have habs : (n.tdiv m).natAbs = n.natAbs / m.natAbs := Int.natAbs_tdiv n m
  rw [fits_iff] at hn ⊢
  simp only [minNumber, maxNumber] at hn ⊢
  constructor
  · rintro ⟨-, hle⟩ ⟨rfl, rfl⟩
    exact absurd hle (by decide)
  · intro hne
    -- A divisor other than the units and zero takes half of the magnitude at least.
    rcases (by omega : m = 0 ∨ m = 1 ∨ m = -1 ∨ 2 ≤ m.natAbs) with rfl | rfl | rfl | hm
    · rw [Int.tdiv_zero]
      decide
    · rw [Int.tdiv_one]
      exact hn
    · rw [Int.tdiv_neg, Int.tdiv_one]
      omega
    · have hhalf : n.natAbs / m.natAbs ≤ n.natAbs / 2 := Nat.div_le_div_left hm (by decide)
      omega

end Numbers

/-! ## 2. Exact results -/

/-- The four operations of arithmetic. -/
inductive Operation
  | add
  | sub
  | mul
  | div
  deriving DecidableEq, Repr

namespace Operation

/-- The operator for an operation. -/
def operator : Operation → Operator
  | add => .add
  | sub => .sub
  | mul => .mul
  | div => .div

/-- The exact result for two integers.  Division rounds toward zero. -/
def exact : Operation → Int → Int → Int
  | add => fun a b => a + b
  | sub => fun a b => a - b
  | mul => fun a b => a * b
  | div => Int.tdiv

/-- The exact results after one number, after two numbers, and so on.  Subtraction negates a number
that stands alone. -/
def partials (o : Operation) : List Int → List Int
  | [] => []
  | [n] => [if o = sub then -n else n]
  | n :: ns => ns.scanl o.exact n

/-- The number at a place is a divisor, and it is zero. -/
def DividesByZero (o : Operation) (ns : List Int) (k : Nat) : Prop :=
  o = div ∧ 0 < k ∧ ns[k]? = some 0

/-- With the number at a place the exact result is out of range. -/
def Overflows (o : Operation) (ns : List Int) (k : Nat) : Prop :=
  ∃ p ∈ (o.partials ns)[k]?, fits p = false

/-- The number at a place can be taken. -/
def Passes (o : Operation) (ns : List Int) (k : Nat) : Prop :=
  ¬ o.DividesByZero ns k ∧ ¬ o.Overflows ns k

section Computed

variable (o : Operation) (ns : List Int) (k : Nat)

instance : Decidable (o.DividesByZero ns k) := by
  unfold DividesByZero
  infer_instance

instance : Decidable (o.Overflows ns k) := by
  unfold Overflows
  infer_instance

instance : Decidable (o.Passes ns k) := by
  unfold Passes
  infer_instance

end Computed

/-! ## 3. Operations as folds -/

/-- One step of the fold that an operation is. -/
def step : Operation → Int → Int → Except Failure Int
  | div => Numbers.divStep
  | o => fun a b => .ok (o.exact a b)

/-- A step fails if the divisor is zero, or if the exact result is out of range. -/
theorem checkedStep_eq (o : Operation) (func : String) (a b : Int) :
    Numbers.checkedStep func o.step a b =
      if o = div ∧ b = 0 then .error (.divisionByZero a)
      else Numbers.checked func (o.exact a b) := by
  cases o with
  | div =>
    change (Numbers.divStep a b >>= Numbers.checked func) = _
    by_cases hb : b = 0
    · rw [Numbers.divStep, if_pos hb, if_pos ⟨rfl, hb⟩]
      rfl
    · rw [Numbers.divStep, if_neg hb, if_neg fun h => hb h.2, Numbers.quotient_eq_tdiv]
      rfl
  | add | sub | mul => rfl

section Fold

variable {o : Operation} {n : Int} {ns : List Int} {k : Nat}

/-- An operation is a fold, unless a single number is subtracted. -/
theorem run_numbers (h : o = sub → ns ≠ []) :
    o.operator.run ((n :: ns).map .number) =
      (Numbers.foldFrom o.operator.name o.step n ns).map .number := by
  rw [← Numbers.fold_numbers]
  cases o with
  | add | mul | div => rfl
  | sub =>
    cases ns with
    | nil => exact absurd rfl (h rfl)
    | cons m rest => rfl

theorem partials_eq_scanl (h : o = sub → ns ≠ []) : o.partials (n :: ns) = ns.scanl o.exact n := by
  cases ns with
  | nil => simpa [partials] using fun ho => absurd rfl (h ho)
  | cons m rest => rfl

theorem partials_getElem? (h : o = sub → ns ≠ []) (hk : k ≤ ns.length) :
    (o.partials (n :: ns))[k]? = some ((ns.take k).foldl o.exact n) := by
  rw [partials_eq_scanl h, List.getElem?_scanl, if_pos hk]

/-- A number that can be taken makes the next exact result. -/
theorem Passes.checkedStep (h : o = sub → ns ≠ []) (hk : k < ns.length)
    (hpass : o.Passes (n :: ns) (k + 1)) (func : String) :
    Numbers.checkedStep func o.step ((ns.take k).foldl o.exact n) ns[k] =
      .ok ((ns.take (k + 1)).foldl o.exact n) := by
  have hzero : ¬ (o = div ∧ ns[k] = 0) := fun ⟨ho, hz⟩ =>
    hpass.1 ⟨ho, Nat.succ_pos k, by rw [List.getElem?_cons_succ, List.getElem?_eq_getElem hk, hz]⟩
  have hnext : o.exact ((ns.take k).foldl o.exact n) ns[k] =
      (ns.take (k + 1)).foldl o.exact n := by
    rw [← List.take_append_getElem hk, List.foldl_append]
    rfl
  have hfits : fits ((ns.take (k + 1)).foldl o.exact n) = true := by
    by_contra hout
    exact hpass.2 ⟨_, partials_getElem? h hk, Bool.eq_false_iff.mpr hout⟩
  rw [checkedStep_eq, if_neg hzero, hnext, Numbers.checked_of_fits hfits]

/-- **A fold holds the exact results** as long as every number can be taken. -/
theorem fold_take (h : o = sub → ns ≠ []) (hk : k ≤ ns.length)
    (hpass : ∀ j ≤ k, o.Passes (n :: ns) j) (func : String) :
    Numbers.foldFrom func o.step n (ns.take k) = .ok ((ns.take k).foldl o.exact n) := by
  induction k with
  | zero => rfl
  | succ k ih =>
    have hbefore := ih (Nat.le_of_succ_le hk) fun j hj => hpass j (Nat.le_succ_of_le hj)
    have hstep := (hpass (k + 1) (Nat.le_refl _)).checkedStep h hk func
    calc Numbers.foldFrom func o.step n (ns.take (k + 1))
        = Numbers.foldFrom func o.step n (ns.take k) >>= fun a =>
            Numbers.foldFrom func o.step a [ns[k]] := by
          rw [← List.take_append_getElem hk, Numbers.foldFrom_append]
      _ = Numbers.foldFrom func o.step ((ns.take k).foldl o.exact n) [ns[k]] := by
          rw [hbefore]
          rfl
      _ = .ok ((ns.take (k + 1)).foldl o.exact n) := Numbers.foldFrom_of_ok hstep []

/-- **The first number that cannot be taken ends a fold.** -/
theorem fold_of_error (h : o = sub → ns ≠ []) (hk : k < ns.length)
    (hpass : ∀ j ≤ k, o.Passes (n :: ns) j) {func : String} {f : Failure}
    (hstop : Numbers.checkedStep func o.step ((ns.take k).foldl o.exact n) ns[k] = .error f) :
    Numbers.foldFrom func o.step n ns = .error f := by
  have hcut : ns = ns.take k ++ ns[k] :: ns.drop (k + 1) := by
    rw [← List.drop_eq_getElem_cons hk, List.take_append_drop]
  rw [hcut, Numbers.foldFrom_append, fold_take h (Nat.le_of_lt hk) hpass]
  exact Numbers.foldFrom_of_error hstop _

/-- A divisor that is zero is not the first number. -/
theorem DividesByZero.exists_step (h : o.DividesByZero (n :: ns) k) :
    o = div ∧ ∃ i, ∃ hi : i < ns.length, k = i + 1 ∧ ns[i] = 0 := by
  obtain ⟨ho, hpos, hzero⟩ := h
  obtain ⟨i, rfl⟩ := Nat.exists_eq_succ_of_ne_zero (Nat.ne_of_gt hpos)
  obtain ⟨hi, hzero⟩ := List.getElem?_eq_some_iff.mp hzero
  exact ⟨ho, i, Nat.lt_of_succ_lt_succ hi, rfl, hzero⟩

/-- Out of range is a result that a step makes, since the first number is in range. -/
theorem Overflows.exists_step (h : o = sub → ns ≠ []) (hn : fits n = true)
    (hover : o.Overflows (n :: ns) k) :
    ∃ i, ∃ hi : i < ns.length, k = i + 1 ∧
      fits (o.exact ((ns.take i).foldl o.exact n) ns[i]) = false := by
  obtain ⟨p, hp, hout⟩ := hover
  rw [partials_eq_scanl h, List.getElem?_scanl] at hp
  split at hp
  · next hk =>
    obtain rfl := Option.some.inj hp
    cases k with
    | zero =>
      rw [List.take_zero, List.foldl_nil, hn] at hout
      cases hout
    | succ i =>
      rw [← List.take_append_getElem hk, List.foldl_append] at hout
      exact ⟨i, hk, rfl, hout⟩
  · cases hp

/-- What a fold comes to is exact. -/
theorem eq_foldl_of_fold {func : String} {p : Int}
    (h : Numbers.foldFrom func o.step n ns = .ok p) : p = ns.foldl o.exact n := by
  induction ns generalizing n with
  | nil =>
    cases h
    rfl
  | cons m rest ih =>
    obtain ⟨a, hstep, hrest⟩ := bind_eq_ok.mp h
    rw [checkedStep_eq] at hstep
    split at hstep
    · cases hstep
    · rw [Numbers.checked] at hstep
      split at hstep
      · cases hstep
        exact ih hrest
      · cases hstep

/-- So what an operation answers is exact, unless a single number is subtracted. -/
theorem eq_foldl_of_run (h : o = sub → ns ≠ []) {p : Int}
    (hrun : o.operator.run ((n :: ns).map .number) = .ok (.number p)) :
    p = ns.foldl o.exact n := by
  rw [run_numbers h] at hrun
  obtain ⟨q, hq, hv⟩ := map_eq_ok.mp hrun
  cases hv
  exact eq_foldl_of_fold hq

end Fold

/-- Arguments that are refused are not looked at. -/
theorem run_of_refused (o : Operation) {args : List Value} {f : Failure}
    (h : Variant.number.takeAll o.operator.name args = .error f) : o.operator.run args = .error f := by
  cases o with
  | add | mul | div => exact Numbers.fold_of_refused h
  | sub =>
    change Numbers.sub _ args = _
    unfold Numbers.sub
    split
    · cases h
    · exact Numbers.fold_of_refused h

/-! ## 4. Exact, or the first failure -/

/-- What an operation answers on some numbers is the last exact result, or tells the first number
that cannot be taken. -/
structure ExactOrFails (o : Operation) (ns : List Int) (answer : Except Failure Value) : Prop where
  /-- if all numbers can be taken, that is the number after the last -/
  result : (∀ k, o.Passes ns k) → ∃ p, (o.partials ns).getLast? = some p ∧ answer = .ok (.number p)
  /-- a zero divisor is reported with the exact result that it was to divide -/
  divides : ∀ k, (∀ j < k, o.Passes ns j) → o.DividesByZero ns k →
    ∃ p, (o.partials ns)[k - 1]? = some p ∧ answer = .error (.divisionByZero p)
  overflows : ∀ k, (∀ j < k, o.Passes ns j) → o.Overflows ns k →
    answer = .error (.overflow o.operator.name)
  /-- a quotient is out of range in one case only -/
  quotient : ∀ k, (∀ j < k, o.Passes ns j) → o.Overflows ns k → o = div →
    (o.partials ns)[k - 1]? = some minNumber ∧ ns[k]? = some (-1)

/-- The opposite of a number in range is exact, or there is none. -/
theorem exactOrFails_negation {n : Int} (hn : fits n = true) :
    ExactOrFails sub [n] (Operator.sub.run [.number n]) := by
  have hopposite := Numbers.fits_neg_iff hn
  refine ⟨fun hpass => ?_, fun k _ hzero => ?_, fun k _ hover => ?_, fun k _ _ ho => ?_⟩
  · have hle : -n ≤ maxNumber := by
      rw [← hopposite]
      by_contra hout
      exact (hpass 0).2 ⟨-n, rfl, Bool.eq_false_iff.mpr hout⟩
    exact ⟨-n, rfl, if_pos hle⟩
  · cases hzero.1
  · obtain ⟨p, hp, hout⟩ := hover
    have hlt : ¬ -n ≤ maxNumber := by
      rw [← hopposite]
      cases k with
      | zero =>
        cases hp
        exact Bool.eq_false_iff.mp hout
      | succ k => cases hp
    exact if_neg hlt
  · cases ho

/-- A fold is exact, or ends at the first number that cannot be taken. -/
theorem exactOrFails_fold {o : Operation} {n : Int} {ns : List Int} (h : o = sub → ns ≠ [])
    (hn : fits n = true) :
    ExactOrFails o (n :: ns) (o.operator.run ((n :: ns).map .number)) := by
  have hlast : (o.partials (n :: ns)).getLast? = some (ns.foldl o.exact n) := by
    rw [partials_eq_scanl h, List.getLast?_scanl]
  have hplace (i : Nat) (hi : i < ns.length) : (o.partials (n :: ns))[i + 1 - 1]? =
      some ((ns.take i).foldl o.exact n) := partials_getElem? h (Nat.le_of_lt hi)
  rw [run_numbers h]
  refine ⟨fun hpass => ?_, fun k hpass hzero => ?_, fun k hpass hover => ?_,
    fun k hpass hover ho => ?_⟩
  · have hall := fold_take h (Nat.le_refl _) (fun j _ => hpass j) o.operator.name
    rw [List.take_length] at hall
    exact ⟨_, hlast, by rw [hall]; rfl⟩
  · obtain ⟨ho, i, hi, rfl, hdivisor⟩ := hzero.exists_step
    refine ⟨_, hplace i hi, ?_⟩
    rw [fold_of_error h hi fun j hj => hpass j (Nat.lt_succ_of_le hj)]
    · rfl
    · rw [checkedStep_eq, if_pos ⟨ho, hdivisor⟩]
  · obtain ⟨i, hi, rfl, hout⟩ := hover.exists_step h hn
    rw [fold_of_error h hi fun j hj => hpass j (Nat.lt_succ_of_le hj)]
    · rfl
    · have hzero : ¬ (o = div ∧ ns[i] = 0) := by
        rintro ⟨rfl, hz⟩
        rw [exact, hz, Int.tdiv_zero] at hout
        cases hout
      rw [checkedStep_eq, if_neg hzero, Numbers.checked_of_not_fits hout]
  · obtain ⟨i, hi, rfl, hout⟩ := hover.exists_step h hn
    have hdividend : fits ((ns.take i).foldl o.exact n) = true := by
      by_contra hout
      exact (hpass i (Nat.lt_succ_self i)).2
        ⟨_, partials_getElem? h (Nat.le_of_lt hi), Bool.eq_false_iff.mpr hout⟩
    subst ho
    obtain ⟨hmin, hunit⟩ := not_not.mp
      ((Numbers.fits_tdiv_iff hdividend).not.mp (Bool.eq_false_iff.mp hout))
    rw [hplace i hi, hmin, List.getElem?_cons_succ, List.getElem?_eq_getElem hi, hunit]
    exact ⟨rfl, rfl⟩

/-! ## 5. The theorem -/

/-- **Arithmetic is exact, or fails for the first reason.**  Take one of the four operations.

1. Applied to one or more numbers in range it gives the last of the exact results, if none of them is
   out of range and no divisor is zero.  Otherwise the first number that cannot be taken decides.  If
   it is a divisor that is zero, the operation fails with a division by zero of the exact result
   before; otherwise it fails with an overflow of its own.  A quotient overflows only when the
   smallest number is divided by minus one.
2. So what addition and multiplication give is the sum or the product of all the numbers.
3. If some argument is no number, the first such argument is reported, whatever comes before and
   after it. -/
theorem arithmetic_is_exact_or_fails_first (o : Operation) :
    (∀ ns, ns ≠ [] → (∀ n ∈ ns, fits n = true) →
      o.ExactOrFails ns (o.operator.run (ns.map .number))) ∧
    (∀ (ns : List Int) p, o.operator.run (ns.map .number) = .ok (.number p) →
      (o = add → p = ns.sum) ∧ (o = mul → p = ns.prod)) ∧
    ∀ front v rest, (∀ w ∈ front, w.shape = .number) → v.shape ≠ .number →
      o.operator.run (front ++ v :: rest) =
        .error (.wrongType o.operator.name front.length (.shape .number) v.shape) := by
  refine ⟨fun ns hne hfits => ?_, fun ns p h => ?_, fun front v rest hfront hv => ?_⟩
  · cases ns with
    | nil => exact absurd rfl hne
    | cons n ns =>
      have hn : fits n = true := hfits n List.mem_cons_self
      by_cases h : o = sub ∧ ns = []
      · obtain ⟨rfl, rfl⟩ := h
        exact exactOrFails_negation hn
      · exact exactOrFails_fold (fun ho hnil => h ⟨ho, hnil⟩) hn
  · cases ns with
    | nil => cases o <;> cases h
    | cons n ns =>
      have hexact (ho : o ≠ sub) : p = ns.foldl o.exact n :=
        eq_foldl_of_run (fun h => absurd h ho) h
      constructor
      · rintro rfl
        rw [hexact nofun, List.sum_eq_foldl, List.foldl_cons, Int.zero_add]
        rfl
      · rintro rfl
        rw [hexact nofun, List.prod_eq_foldl, List.foldl_cons, Int.one_mul]
        rfl
  · exact run_of_refused o (Variant.takeAll_number_eq_error hfront hv _)

/-- A zero divisor before a quotient that would overflow, the quotient that overflows, and a text
after a zero divisor. -/
theorem arithmetic_is_exact_or_fails_first_quotient :
    let zero : List Int := [7, -2, 0, -1]
    let large : List Int := [minNumber, 1, -1, 0]
    (∀ n ∈ zero ++ large, fits n = true) ∧
      ((∀ j < 2, div.Passes zero j) ∧ div.DividesByZero zero 2 ∧
        Operator.div.run (zero.map .number) = .error (.divisionByZero (-3))) ∧
      ((∀ j < 2, div.Passes large j) ∧ div.Overflows large 2 ∧
        Operator.div.run (large.map .number) = .error (.overflow "/")) ∧
      Operator.div.run [.number 1, .number 0, .string "x"] =
        .error (.wrongType "/" 2 (.shape .number) .string) := by
  intro zero large
  obtain ⟨hrun, -, hrefused⟩ := arithmetic_is_exact_or_fails_first div
  have hfits : ∀ n ∈ zero ++ large, fits n = true := by decide
  have hzero := hrun zero nofun fun n hn => hfits n (List.mem_append_left _ hn)
  have hlarge := hrun large nofun fun n hn => hfits n (List.mem_append_right _ hn)
  have hpass : ∀ j < 2, div.Passes zero j := by decide
  have hpass' : ∀ j < 2, div.Passes large j := by decide
  obtain ⟨p, hp, hdivides⟩ := hzero.divides 2 hpass (by decide)
  obtain rfl : -3 = p := Option.some.inj hp
  refine ⟨hfits, ⟨hpass, by decide, hdivides⟩,
    ⟨hpass', by decide, hlarge.overflows 2 hpass' (by decide)⟩, ?_⟩
  exact hrefused [.number 1, .number 0] (.string "x") [] (by simp [Value.shape]) nofun

end Operation

end CurryLisp
