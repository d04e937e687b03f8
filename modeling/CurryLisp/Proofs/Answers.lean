/-
# What operators answer

An operator answers a number, a text, or a quoted list that is made of the parts of its arguments
(`Operator.run_made`).  So what asks nothing of numbers, texts, errors and lists is kept by every
operator (`Operator.run_all`).

Numbers are bounded, and the operators compute on integers that are not.  Each of them guards the
range in its own way: folds check every step, powers, shifts and texts check their result, and
negation and absolute value look at the one number that has no opposite.  The others answer what
is in range because the arguments are: a remainder is not larger than the dividend, and a choice is
one of the arguments.  A length is as large as the list or the text is long, so here the argument
must be short (`Operator.run_numberFits`).
-/
import CurryLisp.Library.Operators
import CurryLisp.Proofs.Checks
import CurryLisp.Proofs.Parts

namespace CurryLisp

/-! ## 1. Answers -/

namespace Value

/-- If a value is a number, it is in range. -/
def NumberFits : Value → Prop
  | number n => fits n = true
  | _ => True

/-- The length of a list or of a text is a number in range. -/
def isShort : Value → Bool
  | string s => fits s.length
  | sexpr cells | qexpr cells => fits cells.length
  | _ => true

end Value

/-- A number, which is in range if the numbers among the arguments are and the arguments are
short. -/
def IsNumber (args : List Value) (v : Value) : Prop :=
  ∃ n, v = .number n ∧ ((∀ a ∈ args, a.NumberFits ∧ a.isShort = true) → fits n = true)

theorem isNumber_truth (args : List Value) (b : Bool) : IsNumber args (.truth b) := by
  refine ⟨_, rfl, fun _ => ?_⟩
  cases b <;> decide

/-- Whoever computes something and answers whether a test holds of it answers a number. -/
theorem isNumber_of_test {α : Type} {x : Except Failure α} {test : α → Bool} {args : List Value}
    {v : Value} (h : (do return .truth (test (← x))) = Except.ok v) : IsNumber args v := by
  obtain ⟨a, -, h⟩ := bind_eq_ok.mp h
  cases h
  exact isNumber_truth args (test a)

/-- What a value may be made of when some arguments are given: the arguments themselves, the cells
of the quoted lists among them, numbers in range, texts, and lists of all that. -/
inductive Made (args : List Value) : Value → Prop
  | number {n : Int} : fits n = true → Made args (.number n)
  | string (s : String) : Made args (.string s)
  | arg {v : Value} : v ∈ args → Made args v
  | cell {cells : List Value} {c : Value} : .qexpr cells ∈ args → c ∈ cells → Made args c
  | list {cells : List Value} : (∀ c ∈ cells, Made args c) → Made args (.qexpr cells)

/-- A plain property of everything inside the arguments holds of everything that is made of them. -/
theorem Made.all {p : Value → Prop} (hp : Value.PlainInRange p) {args : List Value}
    (hargs : ∀ a ∈ args, a.All p) {v : Value} (h : Made args v) : v.All p := by
  induction h with
  | number hn => exact hp.all_number hn
  | string s => exact hp.all_string s
  | arg hv => exact hargs _ hv
  | cell hq hc => exact (Value.all_qexpr.mp (hargs _ hq)).2 _ hc
  | list _ ih => exact hp.all_list ih

/-- A quoted list of what can be made of the arguments. -/
def IsMadeList (args : List Value) (v : Value) : Prop :=
  ∃ cells, v = .qexpr cells ∧ ∀ c ∈ cells, Made args c

/-! ## 2. Numbers -/

namespace Numbers

variable {func : String} {args : List Value} {v : Value} {n m : Int}

theorem two_eq_ok : two func args = .ok (n, m) ↔ args = [.number n, .number m] := by
  unfold two
  split
  · simp only [bind_eq_ok, Variant.take_eq_ok Variant.number_makes, pure, Except.pure,
      Except.ok.injEq, Prod.mk.injEq]
    constructor
    · rintro ⟨a, rfl, b, rfl, rfl, rfl⟩
      rfl
    · intro h
      cases h
      exact ⟨n, rfl, m, rfl, rfl, rfl⟩
  · next h =>
    constructor
    · intro he
      cases he
    · intro he
      exact absurd he (h _ _)

theorem fits_of_checked (h : checked func n = .ok m) : fits m = true := by
  unfold checked at h
  split at h
  · next hn =>
    cases h
    exact hn
  · cases h

theorem checked_of_fits (h : fits n = true) : checked func n = .ok n :=
  if_pos h

theorem checked_of_not_fits (h : fits n = false) :
    checked func n = .error (.overflow func) :=
  if_neg (Bool.eq_false_iff.mp h)

/-- Whoever checks a result answers it or an overflow. -/
theorem map_checked (func : String) (n : Int) : (checked func n).map Value.number =
    if fits n then .ok (.number n) else .error (.overflow func) := by
  rw [checked]
  split <;> rfl

/-- A fold begins in range and checks every step. -/
theorem fits_of_foldFrom {step : Int → Int → Except Failure Int} {ns : List Int}
    (hn : fits n = true) (h : foldFrom func step n ns = .ok m) : fits m = true := by
  induction ns generalizing n with
  | nil =>
    cases h
    exact hn
  | cons k rest ih =>
    obtain ⟨a, ha, h⟩ := bind_eq_ok.mp h
    obtain ⟨b, -, hb⟩ := bind_eq_ok.mp ha
    exact ih (fits_of_checked hb) h

/-- The arguments of a call that takes numbers only are in range. -/
theorem fits_of_takeAll {ns : List Int} (h : Variant.number.takeAll func args = .ok ns)
    (hargs : ∀ a ∈ args, a.NumberFits ∧ a.isShort = true) : ∀ n ∈ ns, fits n = true := by
  obtain rfl := (Variant.takeAll_eq_ok Variant.number_makes).mp h
  exact fun n hn => (hargs _ (List.mem_map_of_mem hn)).1

theorem fold_isNumber {step : Int → Int → Except Failure Int} (h : fold func step args = .ok v) :
    IsNumber args v := by
  unfold fold at h
  split at h
  · cases h
  · obtain ⟨ns, hns, h⟩ := bind_eq_ok.mp h
    split at h
    · cases h
    · obtain ⟨m, hm, h⟩ := bind_eq_ok.mp h
      cases h
      refine ⟨m, rfl, fun hargs => ?_⟩
      exact fits_of_foldFrom (fits_of_takeAll hns hargs _ List.mem_cons_self) hm

/-- The opposite of a number in range is out of range only if it is too large. -/
theorem fits_neg_iff (hn : fits n = true) : fits (-n) = true ↔ -n ≤ maxNumber := by
  rw [fits_iff] at hn ⊢
  simp only [minNumber, maxNumber] at hn ⊢
  omega

/-- The smallest number has no opposite, and that is an overflow. -/
theorem sub_isNumber (h : sub func args = .ok v) : IsNumber args v := by
  unfold sub at h
  split at h
  · next n =>
    split at h
    · next hneg =>
      cases h
      exact ⟨_, rfl, fun hargs => (fits_neg_iff (hargs _ List.mem_cons_self).1).mpr hneg⟩
    · cases h
  · exact fold_isNumber h

theorem compare_isNumber {test : Int → Int → Bool} (h : compare func test args = .ok v) :
    IsNumber args v := by
  obtain ⟨_, -, h⟩ := bind_eq_ok.mp h
  cases h
  exact isNumber_truth _ _

/-- A remainder lies between zero and the dividend. -/
theorem tmod_between (n d : Int) :
    0 ≤ n.tmod d ∧ n.tmod d ≤ n ∨ n ≤ n.tmod d ∧ n.tmod d ≤ 0 := by
  have hle : (n.tmod d).natAbs ≤ n.natAbs := by
    rw [Int.natAbs_tmod]
    exact Nat.mod_le _ _
  rcases Int.le_total 0 n with hn | hn
  · have hpos : 0 ≤ n.tmod d := Int.tmod_nonneg d hn
    omega
  · have hneg : 0 ≤ (-n).tmod d := Int.tmod_nonneg d (Int.neg_nonneg_of_nonpos hn)
    rw [Int.neg_tmod] at hneg
    omega

/-- A remainder is not larger than the dividend. -/
theorem fits_tmod (hn : fits n = true) (d : Int) : fits (n.tmod d) = true := by
  have hbetween := tmod_between n d
  rw [fits_iff] at hn ⊢
  simp only [minNumber, maxNumber] at hn ⊢
  omega

theorem rem_isNumber (h : rem func args = .ok v) : IsNumber args v := by
  obtain ⟨⟨n, d⟩, htwo, h⟩ := bind_eq_ok.mp h
  have hmem : .number n ∈ args := two_eq_ok.mp htwo ▸ List.mem_cons_self
  dsimp only at h
  split at h
  · cases h
  · cases h
    exact ⟨_, rfl, fun hargs => remainder_eq_tmod n d ▸ fits_tmod (hargs _ hmem).1 d⟩

theorem pow_isNumber (h : pow func args = .ok v) : IsNumber args v := by
  obtain ⟨⟨b, e⟩, -, h⟩ := bind_eq_ok.mp h
  dsimp only at h
  split at h
  · cases h
  · split at h
    · cases h
    · obtain ⟨n, hn, h⟩ := bind_eq_ok.mp h
      cases h
      exact ⟨n, rfl, fun _ => fits_of_checked hn⟩

theorem shift_isNumber {op : Int → Nat → Int} (h : shift func op args = .ok v) :
    IsNumber args v := by
  obtain ⟨⟨n, k⟩, -, h⟩ := bind_eq_ok.mp h
  dsimp only at h
  split at h
  · cases h
  · obtain ⟨n, hn, h⟩ := bind_eq_ok.mp h
    cases h
    exact ⟨n, rfl, fun _ => fits_of_checked hn⟩

theorem abs_isNumber (h : abs func args = .ok v) : IsNumber args v := by
  unfold abs at h
  split at h
  · obtain ⟨n, -, h⟩ := bind_eq_ok.mp h
    split at h
    · next hn =>
      cases h
      refine ⟨_, rfl, fun _ => fits_iff.mpr ⟨?_, hn⟩⟩
      simp only [minNumber]
      omega
    · cases h
  · cases h

/-- What is chosen among numbers in range is in range. -/
theorem fits_foldl {pick : Int → Int → Int} (hpick : ∀ a b, pick a b = a ∨ pick a b = b)
    {ns : List Int} (hn : fits n = true) (hns : ∀ m ∈ ns, fits m = true) :
    fits (ns.foldl pick n) = true := by
  induction ns generalizing n with
  | nil => exact hn
  | cons k rest ih =>
    refine ih ?_ fun m hm => hns m (List.mem_cons_of_mem _ hm)
    rcases hpick n k with he | he
    · rw [he]
      exact hn
    · rw [he]
      exact hns k List.mem_cons_self

theorem select_isNumber {pick : Int → Int → Int} (hpick : ∀ a b, pick a b = a ∨ pick a b = b)
    (h : select func pick args = .ok v) : IsNumber args v := by
  unfold select at h
  split at h
  · cases h
  · obtain ⟨ns, hns, h⟩ := bind_eq_ok.mp h
    split at h
    · cases h
    · cases h
      refine ⟨_, rfl, fun hargs => ?_⟩
      have hfits := fits_of_takeAll hns hargs
      exact fits_foldl hpick (hfits _ List.mem_cons_self) fun m hm =>
        hfits m (List.mem_cons_of_mem _ hm)

theorem all_isNumber (h : all func args = .ok v) : IsNumber args v :=
  isNumber_of_test h

theorem any_isNumber (h : any func args = .ok v) : IsNumber args v :=
  isNumber_of_test h

theorem negate_isNumber (h : negate func args = .ok v) : IsNumber args v := by
  unfold negate at h
  split at h
  · exact isNumber_of_test h
  · cases h

end Numbers

/-! ## 3. Lists and texts -/

namespace Lists

variable {func : String} {args : List Value} {v : Value}

theorem nonempty_eq_ok {c : Value} {cs : List Value} :
    nonempty func args = .ok (c, cs) ↔ args = [.qexpr (c :: cs)] := by
  unfold nonempty
  split
  · simp only [bind_eq_ok, Variant.take_eq_ok Variant.qexpr_makes]
    constructor
    · rintro ⟨cells, rfl, h⟩
      split at h
      · cases h
      · cases h
        rfl
    · intro h
      cases h
      exact ⟨_, rfl, rfl⟩
  · next h =>
    constructor
    · intro he
      cases he
    · intro he
      exact absurd he (h _)

/-- The pieces of a list hold its own elements, and none that it is cut at. -/
theorem mem_of_mem_cut {α : Type} {p : α → Bool} {as piece : List α} {a : α}
    (hp : piece ∈ cut p as) (ha : a ∈ piece) : a ∈ as ∧ p a = false := by
  have hall : a ∈ (cut p as).flatten := List.mem_flatten_of_mem hp ha
  rw [flatten_cut, List.mem_filter] at hall
  simpa using hall

end Lists

section Answers

variable {func : String} {args : List Value} {v : Value}

theorem Lists.head_made (h : head func args = .ok v) : IsMadeList args v := by
  obtain ⟨⟨c, cs⟩, hc, h⟩ := bind_eq_ok.mp h
  cases h
  obtain rfl := nonempty_eq_ok.mp hc
  refine ⟨_, rfl, fun x hx => .cell List.mem_cons_self ?_⟩
  rw [List.mem_singleton.mp hx]
  exact List.mem_cons_self

theorem Lists.tail_made (h : tail func args = .ok v) : IsMadeList args v := by
  obtain ⟨⟨c, cs⟩, hc, h⟩ := bind_eq_ok.mp h
  cases h
  obtain rfl := nonempty_eq_ok.mp hc
  exact ⟨_, rfl, fun x hx => .cell List.mem_cons_self (List.mem_cons_of_mem _ hx)⟩

theorem Lists.last_made (h : last func args = .ok v) : IsMadeList args v := by
  obtain ⟨⟨c, cs⟩, hc, h⟩ := bind_eq_ok.mp h
  cases h
  obtain rfl := nonempty_eq_ok.mp hc
  refine ⟨_, rfl, fun x hx => .cell List.mem_cons_self ?_⟩
  rw [List.mem_singleton.mp hx]
  exact List.getLastD_mem_cons

theorem Lists.join_made (h : join func args = .ok v) : IsMadeList args v := by
  obtain ⟨lists, hl, h⟩ := bind_eq_ok.mp h
  cases h
  obtain rfl := (Variant.takeAll_eq_ok Variant.qexpr_makes).mp hl
  refine ⟨_, rfl, fun x hx => ?_⟩
  obtain ⟨cells, hcells, hx⟩ := List.mem_flatten.mp hx
  exact .cell (List.mem_map_of_mem hcells) hx

theorem Lists.len_isNumber (h : len func args = .ok v) : IsNumber args v := by
  unfold len at h
  split at h
  · cases h
    exact ⟨_, rfl, fun hargs => (hargs _ List.mem_cons_self).2⟩
  · cases h
    exact ⟨_, rfl, fun hargs => (hargs _ List.mem_cons_self).2⟩
  · cases h
  · cases h

theorem Lists.range_made (h : range func args = .ok v) : IsMadeList args v := by
  unfold range at h
  split at h
  · obtain ⟨n, -, h⟩ := bind_eq_ok.mp h
    split at h
    · cases h
    · cases h
      refine ⟨_, rfl, fun x hx => ?_⟩
      obtain ⟨i, hi, rfl⟩ := List.mem_map.mp hx
      have hlt : i < n.toNat := List.mem_range.mp hi
      refine .number (fits_iff.mpr ?_)
      simp only [minNumber, maxNumber, rangeLimit] at *
      omega
  · cases h

theorem Lists.sort_made (h : sort func args = .ok v) : IsMadeList args v := by
  unfold sort at h
  split at h
  · obtain ⟨cells, hcells, h⟩ := bind_eq_ok.mp h
    obtain ⟨ns, hns, h⟩ := bind_eq_ok.mp h
    cases h
    obtain rfl := (Variant.take_eq_ok Variant.qexpr_makes).mp hcells
    obtain rfl := (Variant.takeAll_eq_ok Variant.number_makes).mp hns
    refine ⟨_, rfl, fun x hx => .cell List.mem_cons_self ?_⟩
    obtain ⟨n, hn, rfl⟩ := List.mem_map.mp hx
    exact List.mem_map_of_mem (List.mem_mergeSort.mp hn)
  · cases h

theorem Lists.split_made (h : Lists.split func args = .ok v) : IsMadeList args v := by
  unfold Lists.split at h
  split at h
  · split at h
    · split at h
      · cases h
        refine ⟨_, rfl, fun x hx => ?_⟩
        obtain ⟨cs, -, rfl⟩ := List.mem_map.mp hx
        exact .string _
      · cases h
    · cases h
  · cases h
    refine ⟨_, rfl, fun x hx => ?_⟩
    obtain ⟨piece, hpiece, rfl⟩ := List.mem_map.mp hx
    exact .list fun c hc =>
      .cell (List.mem_cons_of_mem _ List.mem_cons_self) (mem_of_mem_cut hpiece hc).1
  · cases h
  · cases h

theorem Texts.chars_made (h : chars func args = .ok v) : IsMadeList args v := by
  unfold chars at h
  split at h
  · obtain ⟨s, -, h⟩ := bind_eq_ok.mp h
    cases h
    refine ⟨_, rfl, fun x hx => ?_⟩
    obtain ⟨c, -, rfl⟩ := List.mem_map.mp hx
    exact .string _
  · cases h

theorem Texts.int_isNumber (h : int func args = .ok v) : IsNumber args v := by
  unfold int at h
  split at h
  · obtain ⟨s, -, h⟩ := bind_eq_ok.mp h
    unfold numberIn at h
    split at h
    · split at h
      · next hn =>
        cases h
        exact ⟨_, rfl, fun _ => hn⟩
      · cases h
    · cases h
  · cases h

theorem Texts.substring_eq_string (h : substring func args = .ok v) : ∃ s, v = .string s := by
  unfold substring at h
  split at h
  · obtain ⟨s, -, h⟩ := bind_eq_ok.mp h
    obtain ⟨start, -, h⟩ := bind_eq_ok.mp h
    obtain ⟨stop, -, h⟩ := bind_eq_ok.mp h
    unfold slice at h
    split at h
    · cases h
    · split at h
      · cases h
      · split at h
        · cases h
        · cases h
          exact ⟨_, rfl⟩
  · cases h

theorem Texts.error_ne_ok : Texts.error func args ≠ .ok v := by
  intro h
  unfold Texts.error at h
  split at h
  · obtain ⟨s, -, h⟩ := bind_eq_ok.mp h
    cases h
  · cases h

theorem Operator.compareSame_isNumber {want : Bool} (h : compareSame func want args = .ok v) :
    IsNumber args v := by
  unfold compareSame at h
  split at h
  · cases h
    exact isNumber_truth _ _
  · cases h

/-! ## 4. All operators -/

/-- **What an operator answers is made of parts of its arguments**: it is a number, a text, or a
quoted list of what can be made of the arguments. -/
theorem Operator.run_made {o : Operator} (h : o.run args = .ok v) :
    IsNumber args v ∨ (∃ s, v = .string s) ∨ IsMadeList args v := by
  cases o with
  | list =>
    cases h
    exact Or.inr (Or.inr ⟨args, rfl, fun c hc => .arg hc⟩)
  | head => exact Or.inr (Or.inr (Lists.head_made h))
  | tail => exact Or.inr (Or.inr (Lists.tail_made h))
  | last => exact Or.inr (Or.inr (Lists.last_made h))
  | join => exact Or.inr (Or.inr (Lists.join_made h))
  | add | mul | div | bitAnd | bitOr | bitXor => exact Or.inl (Numbers.fold_isNumber h)
  | sub => exact Or.inl (Numbers.sub_isNumber h)
  | eq | ne => exact Or.inl (compareSame_isNumber h)
  | gt | ge | lt | le =>
    rw [run] at h
    exact Or.inl (Numbers.compare_isNumber h)
  | error => exact absurd h Texts.error_ne_ok
  | rem => exact Or.inl (Numbers.rem_isNumber h)
  | pow => exact Or.inl (Numbers.pow_isNumber h)
  | shiftLeft | shiftRight => exact Or.inl (Numbers.shift_isNumber h)
  | len => exact Or.inl (Lists.len_isNumber h)
  | range => exact Or.inr (Or.inr (Lists.range_made h))
  | sort => exact Or.inr (Or.inr (Lists.sort_made h))
  | min | max => exact Or.inl (Numbers.select_isNumber (fun a b => by omega) h)
  | abs => exact Or.inl (Numbers.abs_isNumber h)
  | and => exact Or.inl (Numbers.all_isNumber h)
  | or => exact Or.inl (Numbers.any_isNumber h)
  | not => exact Or.inl (Numbers.negate_isNumber h)
  | chars => exact Or.inr (Or.inr (Texts.chars_made h))
  | int => exact Or.inl (Texts.int_isNumber h)
  | substring => exact Or.inr (Or.inl (Texts.substring_eq_string h))
  | split => exact Or.inr (Or.inr (Lists.split_made h))

/-- What an operator answers is settled. -/
theorem Operator.run_settled {o : Operator} (h : o.run args = .ok v) : v.Settled := by
  rcases run_made h with ⟨n, rfl, -⟩ | ⟨s, rfl⟩ | ⟨cells, rfl, -⟩
  · trivial
  · trivial
  · trivial

/-- **What an operator answers is in range** when its arguments are, and are short. -/
theorem Operator.run_numberFits {o : Operator}
    (hargs : ∀ a ∈ args, a.NumberFits ∧ a.isShort = true) (h : o.run args = .ok v) :
    v.NumberFits := by
  rcases run_made h with ⟨n, rfl, hn⟩ | ⟨s, rfl⟩ | ⟨cells, rfl, -⟩
  · exact hn hargs
  · trivial
  · trivial

/-- Operators keep whatever asks nothing of numbers in range, texts, errors and lists, if it holds of
a number that is answered. -/
theorem Operator.run_all {p : Value → Prop} (hp : Value.PlainInRange p) {o : Operator}
    (hargs : ∀ a ∈ args, a.All p) (hnum : ∀ n, v = .number n → p v) (h : o.run args = .ok v) :
    v.All p := by
  rcases run_made h with ⟨n, rfl, -⟩ | ⟨s, rfl⟩ | ⟨cells, rfl, hcells⟩
  · exact Value.all_of_parts_nil rfl (hnum n rfl)
  · exact hp.all_string s
  · exact hp.all_list fun c hc => (hcells c hc).all hp hargs

end Answers

end CurryLisp
