/-
# What a call binds

A call that brings more arguments than there are parameters is refused, one that brings too few
gives a function that waits for the others, and any other runs the body.  Which of these it is
depends on how many arguments there are and on nothing else, so it is said here for every evaluator:
the first two are the same whatever the body would do.

The body is run in a frame that is made for the call.  The arguments are bound in it one after the
other, on top of what the function was given before, and the rest parameter last.  So of a name that
is given to several parameters the last one counts, and the rest parameter counts more than all
(`Formals.Fills`).

* `Bindings.exists_lastAt`: which of the arguments a name is bound to;
* `Formals.exists_fills`: the frame of a call;
* `apply_of_excess`, `apply_of_lt`, `apply_of_enough`: the three kinds of calls;
* `Store.get?_alloc_self`: what names mean in the new frame.

The main statement is `calls_bind_their_arguments`.
-/
import CurryLisp.Proofs.Chains
import CurryLisp.Proofs.Currying

namespace CurryLisp

/-! ## 1. The last of several places -/

/-- The last place of a name in a list of names. -/
structure LastAt (names : List String) (x : String) (i : Nat) : Prop where
  here : names[i]? = some x
  later : ∀ j, i < j → names[j]? ≠ some x

theorem LastAt.cons {names : List String} {x : String} {i : Nat} (h : LastAt names x i)
    (y : String) : LastAt (y :: names) x (i + 1) where
  here := h.here
  later j hj := by
    cases j with
    | zero => exact absurd hj (Nat.not_lt_zero _)
    | succ j => exact h.later j (Nat.lt_of_succ_lt_succ hj)

theorem lastAt_zero {names : List String} {x : String} (h : x ∉ names) :
    LastAt (x :: names) x 0 where
  here := rfl
  later j hj := by
    cases j with
    | zero => exact absurd hj (Nat.lt_irrefl 0)
    | succ j => exact fun hx => h (List.mem_of_getElem? hx)

/-- A name that is not among the names keeps what it had. -/
theorem Bindings.lookup_putAll_zip {names : List String} {x : String} (hx : x ∉ names)
    (args : List Value) (own : Bindings) :
    (own.putAll (names.zip args)).lookup x = own.lookup x := by
  refine lookup_putAll_of_not_mem own fun hmem => ?_
  obtain ⟨p, hp, rfl⟩ := List.mem_map.mp hmem
  exact hx (List.of_mem_zip hp).1

/-- **A name is bound to the argument at its last place.** -/
theorem Bindings.exists_lastAt {names : List String} {args : List Value} {x : String}
    (hx : x ∈ names) (h : names.length ≤ args.length) (own : Bindings) :
    ∃ i a, LastAt names x i ∧ args[i]? = some a ∧
      (own.putAll (names.zip args)).lookup x = some a := by
  induction names generalizing args own with
  | nil => exact absurd hx List.not_mem_nil
  | cons y names ih =>
    cases args with
    | nil => exact absurd h (Nat.not_succ_le_zero _)
    | cons a args =>
      rw [List.zip_cons_cons, putAll_cons]
      by_cases hlater : x ∈ names
      · obtain ⟨i, b, hi, hb, hlookup⟩ := ih hlater (Nat.le_of_succ_le_succ h) (own.put y a)
        exact ⟨i + 1, b, hi.cons y, hb, hlookup⟩
      · obtain rfl : x = y := (List.mem_cons.mp hx).resolve_right hlater
        refine ⟨0, a, lastAt_zero hlater, rfl, ?_⟩
        rw [lookup_putAll_zip hlater, lookup_put_self]

/-! ## 2. The frame of a call -/

/-- What a frame binds that is made for a call with enough arguments. -/
structure Formals.Fills (f : Formals) (own : Bindings) (args : List Value) (frame : Bindings) :
    Prop where
  /-- the rest parameter has the list of the arguments left over -/
  rest : ∀ r, f.rest = some r →
    frame.lookup r = some (.qexpr (args.drop f.required.length))
  /-- any other parameter has the argument at its last place -/
  required : ∀ x ∈ f.required, f.rest ≠ some x → ∃ i a, LastAt f.required x i ∧
    args[i]? = some a ∧ frame.lookup x = some a
  /-- any other name has what the function was given before -/
  others : ∀ x, x ∉ f.required → f.rest ≠ some x → frame.lookup x = own.lookup x

/-- **A call with enough arguments fills its frame.** -/
theorem Formals.exists_fills {f : Formals} {args : List Value}
    (hexcess : ¬ (f.rest = none ∧ f.required.length < args.length))
    (h : f.required.length ≤ args.length) (own : Bindings) :
    ∃ frame, f.bind own args = .complete frame ∧ f.Fills own args frame := by
  have hbound : ∀ x ∈ f.required, ∃ i a, LastAt f.required x i ∧ args[i]? = some a ∧
      (own.putAll (f.required.zip args)).lookup x = some a := fun x hx =>
    Bindings.exists_lastAt hx h own
  have hkept : ∀ x, x ∉ f.required →
      (own.putAll (f.required.zip args)).lookup x = own.lookup x := fun x hx =>
    Bindings.lookup_putAll_zip hx args own
  rw [bind, if_neg hexcess, if_neg (Nat.not_lt_of_le h)]
  cases hrest : f.rest with
  | none =>
    refine ⟨_, rfl, fun r hr => ?_, fun x hx _ => hbound x hx, fun x hx _ => hkept x hx⟩
    rw [hrest] at hr
    cases hr
  | some r =>
    have hother : ∀ x, some r ≠ some x → ((own.putAll (f.required.zip args)).put r
        (.qexpr (args.drop f.required.length))).lookup x =
          (own.putAll (f.required.zip args)).lookup x := fun x hx =>
      Bindings.lookup_put_ne _ _ fun e => hx (congrArg some e.symm)
    refine ⟨_, rfl, fun r' hr' => ?_, fun x hx hr => ?_, fun x hx hr => ?_⟩
    · obtain rfl := Option.some.inj (hrest.symm.trans hr')
      exact Bindings.lookup_put_self ..
    · rw [hother x (hrest ▸ hr)]
      exact hbound x hx
    · rw [hother x (hrest ▸ hr)]
      exact hkept x hx

/-! ## 3. The three kinds of calls -/

section Calls

variable {f : Formals} {args : List Value} (body : List Value) (own : Bindings)
  (scope : Option FrameId)

/-- A call with too many arguments is refused. -/
theorem apply_of_excess (h : f.rest = none ∧ f.required.length < args.length) (host : Host)
    (ev : Evaluator) (env : FrameId) (m : Machine) :
    apply host ev (.lambda f body own scope) args env m =
      .ok (Failure.tooManyArguments args.length f.required.length).toValue m := by
  change applyLambda ev f body own scope args m = _
  rw [applyLambda, Formals.bind_of_excess own h]
  rfl

/-- A call with enough arguments runs the body in a frame of its own. -/
theorem apply_of_enough (hexcess : ¬ (f.rest = none ∧ f.required.length < args.length))
    (h : f.required.length ≤ args.length) :
    ∃ frame, f.Fills own args frame ∧ ∀ host ev env m,
      apply host ev (.lambda f body own scope) args env m =
        ev (.sexpr body) m.store.size { m with store := m.store.alloc frame scope } := by
  obtain ⟨frame, hbind, hfills⟩ := Formals.exists_fills hexcess h own
  refine ⟨frame, hfills, fun host ev env m => ?_⟩
  change applyLambda ev f body own scope args m = _
  rw [applyLambda, hbind]
  rfl

end Calls

/-! ## 4. The theorem -/

/-- **Calls bind their arguments.**  Let a function be given any arguments.  Its parameters may be
named alike, and it may have been given some arguments before.

1. The call is refused, whatever the body would do, just when there is no rest parameter and there
   are more arguments than required parameters.
2. It gives a function, whatever the body would do, just when there are fewer arguments than
   required parameters.  Nothing changes but what is reported.
3. Otherwise it does what evaluating the body as a form does in a frame that was not there before.
   In this frame the rest parameter has the list of exactly the arguments left over; every other
   parameter has the argument at its last place; and every other name that the function was given
   has what it was given.  What the frame does not bind is looked up from the frame that the
   function was made in. -/
theorem calls_bind_their_arguments (f : Formals) (body : List Value) (own : Bindings)
    (scope : Option FrameId) (args : List Value) (host : Host) :
    let call (ev : Evaluator) (env : FrameId) := apply host ev (.lambda f body own scope) args env
    let excess := f.rest = none ∧ f.required.length < args.length
    ((∀ ev env (m : Machine), call ev env m =
        .ok (Failure.tooManyArguments args.length f.required.length).toValue m) ↔ excess) ∧
    ((∃ awaiting own', ∀ ev env (m : Machine),
        m.outcome (call ev env) = .ok (.lambda awaiting body own' scope) ∧
        (m.after (call ev env)).SameButReports m) ↔ args.length < f.required.length) ∧
    (¬ excess → f.required.length ≤ args.length → ∃ frame, f.Fills own args frame ∧
      ∀ ev env (m : Machine),
        call ev env m =
          ev (.sexpr body) m.store.size { m with store := m.store.alloc frame scope } ∧
        ∀ x, (m.store.alloc frame scope).get? m.store.size x =
          (frame.lookup x).or (scope.bind fun p => m.store.get? p x)) := by
  intro call excess
  -- An evaluator that always stops tells a call that runs the body from one that does not.
  let stopping : Evaluator := ⟨fun _ => true, fun _ _ => Machine.stop .tooDeep⟩
  have runs : ¬ excess → f.required.length ≤ args.length →
      ∃ m, call stopping 0 {} = .error .tooDeep m := by
    intro hexcess henough
    obtain ⟨frame, -, hcall⟩ := apply_of_enough body own scope hexcess henough
    exact ⟨_, hcall host stopping 0 {}⟩
  refine ⟨⟨fun hrefused => ?_, fun h => apply_of_excess body own scope h host⟩,
    ⟨?_, fun h => ?_⟩, fun hexcess henough => ?_⟩
  · by_contra hexcess
    have hcall := hrefused stopping 0 {}
    rcases Nat.lt_or_ge args.length f.required.length with hlt | hge
    · obtain ⟨event, hgives⟩ := apply_of_lt body own scope hlt host stopping 0 {}
      cases hgives.symm.trans hcall
    · obtain ⟨m, hstops⟩ := runs hexcess hge
      cases hstops.symm.trans hcall
  · rintro ⟨awaiting, own', hgives⟩
    obtain ⟨hout, -⟩ := hgives stopping 0 {}
    by_contra hge
    by_cases hexcess : excess
    · have hrefused := apply_of_excess body own scope hexcess host stopping 0 {}
      cases (Machine.outcome_eq_of_ok hrefused).symm.trans hout
    · obtain ⟨m, hstops⟩ := runs hexcess (Nat.le_of_not_lt hge)
      cases (Machine.outcome_eq_of_error hstops).symm.trans hout
  · refine ⟨f.drop args.length, own.putAll (f.required.zip args), fun ev env m => ?_⟩
    obtain ⟨event, hcall⟩ := apply_of_lt body own scope h host ev env m
    exact ⟨Machine.outcome_eq_of_ok hcall, Machine.after_eq_of_ok hcall ▸ .note event (.refl m)⟩
  · obtain ⟨frame, hfills, hcall⟩ := apply_of_enough body own scope hexcess henough
    exact ⟨frame, hfills, fun ev env m =>
      ⟨hcall host ev env m, Store.get?_alloc_self m.store frame scope⟩⟩

/-- A name for two required parameters and one for a required parameter and the rest: the first has
the later argument, the second the list of the arguments left over. -/
theorem calls_bind_their_arguments_repeated :
    let f : Formals := ⟨["x", "y", "x"], some "y"⟩
    let own : Bindings := [("z", .number 9)]
    let args : List Value := [.number 1, .number 2, .number 3, .number 4]
    let body : List Value := [.symbol "list", .symbol "x", .symbol "y", .symbol "z"]
    ¬ (f.rest = none ∧ f.required.length < args.length) ∧ f.required.length ≤ args.length ∧
      (∃ frame, f.Fills own args frame ∧ frame.lookup "x" = some (.number 3) ∧
        frame.lookup "y" = some (.qexpr [.number 4]) ∧ frame.lookup "z" = some (.number 9)) ∧
      (Machine.fresh false).outcome
        (apply .bare (evaluate .bare 3) (.lambda f body own (some 0)) args 0) =
          .ok (.qexpr [.number 3, .qexpr [.number 4], .number 9]) := by
  intro f own args body
  have hexcess : ¬ (f.rest = none ∧ f.required.length < args.length) := by rintro ⟨⟨⟩, -⟩
  have henough : f.required.length ≤ args.length := by decide
  obtain ⟨-, -, hruns⟩ := calls_bind_their_arguments f body own (some 0) args .bare
  obtain ⟨frame, hfills, -⟩ := hruns hexcess henough
  have hx : frame.lookup "x" = some (.number 3) := by
    obtain ⟨i, a, hi, ha, hlookup⟩ := hfills.required "x" (by decide) (by decide)
    obtain rfl : i = 2 := by
      match i, hi with
      | 0, hi => exact absurd rfl (hi.later 2 (by decide))
      | 1, hi => exact absurd hi.here (by decide)
      | 2, _ => rfl
      | _ + 3, hi => cases hi.here
    cases ha
    exact hlookup
  refine ⟨hexcess, henough, ⟨frame, hfills, hx, hfills.rest "y" rfl, ?_⟩, ?_⟩
  · exact hfills.others "z" (by decide) (by decide)
  · with_unfolding_all rfl

end CurryLisp
