/-
# Arguments in groups

A function may be given its arguments all at once or group by group.  A group that leaves required
parameters unbound gives a function that waits for the others; nothing is evaluated for it.  The
last group then does what all the arguments together would have done.

What makes this so is one equation about binding, `Formals.bind_append`: whatever a call binds, the
rest of the arguments bind on top of what the first of them have bound.  The only difference that
is left is in the words of an excess, which counts neither the arguments that were given before nor
the parameters they were bound to (`Call.plus`).

`applyInTurn` applies a value to group after group.  Each partial application is reported, so
`Machine.SameButReports` says what "the same" is.
-/
import CurryLisp.Proofs.Checks
import CurryLisp.Proofs.Reports
import CurryLisp.Proofs.Session

namespace CurryLisp

/-! ## 1. Binding some arguments after others -/

/-- Arguments that come in two parts are paired with the names in two parts. -/
theorem zip_append_of_length_le {α β : Type} {names : List α} {a : List β}
    (h : a.length ≤ names.length) (b : List β) :
    names.zip (a ++ b) = names.zip a ++ (names.drop a.length).zip b := by
  have hlen : (names.take a.length).length = a.length := List.length_take_of_le h
  have hfirst : names.zip a = (names.take a.length).zip a := by
    calc names.zip a
        = (names.take a.length ++ names.drop a.length).zip (a ++ []) := by
          rw [List.take_append_drop, List.append_nil]
      _ = (names.take a.length).zip a := by
          rw [List.zip_append hlen, List.zip_nil_right, List.append_nil]
  calc names.zip (a ++ b)
      = (names.take a.length ++ names.drop a.length).zip (a ++ b) := by
        rw [List.take_append_drop]
    _ = names.zip a ++ (names.drop a.length).zip b := by
        rw [List.zip_append hlen, ← hfirst]

/-- What a call comes to when `n` more arguments are counted, and the parameters they are bound
to. -/
def Call.plus (n : Nat) : Call → Call
  | excess got expected => excess (got + n) (expected + n)
  | call => call

namespace Formals

variable {f : Formals} {own : Bindings} {a : List Value}

/-- Parameters are left after too few arguments. -/
theorem bind_of_lt (h : a.length < f.required.length) :
    f.bind own a = .waiting (f.drop a.length) (own.putAll (f.required.zip a)) := by
  have hexcess : ¬ (f.rest = none ∧ f.required.length < a.length) := fun hx => by omega
  rw [bind, if_neg hexcess, if_pos h]

/-- **Binding is associative**: arguments are bound on top of the ones that were bound before. -/
theorem bind_append (h : a.length < f.required.length) (b : List Value) :
    f.bind own (a ++ b) =
      ((f.drop a.length).bind (own.putAll (f.required.zip a)) b).plus a.length := by
  have hzip := zip_append_of_length_le (Nat.le_of_lt h) b
  have hput : own.putAll (f.required.zip (a ++ b)) =
      (own.putAll (f.required.zip a)).putAll ((f.required.drop a.length).zip b) := by
    rw [hzip, Bindings.putAll_append]
  have hrest : (a ++ b).drop f.required.length = b.drop (f.required.length - a.length) := by
    rw [List.drop_append, List.drop_eq_nil_of_le (Nat.le_of_lt h), List.nil_append]
  simp only [bind, drop_natCast, List.length_append, List.length_drop, hput, hrest, List.drop_drop]
  have hexcess : (f.rest = none ∧ f.required.length - a.length < b.length) ↔
      (f.rest = none ∧ f.required.length < a.length + b.length) := by
    constructor <;> exact fun hx => ⟨hx.1, by omega⟩
  have hfew : b.length < f.required.length - a.length ↔
      a.length + b.length < f.required.length := by
    omega
  simp only [hexcess, hfew]
  split
  · simp only [Call.plus, Call.excess.injEq]
    omega
  · split
    · rfl
    · cases f.rest <;> rfl

/-- More arguments than parameters are an excess. -/
theorem bind_of_excess (own : Bindings) {args : List Value}
    (h : f.rest = none ∧ f.required.length < args.length) :
    f.bind own args = .excess args.length f.required.length :=
  if_pos h

/-- Nothing else is an excess. -/
theorem excess_of_bind {args : List Value} {got expected : Nat}
    (h : f.bind own args = .excess got expected) :
    f.rest = none ∧ f.required.length < args.length := by
  unfold bind at h
  split at h
  · next hexcess => exact hexcess
  · split at h
    · cases h
    · split at h <;> cases h

end Formals

/-! ## 2. Calls with some arguments after others -/

/-- `part` brings the last arguments of a call of which `given` were brought before, and `whole`
brings all of them.  From the given machine both do the same.  Only an excess is counted
differently: `part` counts the arguments that it brings and the parameters that are left. -/
def Completes (f : Formals) (given : Nat) (last : List Value) (m : Machine)
    (part whole : EvalM Value) : Prop :=
  (m.after part).SameButReports (m.after whole) ∧
    if f.rest = none ∧ f.required.length < given + last.length then
      m.outcome whole =
        .ok (Failure.tooManyArguments (given + last.length) f.required.length).toValue ∧
      m.outcome part =
        .ok (Failure.tooManyArguments last.length (f.required.length - given)).toValue
    else m.outcome part = m.outcome whole

/-- Applies a value to groups of arguments: what it gives for one group is applied to the next. -/
def applyInTurn (host : Host) (ev : Evaluator) (env : FrameId) :
    Value → List (List Value) → EvalM Value
  | v, [] => pure v
  | v, args :: rest => do applyInTurn host ev env (← apply host ev v args env) rest

section Calls

variable {f : Formals} (body : List Value) (own : Bindings) (scope : Option FrameId)
  {a : List Value}

/-- **A call with too few arguments** gives a function that waits for the others. -/
theorem apply_of_lt (h : a.length < f.required.length) (host : Host) (ev : Evaluator)
    (env : FrameId) (m : Machine) :
    ∃ event, apply host ev (.lambda f body own scope) a env m =
      .ok (.lambda (f.drop a.length) body (own.putAll (f.required.zip a)) scope)
        { m with events := m.events.push event } := by
  refine ⟨.partlyApplied (.lambda f body own scope) (f.drop a.length), ?_⟩
  change applyLambda ev f body own scope a m = _
  rw [applyLambda, Formals.bind_of_lt h]
  rfl

/-- **A call with the arguments that are left** does what the whole call does. -/
theorem apply_completes (h : a.length < f.required.length) (host : Host) (ev : Evaluator)
    (e₁ e₂ : FrameId) (b : List Value) (m : Machine) :
    Completes f a.length b m
      (apply host ev (.lambda (f.drop a.length) body (own.putAll (f.required.zip a)) scope) b e₁)
      (apply host ev (.lambda f body own scope) (a ++ b) e₂) := by
  change Completes f a.length b m
    (applyLambda ev (f.drop a.length) body (own.putAll (f.required.zip a)) scope b)
    (applyLambda ev f body own scope (a ++ b))
  have hleft : (f.drop a.length).required.length = f.required.length - a.length := by
    rw [Formals.drop_natCast, List.length_drop]
  have hrest : (f.drop a.length).rest = f.rest := by rw [Formals.drop_natCast]
  by_cases hexcess : f.rest = none ∧ f.required.length < a.length + b.length
  · have hwhole : f.rest = none ∧ f.required.length < (a ++ b).length :=
      ⟨hexcess.1, by rw [List.length_append]; exact hexcess.2⟩
    have hpart : (f.drop a.length).rest = none ∧ (f.drop a.length).required.length < b.length :=
      ⟨hrest.trans hexcess.1, by omega⟩
    rw [Completes, if_pos hexcess, applyLambda, applyLambda, Formals.bind_of_excess _ hwhole,
      Formals.bind_of_excess _ hpart, hleft, List.length_append]
    exact ⟨.refl m, rfl, rfl⟩
  · rw [Completes, if_neg hexcess, applyLambda, applyLambda, Formals.bind_append h]
    cases hbind : (f.drop a.length).bind (own.putAll (f.required.zip a)) b with
    | excess got expected =>
      obtain ⟨hnone, hlt⟩ := Formals.excess_of_bind hbind
      exact absurd ⟨hrest ▸ hnone, by omega⟩ hexcess
    | waiting awaiting own' => exact ⟨⟨rfl, rfl⟩, rfl⟩
    | complete frame => exact ⟨.refl _, rfl⟩

/-! ## 3. Any number of groups -/

/-- The last group is applied after the others. -/
theorem applyInTurn_concat (host : Host) (ev : Evaluator) (env : FrameId) (v : Value)
    (groups : List (List Value)) (last : List Value) :
    applyInTurn host ev env v (groups ++ [last]) =
      applyInTurn host ev env v groups >>= fun w => apply host ev w last env := by
  induction groups generalizing v with
  | nil =>
    change (apply host ev v last env >>= fun w => pure w) =
      (pure v >>= fun w => apply host ev w last env)
    rw [bind_pure, pure_bind]
  | cons args rest ih =>
    rw [List.cons_append, applyInTurn, applyInTurn, bind_assoc]
    exact bind_congr fun w => ih w

/-- **Groups that leave parameters unbound** bind their arguments as one group would. -/
theorem applyInTurn_of_lt {groups : List (List Value)}
    (h : groups.flatten.length < f.required.length) (host : Host) (ev : Evaluator)
    (env : FrameId) (m : Machine) :
    ∃ m', applyInTurn host ev env (.lambda f body own scope) groups m =
        .ok (.lambda (f.drop groups.flatten.length) body
          (own.putAll (f.required.zip groups.flatten)) scope) m' ∧
      m'.SameButReports m := by
  induction groups generalizing f own m with
  | nil =>
    refine ⟨m, ?_, .refl m⟩
    have hdrop : f.drop 0 = f := Formals.drop_natCast f 0
    simp [applyInTurn, pure, EStateM.pure, hdrop]
  | cons a rest ih =>
    rw [List.flatten_cons, List.length_append] at h
    have ha : a.length < f.required.length := by omega
    obtain ⟨event, hfirst⟩ := apply_of_lt body own scope ha host ev env m
    have hrest : rest.flatten.length < (f.drop a.length).required.length := by
      rw [Formals.drop_natCast, List.length_drop]
      omega
    obtain ⟨m', hothers, hsame⟩ := ih (own.putAll (f.required.zip a)) hrest
      { m with events := m.events.push event }
    refine ⟨m', ?_, hsame.trans (.note event (.refl m))⟩
    rw [applyInTurn, EvalM.bind_eq_ok]
    refine ⟨_, _, hfirst, ?_⟩
    rw [hothers, List.flatten_cons, zip_append_of_length_le (Nat.le_of_lt ha),
      Bindings.putAll_append, List.length_append]
    simp only [Formals.drop_natCast, List.drop_drop]

end Calls

/-! ## 4. The theorem -/

/-- **Arguments may be supplied in groups.**

Let a function be given fewer arguments than it has required parameters.

1. It answers with a function that waits for the others.  No binding changes and nothing is printed,
   and nothing is evaluated either: the answer is the same whatever the evaluator does.
2. That function, given any more arguments from anywhere, does what the first function does when it
   is given all of them: it gives the same value or fault, the same output and the same bindings.
   If they are too many, both say so and count what they were given themselves.
3. The same is true of any number of groups, as long as those before the last leave a required
   parameter unbound. -/
theorem arguments_in_groups {f : Formals} {body : List Value} {own : Bindings}
    {scope : Option FrameId} {a : List Value} (h : a.length < f.required.length) (host : Host) :
    let fn := Value.lambda f body own scope
    let g := Value.lambda (f.drop a.length) body (own.putAll (f.required.zip a)) scope
    (∀ (ev : Evaluator) (env : FrameId) (m : Machine),
      m.outcome (apply host ev fn a env) = .ok g ∧
      (m.after (apply host ev fn a env)).SameButReports m) ∧
    (∀ ev e₁ e₂ b m, Completes f a.length b m (apply host ev g b e₁)
      (apply host ev fn (a ++ b) e₂)) ∧
    ∀ depth env groups last m, groups.flatten.length < f.required.length →
      Completes f groups.flatten.length last m
        (applyInTurn host (evaluate host depth) env fn (groups ++ [last]))
        (apply host (evaluate host depth) fn (groups.flatten ++ last) env) := by
  intro fn g
  refine ⟨fun ev env m => ?_,
    fun ev e₁ e₂ b m => apply_completes body own scope h host ev e₁ e₂ b m, ?_⟩
  · obtain ⟨event, hcall⟩ := apply_of_lt body own scope h host ev env m
    rw [Machine.outcome, Machine.after, hcall]
    exact ⟨rfl, .note event (.refl m)⟩
  · intro depth env groups last m hgroups
    obtain ⟨m', hothers, hsame⟩ := applyInTurn_of_lt body own scope hgroups host
      (evaluate host depth) env m
    have hlast := apply_completes body own scope hgroups host (evaluate host depth) env env last m
    -- The last group is applied to what the others have given, in a machine with more reports.
    obtain ⟨hout, hafter⟩ := hsame.apply host depth
      (.lambda (f.drop groups.flatten.length) body (own.putAll (f.required.zip groups.flatten))
        scope) last env
    have hrun : applyInTurn host (evaluate host depth) env fn (groups ++ [last]) m =
        apply host (evaluate host depth) (.lambda (f.drop groups.flatten.length) body
          (own.putAll (f.required.zip groups.flatten)) scope) last env m' := by
      rw [applyInTurn_concat, EvalM.bind_of_ok hothers]
    obtain ⟨houtcome, hend⟩ := Machine.run_congr hrun
    rw [Completes, houtcome, hend, hout]
    exact ⟨hafter.trans hlast.1, hlast.2⟩

/-- A parameter that is named twice has its second argument, in whatever groups they come. -/
theorem arguments_in_groups_repeated :
    let body : List Value := [.symbol "list", .symbol "x", .symbol "y", .symbol "r"]
    let fn : Value := .lambda ⟨["x", "x", "y"], some "r"⟩ body [] (some 0)
    let g : Value := .lambda ⟨["y"], some "r"⟩ body [("x", .number 2)] (some 0)
    let result : Value := .qexpr [.number 2, .number 3, .qexpr [.number 4, .number 5]]
    let m : Machine := .fresh false
    let call (v : Value) (args : List Value) := apply .bare (evaluate .bare 3) v args 0
    [Value.number 1, .number 2].length < ["x", "x", "y"].length ∧
    m.outcome (call fn [.number 1, .number 2]) = .ok g ∧
    m.outcome (call fn [.number 1, .number 2, .number 3, .number 4, .number 5]) = .ok result ∧
    m.outcome (call g [.number 3, .number 4, .number 5]) = .ok result := by
  intro body fn g result m call
  have hlt : [Value.number 1, .number 2].length < ["x", "x", "y"].length := by decide
  obtain ⟨hfirst, hlast, -⟩ := arguments_in_groups (f := ⟨["x", "x", "y"], some "r"⟩)
    (a := [.number 1, .number 2]) hlt .bare
  have hwhole : m.outcome (call fn [.number 1, .number 2, .number 3, .number 4, .number 5]) =
      .ok result := by
    with_unfolding_all rfl
  obtain ⟨-, hsame⟩ := hlast (evaluate .bare 3) 0 0 [.number 3, .number 4, .number 5] m
  exact ⟨hlt, (hfirst (evaluate .bare 3) 0 m).1, hwhole, hsame.trans hwhole⟩

end CurryLisp
