/-
# Applying functions

The arguments of a call are bound to the parameters by position.  A call that brings too few
arguments gives a function that waits for the others; a call that brings enough evaluates the body
in a new frame, around which lies the frame the function was made in.  The function that is called
is never changed.

`Formals.bind` decides which of the three happens, and says what is bound.  Whatever is kept or
bound is copied, level by level; `callWalks` lists what a call copies.
-/
import CurryLisp.Eval.Machine
import CurryLisp.Host.Calls

namespace CurryLisp

/-! ## 1. Evaluators -/

/-- What evaluates values, with the calls that are left to it. -/
structure Evaluator where
  /-- what can be gone through with the calls that are left -/
  allows : Walk → Bool
  /-- evaluates a value in an environment -/
  eval : Value → FrameId → EvalM Value

instance : CoeFun Evaluator fun _ => Value → FrameId → EvalM Value := ⟨Evaluator.eval⟩

/-- Stops unless everything listed can be gone through with the calls that are left. -/
def Evaluator.walk (ev : Evaluator) (walks : List Walk) : EvalM Unit :=
  if walks.all ev.allows then pure () else Machine.stop .tooDeep

/-- Either everything can be gone through, and nothing is done, or evaluation stops. -/
theorem Evaluator.walk_cases (ev : Evaluator) (walks : List Walk) :
    ((∀ w ∈ walks, ev.allows w = true) ∧ ev.walk walks = pure ()) ∨
      ev.walk walks = Machine.stop .tooDeep := by
  unfold walk
  split
  · next h => exact Or.inl ⟨List.all_eq_true.mp h, rfl⟩
  · exact Or.inr rfl

theorem Evaluator.walk_of_allows {ev : Evaluator} {walks : List Walk}
    (h : ∀ w ∈ walks, ev.allows w = true) : ev.walk walks = pure () :=
  if_pos (List.all_eq_true.mpr h)

theorem Evaluator.walk_single {ev : Evaluator} {w : Walk} (h : ev.allows w = true) :
    ev.walk [w] = pure () :=
  walk_of_allows fun _ hw => List.mem_singleton.mp hw ▸ h

theorem Evaluator.walk_single_of_not {ev : Evaluator} {w : Walk} (h : ev.allows w = false) :
    ev.walk [w] = Machine.stop .tooDeep := by
  rw [walk, List.all_cons, h, Bool.false_and, if_neg Bool.false_ne_true]

/-! ## 2. Binding arguments -/

/-- What a call comes to. -/
inductive Call
  /-- there are more arguments than parameters -/
  | excess (got expected : Nat)
  /-- there are fewer arguments than required parameters: what is still awaited, and what is bound -/
  | waiting (awaiting : Formals) (own : Bindings)
  /-- the bindings that the body is evaluated with -/
  | complete (frame : Bindings)

/-- Binds arguments to parameters, on top of the arguments bound before. -/
def Formals.bind (f : Formals) (own : Bindings) (args : List Value) : Call :=
  if f.rest = none ∧ f.required.length < args.length then
    .excess args.length f.required.length
  else if args.length < f.required.length then
    .waiting (f.drop args.length) (own.putAll (f.required.zip args))
  else
    match f.rest with
    | none => .complete (own.putAll (f.required.zip args))
    | some r =>
      .complete ((own.putAll (f.required.zip args)).put r
        (.qexpr (args.drop f.required.length)))

/-- What is copied when a function that a program made is called: the arguments that it has been
given before, what is bound, and the body if it is kept. -/
def callWalks (f : Formals) (body : List Value) (own : Bindings) (args : List Value) :
    List Walk :=
  match f.bind own args with
  | .excess _ _ => []
  | .waiting _ _ => (own.map Prod.snd ++ args).map .copying ++ [.copying (.qexpr body)]
  | .complete _ =>
    (own.map Prod.snd ++ args.take f.required.length).map .copying ++
      if f.rest.isSome then [.copying (.qexpr (args.drop f.required.length))] else []

/-! ## 3. Application -/

/-- Applies a function that a program made. -/
def applyLambda (ev : Evaluator) (f : Formals) (body : List Value) (own : Bindings)
    (scope : Option FrameId) (args : List Value) : EvalM Value :=
  match f.bind own args with
  | .excess got expected => pure (Failure.tooManyArguments got expected).toValue
  | .waiting awaiting own' => do
    Machine.note (.partlyApplied (.lambda f body own scope) awaiting)
    pure (.lambda awaiting body own' scope)
  | .complete frame => do
    ev (.sexpr body) (← Machine.allocate frame scope)

/-- Applies a value to arguments; `call` is what builtins do. -/
def applyWith (ev : Evaluator) (call : Builtin → FrameId → List Value → EvalM Value)
    (head : Value) (args : List Value) (env : FrameId) : EvalM Value :=
  match head with
  | .lambda f body own scope => applyLambda ev f body own scope args
  | .builtin b => call b env args
  | v => pure (Failure.notAFunction v.shape).toValue

end CurryLisp
