/-
# Evaluation

A symbol evaluates to what it is bound to; a round list is reduced; every other value evaluates to
itself.  To reduce a list, all its cells are evaluated from left to right.  The first error among
the results is the result; no cells give the empty list; a single result is the result itself; and
otherwise the first result is applied to the others.

Evaluation is nested at most as deep as a given depth, and stops with a fault at the bottom.  It
also stops where something that has to be copied, printed, compared, parsed or read is nested deeper
than the calls that are left.  Nothing else depends on the depth.
-/
import CurryLisp.Library.Forms
import CurryLisp.Library.Operators

namespace CurryLisp

/-! ## 1. Calls -/

/-- What a builtin does when it is called from an environment. -/
def Builtin.call (host : Host) (ev : Evaluator) (b : Builtin) (env : FrameId)
    (args : List Value) : EvalM Value :=
  match b with
  | .operator o =>
    match o.fault? args with
    | some f => Machine.stop (.numeral f)
    | none => pure (.ofExcept (o.run args))
  | .form f => f.run host ev env args

/-- What a builtin goes through when it is called. -/
def Builtin.walks (b : Builtin) (env : FrameId) (args : List Value) : List Walk :=
  match b with
  | .operator o => o.walks args
  | .form f => f.walks env args

/-- Applies a value to arguments. -/
def apply (host : Host) (ev : Evaluator) (head : Value) (args : List Value) (env : FrameId) :
    EvalM Value :=
  applyWith ev (Builtin.call host ev) head args env

/-- What is gone through when a value is applied to arguments. -/
def Value.walks (head : Value) (args : List Value) (env : FrameId) : List Walk :=
  match head with
  | .lambda f body own _ => callWalks f body own args
  | .builtin b => b.walks env args
  | _ => []

/-! ## 2. Lists -/

/-- What the results of the cells of a list come to. -/
def combine (host : Host) (ev : Evaluator) (env : FrameId) (results : List Value) :
    EvalM Value :=
  match results.find? Value.isError with
  | some e => pure e
  | none =>
    match results with
    | [] => pure .unit
    | [v] => pure v
    | head :: args => do
      ev.walk (head.walks args env)
      apply host ev head args env

/-- Reduces a list. -/
def reduce (host : Host) (ev : Evaluator) (cells : List Value) (env : FrameId) : EvalM Value := do
  combine host ev env (← cells.mapM (fun c => ev c env))

/-! ## 3. Evaluation -/

/-- What a name is bound to, copied. -/
def fetch (ev : Evaluator) (x : String) (env : FrameId) : EvalM Value := do
  let v ← Machine.lookup env x
  ev.walk [.copying v]
  return v

/-- One level of evaluation, on top of an evaluator for what is inside. -/
def evaluateStep (host : Host) (ev : Evaluator) (v : Value) (env : FrameId) : EvalM Value :=
  match v with
  | .symbol x => fetch ev x env
  | .sexpr cells => reduce host ev cells env
  | v => pure v

/-- Evaluates a value, nested at most to a given depth. -/
def evaluate (host : Host) : Nat → Evaluator
  | 0 => ⟨host.calls.allows 0, fun _ _ => Machine.stop .tooDeep⟩
  | depth + 1 =>
    ⟨host.calls.allows (depth + 1), fun v env => evaluateStep host (evaluate host depth) v env⟩

theorem evaluate_allows (host : Host) (depth : Nat) :
    (evaluate host depth).allows = host.calls.allows depth := by
  cases depth <;> rfl

end CurryLisp
