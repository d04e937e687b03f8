/-
# Calls of builtins

A program calls a builtin by writing its name before the arguments.  If evaluating the arguments
changes nothing and gives no errors, and whatever the builtin goes through is not nested too deeply,
evaluating the call does what the builtin does with the values of the arguments.  So what is known of
a builtin is known of the text of a program as well.

* `evaluate_builtin`: evaluating a call by name;
* `evaluate_answer`: the same of an operator, and `evaluate_operator`, if it does not fail;
* `evaluate_answer_two`, `evaluate_two`: the same of an operator that is called with two numbers;
* `Form.call_lambda`, `Form.call_function`, `Form.call_define`: what the forms do that make a function,
  that make one with a name and that bind a name, when they are called with lists of the right shape.
-/
import CurryLisp.Proofs.Coupling
import CurryLisp.Proofs.Parameters
import Mathlib.Data.List.Forall2

namespace CurryLisp

/-! ## 1. Calls by name -/

/-- A number evaluates to itself. -/
theorem evaluate_number (host : Host) (m : Machine) (e : FrameId) (depth : Nat) (n : Int) :
    evaluate host (depth + 1) (.number n) e m = .ok (.number n) m := rfl

/-- A text evaluates to itself. -/
theorem evaluate_string (host : Host) (m : Machine) (e : FrameId) (depth : Nat) (s : String) :
    evaluate host (depth + 1) (.string s) e m = .ok (.string s) m := rfl

/-- A symbol evaluates to what it is bound to, if there are calls enough to copy it. -/
theorem evaluate_symbol (host : Host) (depth : Nat) {m : Machine} {e : FrameId} {x : String}
    {v : Value} (h : m.store.get? e x = some v)
    (hcopy : host.calls.allows depth (.copying v) = true) :
    evaluate host (depth + 1) (.symbol x) e m = .ok v m := by
  have hlookup : Machine.lookup e x m = .ok v m := by
    rw [Machine.lookup, h]
    rfl
  have hwalk : (evaluate host depth).walk [.copying v] = pure () :=
    Evaluator.walk_single (by rw [evaluate_allows, hcopy])
  change fetch (evaluate host depth) x e m = _
  rw [fetch, EvalM.bind_of_ok hlookup, hwalk]
  rfl

/-- Computations that change nothing can be done one after the other. -/
theorem EvalM.mapM_of_forall₂ {α β : Type} {f : α → EvalM β} {m : Machine} {as : List α}
    {bs : List β} (h : List.Forall₂ (fun a b => f a m = .ok b m) as bs) : as.mapM f m = .ok bs m := by
  induction h with
  | nil => rfl
  | cons hab _ ih =>
    rw [List.mapM_cons, bind_of_ok hab, bind_of_ok ih]
    rfl

section ByName

variable {host : Host} {depth : Nat} {m : Machine} {e : FrameId}

/-- A call of a builtin evaluates the arguments, and then goes through what the builtin goes
through. -/
theorem evaluate_builtin_walk {b : Builtin} {cells args : List Value}
    (hbound : m.store.get? e b.name = some (.builtin b))
    (hargs : List.Forall₂ (fun c a => evaluate host (depth + 1) c e m = .ok a m) cells args)
    (hsome : args ≠ []) (hfine : ∀ a ∈ args, a.isError = false) :
    evaluate host (depth + 2) (.sexpr (.symbol b.name :: cells)) e m =
      (do
        (evaluate host (depth + 1)).walk (b.walks e args)
        b.call host (evaluate host (depth + 1)) e args) m := by
  have hname : evaluate host (depth + 1) (.symbol b.name) e m = .ok (.builtin b) m :=
    evaluate_symbol host depth hbound (host.calls.allows_flat rfl _)
  have hcells : (.symbol b.name :: cells).mapM (fun c => evaluate host (depth + 1) c e) m =
      .ok (.builtin b :: args) m := EvalM.mapM_of_forall₂ (.cons hname hargs)
  have hnone : (Value.builtin b :: args).find? Value.isError = none := by
    rw [List.find?_eq_none]
    intro a ha
    rcases List.mem_cons.mp ha with rfl | ha
    · nofun
    · exact Bool.eq_false_iff.mp (hfine a ha)
  change reduce host (evaluate host (depth + 1)) (.symbol b.name :: cells) e m = _
  rw [reduce, EvalM.bind_of_ok hcells]
  unfold combine
  rw [hnone]
  cases args with
  | nil => exact absurd rfl hsome
  | cons a rest => rfl

/-- **A call of a builtin** evaluates the arguments and does what the builtin does. -/
theorem evaluate_builtin {b : Builtin} {cells args : List Value}
    (hbound : m.store.get? e b.name = some (.builtin b))
    (hargs : List.Forall₂ (fun c a => evaluate host (depth + 1) c e m = .ok a m) cells args)
    (hsome : args ≠ []) (hfine : ∀ a ∈ args, a.isError = false)
    (hwalks : ∀ w ∈ b.walks e args, host.calls.allows (depth + 1) w = true) :
    evaluate host (depth + 2) (.sexpr (.symbol b.name :: cells)) e m =
      b.call host (evaluate host (depth + 1)) e args m := by
  have hwalk : (evaluate host (depth + 1)).walk (b.walks e args) = pure () :=
    Evaluator.walk_of_allows hwalks
  rw [evaluate_builtin_walk hbound hargs hsome hfine, hwalk, pure_bind]

/-- What an operator does when it reads no numeral that has too many digits. -/
theorem call_operator {ev : Evaluator} {o : Operator} {args : List Value}
    (hread : o.fault? args = none) :
    Builtin.call host ev (.operator o) e args = pure (.ofExcept (o.run args)) := by
  rw [Builtin.call, hread]

/-- Between numbers there is nothing to go into. -/
theorem Operator.isFlat_of_mem_walks (o : Operator) {ns : List Int} {w : Walk}
    (h : w ∈ o.walks (ns.map .number)) : w.isFlat = true := by
  cases o with
  | eq | ne =>
    match ns, h with
    | [a, b], h => exact List.mem_singleton.mp h ▸ rfl
  | split =>
    match ns, h with
    | [a, b], h => cases h
  | _ => cases h

/-- An operator that reads no numeral with too many digits, and goes through nothing deep, is called,
and answers. -/
theorem evaluate_answer (o : Operator) {cells args : List Value}
    (hbound : m.store.get? e o.name = some (.builtin (.operator o)))
    (hargs : List.Forall₂ (fun c a => evaluate host (depth + 1) c e m = .ok a m) cells args)
    (hsome : args ≠ []) (hfine : ∀ a ∈ args, a.isError = false)
    (hflat : ∀ w ∈ o.walks args, w.isFlat = true) (hread : o.fault? args = none) :
    evaluate host (depth + 2) (.sexpr (.symbol o.name :: cells)) e m =
      .ok (.ofExcept (o.run args)) m := by
  have hcall := evaluate_builtin (b := .operator o) hbound hargs hsome hfine
    fun w hw => host.calls.allows_flat (hflat w hw) _
  rw [call_operator hread] at hcall
  exact hcall

/-- What an operator answers when it is called with two arguments that are numbers. -/
theorem evaluate_answer_two (o : Operator) {x y : Value} {a b : Int}
    (hbound : m.store.get? e o.name = some (.builtin (.operator o)))
    (hx : evaluate host (depth + 1) x e m = .ok (.number a) m)
    (hy : evaluate host (depth + 1) y e m = .ok (.number b) m) :
    evaluate host (depth + 2) (.sexpr [.symbol o.name, x, y]) e m =
      .ok (.ofExcept (o.run [.number a, .number b])) m :=
  evaluate_answer o hbound (.cons hx (.cons hy .nil)) nofun (by simp [Value.isError])
    (fun _ (h : _ ∈ o.walks ([a, b].map .number)) => o.isFlat_of_mem_walks h) (by cases o <;> rfl)

/-- Such an operator does not fail. -/
theorem evaluate_operator (o : Operator) {cells args : List Value} {v : Value}
    (hbound : m.store.get? e o.name = some (.builtin (.operator o)))
    (hargs : List.Forall₂ (fun c a => evaluate host (depth + 1) c e m = .ok a m) cells args)
    (hsome : args ≠ []) (hfine : ∀ a ∈ args, a.isError = false)
    (hflat : ∀ w ∈ o.walks args, w.isFlat = true) (hread : o.fault? args = none)
    (hrun : o.run args = .ok v) :
    evaluate host (depth + 2) (.sexpr (.symbol o.name :: cells)) e m = .ok v m := by
  rw [evaluate_answer o hbound hargs hsome hfine hflat hread, hrun, Value.ofExcept_ok]

/-- An operator is called with two arguments that are numbers, and does not fail. -/
theorem evaluate_two (o : Operator) {x y : Value} {a b : Int} {v : Value}
    (hbound : m.store.get? e o.name = some (.builtin (.operator o)))
    (hx : evaluate host (depth + 1) x e m = .ok (.number a) m)
    (hy : evaluate host (depth + 1) y e m = .ok (.number b) m)
    (hrun : o.run [.number a, .number b] = .ok v) :
    evaluate host (depth + 2) (.sexpr [.symbol o.name, x, y]) e m = .ok v m := by
  rw [evaluate_answer_two o hbound hx hy, hrun, Value.ofExcept_ok]

end ByName

/-! ## 2. Calls that make functions and bind names -/

namespace Form

theorem signature_qexprs (func : String) (cells body : List Value) :
    signature func [.qexpr cells, .qexpr body] =
      (Formals.ofCells func cells).map fun f => (f, body) := by
  change (Formals.ofCells func cells >>= fun f => .ok (f, body)) = _
  cases Formals.ofCells func cells <;> rfl

theorem namedSignature_qexprs (func name : String) (cells body : List Value) :
    namedSignature func [.qexpr (.symbol name :: cells), .qexpr body] =
      (Formals.ofCells func cells).map fun f => (name, f, body) := by
  change (Formals.ofCells func cells >>= fun f => .ok (name, f, body)) = _
  cases Formals.ofCells func cells <;> rfl

variable (host : Host) (ev : Evaluator) (env : FrameId) (m : Machine) (name : String)
  (cells body : List Value)

/-- A function is made, and that is reported, unless the parameters are refused. -/
theorem call_lambda :
    Builtin.call host ev (.form .lambda) env [.qexpr cells, .qexpr body] m =
      match Formals.ofCells lambda.name cells with
      | .ok f => .ok (.lambda f body [] (some env))
          { m with events := m.events.push (.lambdaMade f body) }
      | .error e => .ok e.toValue m := by
  change Value.orElseFail (signature lambda.name _) (fun s => close env s.1 s.2) m = _
  rw [signature_qexprs]
  cases Formals.ofCells lambda.name cells <;> rfl

/-- A function is made, that is reported, and then the name is bound, unless the parameters are
refused. -/
theorem call_function :
    Builtin.call host ev (.form .function) env [.qexpr (.symbol name :: cells), .qexpr body] m =
      match Formals.ofCells function.name cells with
      | .ok f => .ok .unit { m with
          store := m.store.putAll (m.store.root env) [(name, .lambda f body [] (some env))]
          events := m.events.push (.lambdaMade f body) }
      | .error e => .ok e.toValue m := by
  change Value.orElseFail (namedSignature function.name _) (fun s => do
    Machine.bindGlobal env [(s.1, ← close env s.2.1 s.2.2)]
    return .unit) m = _
  rw [namedSignature_qexprs]
  cases Formals.ofCells function.name cells <;> rfl

/-- One name is bound. -/
theorem call_define (v : Value) :
    Builtin.call host ev (.form .define) env [.qexpr [.symbol name], v] m =
      .ok .unit { m with store := m.store.putAll (m.store.root env) [(name, v)] } := rfl

end Form

end CurryLisp
