/-
# What evaluation returns

Evaluation returns numbers, texts, errors, quoted lists, functions and the empty round list: never
a symbol, and never a round list that holds something.  Such values are settled.  They evaluate to
themselves, so that evaluating a result once more changes nothing.

What is bound is settled as well, and it is never an error.  This is so of the bindings of every
frame, and of the arguments that a function holds until the others arrive; the bodies of functions
and quoted lists may hold anything.  `Store.Settled` says it of a store.  It is true of the fresh
store, and `Settling` is the coupling by which every evaluation keeps it.
-/
import CurryLisp.Proofs.Session

namespace CurryLisp

/-! ## 1. Settled values evaluate to themselves -/

/-- A settled value evaluates to itself, in any environment, and leaves the machine as it is. -/
theorem evaluate_of_settled {v : Value} (h : v.Settled) (host : Host) (depth : Nat) (e : FrameId)
    (m : Machine) : evaluate host (depth + 1) v e m = .ok v m := by
  cases v with
  | symbol x => exact absurd h id
  | sexpr cells =>
    obtain rfl : cells = [] := h
    rfl
  | number | string | error | qexpr | builtin | lambda => rfl

/-! ## 2. What may be bound -/

namespace Value

/-- A value that may be bound: it is settled, and no error. -/
def Bindable (v : Value) : Prop := v.Settled ∧ v.isError = false

/-- The arguments that a function has been given so far may be bound. -/
def OwnBindable : Value → Prop
  | lambda _ _ own _ => ∀ b ∈ own, b.2.Bindable
  | _ => True

/-- The arguments that have been given to any function inside a value may be bound. -/
def AllOwnBindable (v : Value) : Prop := v.All OwnBindable

theorem plain_ownBindable : Plain OwnBindable where
  number _ := trivial
  string _ := trivial
  error _ _ := trivial
  sexpr _ := trivial
  qexpr _ := trivial

end Value

/-- Everything that is bound in a store may be bound, and so may whatever functions inside it have
been given. -/
def Store.Settled (s : Store) : Prop :=
  ∀ e, ∀ q ∈ s.bindings e, q.2.Bindable ∧ q.2.AllOwnBindable

theorem Store.Settled.bound {s : Store} (hs : s.Settled) :
    s.Bound fun q => q.2.Bindable ∧ q.2.AllOwnBindable := hs

theorem Store.Settled.fresh (extended : Bool) : (Store.fresh extended).Settled := by
  refine Bound.fresh (p := fun q => q.2.Bindable ∧ q.2.AllOwnBindable) (fun b => ?_) extended
  exact ⟨⟨trivial, rfl⟩, Value.all_of_parts_nil rfl trivial⟩

/-! ## 3. Evaluation keeps it -/

/-- A machine whose store is settled, the values whose functions hold what may be bound, and settled
results. -/
def Settling : Coupling where
  Rel m₁ m₂ := m₁ = m₂ ∧ m₁.store.Settled
  part _ v := v.OwnBindable
  Res v := v.Settled
  Taken v := v.isError = false
  Env _ _ := True

namespace Settling

/-- An argument may be bound. -/
theorem bindable_of_arg {n : Nat} {v : Value} (h : Settling.Arg n v) :
    v.Bindable ∧ v.AllOwnBindable :=
  ⟨⟨h.1.2, h.2⟩, h.1.1⟩

theorem arg_of_bindable {n : Nat} {v : Value} (h : v.Bindable ∧ v.AllOwnBindable) :
    Settling.Arg n v :=
  ⟨⟨h.2, h.1.1⟩, h.1.2⟩

/-- **Evaluation keeps stores settled**, and its results are settled. -/
theorem sound (host : Host) : Settling.Sound host where
  toValueLaws := .of_plain (fun _ => Value.plain_ownBindable) (fun _ _ => trivial)
    (fun _ h => h) (fun _ h => h) host
  size_eq hm := congrArg (fun m => m.store.size) hm.1
  part_mono _ h := h
  env_mono _ h := h
  close _ _ _ := fun _ hb => absurd hb List.not_mem_nil
  await hf _ _ hown := by
    intro b hb
    rcases hown b hb with hb | ⟨-, hb⟩
    · exact hf.self b hb
    · exact (bindable_of_arg hb).1
  lookup hm _ _ := by
    obtain ⟨rfl, hs⟩ := hm
    refine ⟨rfl, fun v hv => ?_⟩
    obtain ⟨hv, hall⟩ := hs.bound.get? hv
    exact ⟨hall, hv.1⟩
  print _ hm := ⟨by rw [hm.1], hm.2⟩
  note _ hm := ⟨by rw [hm.1], hm.2⟩
  bind hm _ hmore :=
    ⟨by rw [hm.1], hm.2.bound.putAll (fun q hq => bindable_of_arg (hmore q hq).2) _⟩
  bindGlobal hm _ hmore :=
    ⟨by rw [hm.1], hm.2.bound.putAll (fun q hq => bindable_of_arg (hmore q hq).2) _⟩
  enter {m₁ _ f body own scope frame} hm hf hframe := by
    obtain ⟨rfl, hs⟩ := hm
    refine ⟨⟨rfl, hs.bound.alloc (fun q hq => ?_) _⟩, trivial⟩
    rcases hframe q hq with hq | ⟨-, hq⟩
    · exact ⟨hf.self q hq, (Value.all_lambda.mp hf).2.2 q hq⟩
    · exact bindable_of_arg hq

theorem reads : Settling.Reads :=
  Coupling.reads_of_plain (fun _ => Value.plain_ownBindable) fun _ _ => trivial

/-- In every machine that a session can come to, what is bound may be bound. -/
theorem settled_of_reachable {root : FrameId} {m : Machine} (h : Reachable root m) :
    m.store.Settled := by
  have hfresh : ∀ extended, Settling.Rel (.fresh extended) (.fresh extended) :=
    fun extended => ⟨rfl, .fresh extended⟩
  obtain ⟨-, hm, -⟩ := Coupling.Sound.reachable sound reads trivial hfresh h
  exact hm.2

end Settling

/-! ## 4. The theorem -/

/-- What is true of a value that evaluation returns: it is settled, and evaluates to itself in any
environment of any machine, which stays as it is. -/
structure Value.Returned (v : Value) : Prop where
  settled : v.Settled
  owns : v.AllOwnBindable
  again : ∀ host depth e m, evaluate host (depth + 1) v e m = .ok v m

theorem Value.returned_of_answer {n : Nat} {v : Value} (h : Settling.Answer n v) : v.Returned :=
  ⟨h.2, h.1, evaluate_of_settled h.2⟩

/-- **Evaluation returns settled values, and only settled values that are no errors are bound.**

1. In every machine that a session can come to, every binding of every frame may be bound, and so
   may the arguments that functions inside it have been given.
2. Whatever is read from a text satisfies what 3 asks of the value that is evaluated.
3. From any such machine, evaluation in any environment leads to such a machine again, also when it
   ends with a fault.  What it returns is settled, and evaluates to itself.
4. The frame that a call makes keeps 1, so that 3 holds of the evaluation of the body as well.
5. Every step of a session keeps 1, also when it ends with a fault, and its results are settled and
   evaluate to themselves. -/
theorem evaluation_settles {root : FrameId} {m : Machine} :
    (Reachable root m → m.store.Settled) ∧
    (∀ source nodes forms, parse source = .ok nodes → Value.ofNodes nodes = .ok forms →
      ∀ v ∈ forms, v.AllOwnBindable) ∧
    (m.store.Settled →
      (∀ host depth v e, v.AllOwnBindable →
        (m.after (evaluate host depth v e)).store.Settled ∧
        ∀ r, m.outcome (evaluate host depth v e) = .ok r → r.Returned) ∧
      (∀ f body own scope args frame, (Value.lambda f body own scope).AllOwnBindable →
        (∀ a ∈ args, a.Bindable ∧ a.AllOwnBindable) → f.bind own args = .complete frame →
        (m.store.alloc frame scope).Settled) ∧
      ∀ host depth s,
        (m.after (Interpreter.perform ⟨host, root, depth⟩ s)).store.Settled ∧
        ∀ rs, m.outcome (Interpreter.perform ⟨host, root, depth⟩ s) = .ok rs →
          ∀ r ∈ rs, r.Returned) := by
  refine ⟨Settling.settled_of_reachable, Settling.reads 0, fun hm => ⟨?_, ?_, ?_⟩⟩
  · intro host depth v e hv
    have hrun := ((Settling.sound host).evaluate depth).eval m.store.size v e hv trivial
    obtain ⟨hafter, -, hres⟩ := hrun.one_run ⟨rfl, hm⟩ (Nat.le_refl _)
    exact ⟨hafter.2, fun r hr => Value.returned_of_answer (hres r hr)⟩
  · intro f body own scope args frame hf hargs hbind
    have hframe := (Settling.sound .bare).frame_of_bind (n := m.store.size)
      (fun a ha => Settling.arg_of_bindable (hargs a ha)) hbind
    exact ((Settling.sound .bare).enter (⟨rfl, hm⟩ : Settling.Rel m m) hf hframe).1.2
  · intro host depth s
    have hrun := (Settling.sound host).perform (i := ⟨host, root, depth⟩) (n := m.store.size)
      Settling.reads trivial s
    obtain ⟨hafter, -, hres⟩ := hrun.one_run ⟨rfl, hm⟩ (Nat.le_refl _)
    exact ⟨hafter.2, fun rs hrs r hr => Value.returned_of_answer (hres rs hrs r hr)⟩

/-- A quoted symbol is settled, though the symbol is not. -/
theorem evaluation_settles_quoted :
    Reachable 0 (.fresh false) ∧ (Store.fresh false).Settled ∧
    (Machine.fresh false).outcome (Interpreter.perform ⟨.bare, 0, 2⟩ (.eval "{x}" "<input>")) =
      .ok [.qexpr [.symbol "x"]] ∧
    (Value.qexpr [.symbol "x"]).Returned := by
  have h : Reachable 0 (.fresh false) := .fresh_bare false
  have hrun : (Machine.fresh false).outcome
      (Interpreter.perform ⟨.bare, 0, 2⟩ (.eval "{x}" "<input>")) = .ok [.qexpr [.symbol "x"]] := by
    with_unfolding_all rfl
  have hsettled : (Machine.fresh false).store.Settled := evaluation_settles.1 h
  obtain ⟨-, -, hstep⟩ := (@evaluation_settles 0 _).2.2 hsettled
  exact ⟨h, hsettled, hrun, (hstep .bare 2 (.eval "{x}" "<input>")).2 _ hrun _ List.mem_cons_self⟩

end CurryLisp
