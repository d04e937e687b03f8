/-
# Evaluations that are under way

Between the steps of a session nothing runs.  While a step is taken, evaluations start evaluations:
of the cells of a list, of the body of a function, of what `eval` and `if` are given, of the forms
of a file.  An `Activation` is an evaluation that is about to be made, with the machine it is made
on, and `Starts` says which others it starts.

* `Activation.ComesTo`: the call that the evaluation of a list comes to;
* `Activation.run_congr`: **nothing else is evaluated**, since an evaluator that does the same on
  what is started does the same on the whole;
* `Underway`: the activations of a session, at any depth.
-/
import CurryLisp.Proofs.Files
import CurryLisp.Proofs.Session

namespace CurryLisp

/-! ## 1. Activations -/

/-- An evaluation that is about to be made: of a value in an environment, on a machine, and how deep
it may nest. -/
structure Activation where
  machine : Machine
  depth : Nat
  value : Value
  env : FrameId

namespace Activation

/-- Makes the evaluation. -/
def run (host : Host) (a : Activation) : EStateM.Result Fault Machine Value :=
  evaluate host a.depth a.value a.env a.machine

/-- The evaluation of a list comes to a call: its cells have been evaluated, none of the results is
an error, there are calls enough for what the call goes through, and the first result is applied to
the others on the machine that is then there. -/
inductive ComesTo (host : Host) : Activation → Machine → Value → List Value → Prop
  | call {m m' : Machine} {d : Nat} {cells args : List Value} {env : FrameId} {head : Value} :
      (cells.mapM fun c => evaluate host d c env) m = .ok (head :: args) m' → args ≠ [] →
      (head :: args).find? Value.isError = none →
      (∀ w ∈ head.walks args env, (evaluate host d).allows w = true) →
      ComesTo host ⟨m, d + 1, .sexpr cells, env⟩ m' head args

/-- An evaluation starts another one, with one level of depth less. -/
inductive Starts (host : Host) : Activation → Activation → Prop
  /-- the cells of a list, one after the other -/
  | cell {m m' : Machine} {d : Nat} {before after results : List Value} {c : Value}
      {env : FrameId} :
      (before.mapM fun c => evaluate host d c env) m = .ok results m' →
      Starts host ⟨m, d + 1, .sexpr (before ++ c :: after), env⟩ ⟨m', d, c, env⟩
  /-- the body of a function that is called, in the frame of the call -/
  | body {a : Activation} {m : Machine} {d : Nat} {f : Formals} {body args : List Value}
      {own frame : Bindings} {scope : Option FrameId} :
      a.ComesTo host m (.lambda f body own scope) args → a.depth = d + 1 →
      f.bind own args = .complete frame →
      Starts host a ⟨{ m with store := m.store.alloc frame scope }, d, .sexpr body, m.store.size⟩
  /-- what `eval` is given -/
  | eval {a : Activation} {m : Machine} {d : Nat} {cells : List Value} :
      a.ComesTo host m (.builtin (.form .eval)) [.qexpr cells] → a.depth = d + 1 →
      Starts host a ⟨m, d, .sexpr cells, a.env⟩
  /-- the branch that `if` selects -/
  | branch {a : Activation} {m : Machine} {d : Nat} {args cells : List Value} :
      a.ComesTo host m (.builtin (.form .branch)) args → a.depth = d + 1 →
      Form.chosen Form.branch.name args = .ok cells →
      Starts host a ⟨m, d, .sexpr cells, a.env⟩
  /-- the forms of a file, one after the other -/
  | form {a : Activation} {m m' : Machine} {d : Nat} {name source : String} {path : Path}
      {before after : List Value} {v : Value} :
      a.ComesTo host m (.builtin (.form .load)) [.string name] → a.depth = d + 1 →
      host.opening name = .ready path (before ++ v :: after) →
      host.sourceOf name = some source → (evaluate host d).Takes source →
      Form.runPrinting (evaluate host d) a.env before
        { m with events := m.events.push (.loading path) } = .ok () m' →
      Starts host a ⟨m', d, v, a.env⟩

variable {host : Host} {a b : Activation} {m : Machine} {head : Value} {args : List Value}

/-- **The evaluation of a list does what the call does that it comes to.** -/
theorem ComesTo.run_eq (h : a.ComesTo host m head args) :
    ∃ d, a.depth = d + 1 ∧ a.run host = apply host (evaluate host d) head args a.env m := by
  cases h with
  | @call _ _ d cells _ env _ hcells hargs herr hwalks =>
    refine ⟨d, rfl, ?_⟩
    change reduce host (evaluate host d) cells env _ = _
    obtain ⟨v, rest, rfl⟩ := List.exists_cons_of_ne_nil hargs
    rw [reduce, EvalM.bind_of_ok hcells]
    unfold combine
    rw [herr]
    dsimp only
    rw [Evaluator.walk_of_allows hwalks]
    rfl

end Activation

/-! ## 2. Nothing else is evaluated -/

section Congruence

variable {ev ev' : Evaluator} {env : FrameId}

/-- Evaluators with the same calls left go through the same. -/
theorem Evaluator.walk_congr (h : ev'.allows = ev.allows) (walks : List Walk) :
    ev'.walk walks = ev.walk walks := by
  unfold walk
  rw [h]

/-- An evaluator may be exchanged for one that does the same on each value as its turn comes. -/
theorem mapM_congr_run {vs : List Value} {m : Machine}
    (h : ∀ before v after results m', vs = before ++ v :: after →
      (before.mapM fun c => ev c env) m = .ok results m' → ev' v env m' = ev v env m') :
    (vs.mapM fun c => ev' c env) m = (vs.mapM fun c => ev c env) m := by
  induction vs generalizing m with
  | nil => rfl
  | cons v rest ih =>
    have hv : ev' v env m = ev v env m := h [] v rest [] m rfl rfl
    rw [List.mapM_cons, List.mapM_cons]
    cases hrun : ev v env m with
    | error f m₁ => rw [EvalM.bind_of_error hrun, EvalM.bind_of_error (hv.trans hrun)]
    | ok r m₁ =>
      rw [EvalM.bind_of_ok hrun, EvalM.bind_of_ok (hv.trans hrun)]
      have hrest : (rest.mapM fun c => ev' c env) m₁ = (rest.mapM fun c => ev c env) m₁ := by
        refine ih fun before w after results m' hsplit hbefore => ?_
        refine h (v :: before) w after (r :: results) m' (by simp [hsplit]) ?_
        rw [List.mapM_cons, EvalM.bind_of_ok hrun, EvalM.bind_of_ok hbefore]
        rfl
      exact EvalM.bind_congr_run hrest _

/-- So it may where the forms of a file are evaluated. -/
theorem Form.runPrinting_congr_run {vs : List Value} {m : Machine}
    (h : ∀ before v after m', vs = before ++ v :: after →
      runPrinting ev env before m = .ok () m' → ev' v env m' = ev v env m') :
    runPrinting ev' env vs m = runPrinting ev env vs m := by
  induction vs generalizing m with
  | nil => rfl
  | cons v rest ih =>
    have hv : ev' v env m = ev v env m := h [] v rest m rfl rfl
    unfold runPrinting
    cases hrun : ev v env m with
    | error f m₁ => rw [EvalM.bind_of_error hrun, EvalM.bind_of_error (hv.trans hrun)]
    | ok r m₁ =>
      rw [EvalM.bind_of_ok hrun, EvalM.bind_of_ok (hv.trans hrun)]
      dsimp only
      split
      · next herr =>
        refine ih fun before w after m' hsplit hbefore => ?_
        refine h (v :: before) w after m' (by simp [hsplit]) ?_
        rw [runPrinting, EvalM.bind_of_ok hrun]
        simp only [herr, if_true]
        exact hbefore
      · next herr =>
        refine ih fun before w after m' hsplit hbefore => ?_
        refine h (v :: before) w after m' (by simp [hsplit]) ?_
        rw [runPrinting, EvalM.bind_of_ok hrun]
        simp only [herr]
        exact hbefore

/-- Loading a file evaluates its forms as their turn comes, if there are calls enough to come to
them. -/
theorem Form.loadFile_congr_run {host : Host} {name : String} {m : Machine}
    (hallows : ev'.allows = ev.allows)
    (h : ∀ source path before v after m', host.opening name = .ready path (before ++ v :: after) →
      host.sourceOf name = some source → ev.Takes source →
      runPrinting ev env before { m with events := m.events.push (.loading path) } = .ok () m' →
      ev' v env m' = ev v env m') :
    loadFile host ev' env name m = loadFile host ev env name m := by
  simp only [loadFile_eq, Evaluator.walk_congr hallows]
  rcases ev.walk_cases (parseWalks (host.sourceOf name)) with ⟨hparsing, hwalk⟩ | hwalk
  swap
  · rw [hwalk]
    rfl
  rw [hwalk, pure_bind, pure_bind]
  cases hopen : host.opening name with
  | stopped f | refused e reason | unread path f => rfl
  | ready path forms =>
    obtain ⟨source, nodes, hres, htext, hparse, -⟩ := Host.opening_eq_ready.mp hopen
    have hsource : host.sourceOf name = some source := Host.sourceOf_of_text hres htext
    rcases ev.walk_cases (readWalks (host.sourceOf name)) with ⟨hreading, hwalk'⟩ | hwalk'
    swap
    · simp only [hwalk']
      rfl
    have htakes : ev.Takes source := by
      rw [hsource] at hparsing hreading
      refine Evaluator.takes_of_parse hparse (hparsing _ List.mem_cons_self) (hreading _ ?_)
      rw [readWalks, Option.map_some, hparse]
      exact List.mem_cons_self
    have hforms : runPrinting ev' env forms { m with events := m.events.push (.loading path) } =
        runPrinting ev env forms { m with events := m.events.push (.loading path) } :=
      runPrinting_congr_run fun before v after m' hsplit hbefore => by
        subst hsplit
        exact h source path before v after m' hopen hsource htakes hbefore
    simp only [hwalk', pure_bind]
    exact EvalM.bind_congr_run hforms _

end Congruence

namespace Activation

variable {host : Host} {a : Activation} {d : Nat} {ev : Evaluator}

/-- A call evaluates what it starts, and nothing else. -/
theorem ComesTo.apply_congr {m : Machine} {head : Value} {args : List Value}
    (h : a.ComesTo host m head args) (hd : a.depth = d + 1)
    (hallows : ev.allows = (evaluate host d).allows)
    (hev : ∀ b, a.Starts host b → ev b.value b.env b.machine = b.run host) :
    apply host ev head args a.env m = apply host (evaluate host d) head args a.env m := by
  -- `b.run` uses the depth of `b`, which is `d` for whatever is started.
  cases head with
  | lambda f body own scope =>
    change applyLambda ev f body own scope args m = applyLambda _ f body own scope args m
    unfold applyLambda
    cases hbind : f.bind own args with
    | excess got expected => rfl
    | waiting awaiting own' => rfl
    | complete frame => exact hev _ (.body h hd hbind)
  | builtin b =>
    change b.call host ev a.env args m = b.call host _ a.env args m
    cases b with
    | operator o => rfl
    | form f =>
      cases f with
      | eval =>
        change Value.orElseFail _ _ m = Value.orElseFail _ _ m
        cases hquoted : Form.quoted Form.eval.name args with
        | error e => rfl
        | ok cells =>
          obtain rfl := Form.quoted_eq_ok.mp hquoted
          exact hev _ (.eval h hd)
      | branch =>
        change Value.orElseFail _ _ m = Value.orElseFail _ _ m
        cases hchosen : Form.chosen Form.branch.name args with
        | error e => rfl
        | ok cells => exact hev _ (.branch h hd hchosen)
      | load =>
        change Value.orElseFail _ _ m = Value.orElseFail _ _ m
        cases hname : Form.fileName Form.load.name args with
        | error e => rfl
        | ok name =>
          obtain rfl := Form.fileName_eq_ok.mp hname
          change Form.loadFile host ev a.env name m = Form.loadFile host _ a.env name m
          exact Form.loadFile_congr_run hallows fun source path before v after m' hopen hsource
            htakes hbefore => hev _ (.form h hd hopen hsource htakes hbefore)
      | define | assign | lambda | function | print | read => rfl
  | number | string | symbol | error | sexpr | qexpr => rfl

/-- **An evaluation evaluates what it starts, and nothing else.**  Any other evaluator that has as
many calls left and does the same on what is started does the same on the whole. -/
theorem run_congr (hd : a.depth = d + 1) (hallows : ev.allows = (evaluate host d).allows)
    (hev : ∀ b, a.Starts host b → ev b.value b.env b.machine = b.run host) :
    evaluateStep host ev a.value a.env a.machine = a.run host := by
  obtain ⟨m, depth, v, env⟩ := a
  obtain rfl : depth = d + 1 := hd
  cases v with
  | symbol x =>
    change fetch ev x env m = fetch (evaluate host d) x env m
    simp only [fetch, Evaluator.walk_congr hallows]
  | sexpr cells =>
    change reduce host ev cells env m = reduce host (evaluate host d) cells env m
    have hcells : (cells.mapM fun c => ev c env) m =
        (cells.mapM fun c => evaluate host d c env) m :=
      mapM_congr_run fun before c after results m' hsplit hbefore => by
        subst hsplit
        exact hev _ (.cell hbefore)
    rw [reduce, reduce, EvalM.bind_congr_run hcells]
    cases hrun : (cells.mapM fun c => evaluate host d c env) m with
    | error f m' => rw [EvalM.bind_of_error hrun, EvalM.bind_of_error hrun]
    | ok results m' =>
      rw [EvalM.bind_of_ok hrun, EvalM.bind_of_ok hrun]
      unfold combine
      cases herr : results.find? Value.isError with
      | some e => rfl
      | none =>
        match results, hrun, herr with
        | [], _, _ => rfl
        | [v], _, _ => rfl
        | head :: v :: rest, hrun, herr =>
          dsimp only
          rw [Evaluator.walk_congr hallows]
          rcases (evaluate host d).walk_cases (head.walks (v :: rest) env) with
            ⟨hwalks, hwalk⟩ | hwalk
          · rw [hwalk]
            exact (ComesTo.call hrun (List.cons_ne_nil v rest) herr hwalks).apply_congr rfl
              hallows hev
          · rw [hwalk]
            rfl
  | number | string | error | qexpr | builtin | lambda => rfl

end Activation

/-! ## 3. Activations of a session -/

/-- A step of a session begins an evaluation in the root environment. -/
inductive Step.Begins (host : Host) (root : FrameId) (d : Nat) (m : Machine) :
    Step → Activation → Prop
  /-- the whole of a text -/
  | eval {source name : String} {nodes : List Node} {forms : List Value} :
      (evaluate host d).Takes source → parse source = .ok nodes → Value.ofNodes nodes = .ok forms →
      Begins host root d m (.eval source name) ⟨m, d, .sexpr forms, root⟩
  /-- the forms of a text, one after the other -/
  | run {s : Step} {source name : String} {nodes : List Node} {before after results : List Value}
      {v : Value} {m' : Machine} :
      s = .run source name ∨ s = .prelude source → (evaluate host d).Takes source →
      parse source = .ok nodes →
      Value.ofNodes nodes = .ok (before ++ v :: after) →
      (before.mapM fun c => evaluate host d c root) m = .ok results m' →
      Begins host root d m s ⟨m', d, v, root⟩
  /-- the forms of a file, one after the other -/
  | load {name source : String} {path : Path} {before after : List Value} {v : Value}
      {m' : Machine} :
      host.opening name = .ready path (before ++ v :: after) →
      host.sourceOf name = some source → (evaluate host d).Takes source →
      Form.runPrinting (evaluate host d) root before
        { m with events := m.events.push (.loading path) } = .ok () m' →
      Begins host root d m (.load name) ⟨m', d, v, root⟩

/-- The forms of a text are gone on with, if there are calls enough to come to them. -/
theorem Form.formsOf_congr_run {α : Type} {host : Host} {d : Nat} {m : Machine}
    {ev : Evaluator} (hallows : ev.allows = (evaluate host d).allows) {source : String}
    {nodes : List Node} (hparse : parse source = .ok nodes) {next next' : List Value → EvalM α}
    (h : ∀ forms, (evaluate host d).Takes source → Value.ofNodes nodes = .ok forms →
      next' forms m = next forms m) :
    (do ev.walk [.parsing source]; next' (← Form.formsOf ev nodes)) m =
      (do (evaluate host d).walk [.parsing source]; next (← Form.formsOf (evaluate host d) nodes))
        m := by
  simp only [Form.formsOf, Evaluator.walk_congr hallows]
  rcases (evaluate host d).walk_cases [.parsing source] with ⟨hparsing, hwalk⟩ | hwalk
  swap
  · rw [hwalk]
    rfl
  rcases (evaluate host d).walk_cases [.reading nodes] with ⟨hreading, hwalk'⟩ | hwalk'
  swap
  · rw [hwalk, hwalk']
    rfl
  rw [hwalk, hwalk']
  cases hforms : Value.ofNodes nodes with
  | error f =>
    simp only [Form.valuesOf_eq_stop hforms]
    rfl
  | ok forms =>
    simp only [Form.valuesOf_eq_pure hforms, pure_bind]
    have htakes : (evaluate host d).Takes source := Evaluator.takes_of_parse hparse
      (hparsing _ List.mem_cons_self) (hreading _ List.mem_cons_self)
    exact h forms htakes hforms

/-- **A step evaluates what it begins, and nothing else.** -/
theorem Step.perform_congr {host : Host} {root : FrameId} {d : Nat} {m : Machine} {s : Step}
    {ev : Evaluator} (hallows : ev.allows = (evaluate host d).allows)
    (hev : ∀ a, s.Begins host root d m a → ev a.value a.env a.machine = a.run host) :
    Interpreter.performWith ev host root s m = Interpreter.perform ⟨host, root, d⟩ s m := by
  have forms : ∀ source name, s = .run source name ∨ s = .prelude source → ∀ name',
      Interpreter.runTextWith ev root source name' m =
        Interpreter.runTextWith (evaluate host d) root source name' m := by
    intro source name hs name'
    unfold Interpreter.runTextWith
    cases hparse : parse source with
    | error f => rw [Evaluator.walk_congr hallows]
    | ok nodes =>
      refine Form.formsOf_congr_run hallows hparse fun vs htakes hforms => ?_
      refine mapM_congr_run fun before v after results m' hsplit hbefore => ?_
      subst hsplit
      exact hev _ (.run hs htakes hparse hforms hbefore)
  rw [Interpreter.perform_eq_performWith]
  cases s with
  | eval source name =>
    refine EvalM.bind_congr_run ?_ _
    unfold Interpreter.evalTextWith
    cases hparse : parse source with
    | error f => rw [Evaluator.walk_congr hallows]
    | ok nodes =>
      exact Form.formsOf_congr_run hallows hparse fun vs htakes hforms =>
        hev _ (.eval htakes hparse hforms)
  | run source name => exact forms source name (Or.inl rfl) name
  | load name =>
    refine EvalM.bind_congr_run ?_ _
    exact Form.loadFile_congr_run hallows fun source path before v after m' hopen hsource htakes
      hbefore => hev _ (.load hopen hsource htakes hbefore)
  | prelude source =>
    refine EvalM.bind_congr_run ?_ _
    exact EvalM.bind_congr_run (forms source "" (Or.inr rfl) _) _

/-- The evaluations of a session, those that its steps begin and those that these start, at any
depth.  By `Step.perform_congr` and `Activation.run_congr` there are no others. -/
inductive Underway (root : FrameId) (host : Host) : Activation → Prop
  | begins {m : Machine} {d : Nat} {s : Step} {a : Activation} :
      Reachable root m → s.Begins host root d m a → Underway root host a
  | starts {a b : Activation} : Underway root host a → a.Starts host b → Underway root host b

end CurryLisp
