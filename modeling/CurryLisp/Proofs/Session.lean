/-
# Sessions

A session begins with an interpreter that has just been made.  Then texts are evaluated, files are
loaded and preludes are run, one after the other.  A step may end with a fault; the session goes on
with what the step had done until then.  Files may change between steps, and so may the depth of
nesting that is left.

* `Interpreter.performWith`: a step, with any evaluator for the forms that it brings;
* `Reachable`: the machines that a session can come to;
* `Interpreter.make_eq`: how an interpreter is made;
* `Reachable.induct`: what holds at the beginning and is kept by each step holds of all of them;
* `Coupling.Sound.perform`: steps treat coupled machines alike, and
* `Coupling.Sound.reachable`: what evaluation keeps holds in every session.
-/
import CurryLisp.Interpreter
import CurryLisp.Proofs.Coupling

namespace CurryLisp

/-! ## 1. Steps -/

/-- A step of a session. -/
inductive Step
  /-- a text is evaluated as one round list -/
  | eval (source name : String)
  /-- a text is evaluated form by form -/
  | run (source name : String)
  /-- a file is loaded -/
  | load (name : String)
  /-- a prelude is run -/
  | prelude (source : String)

/-- Takes a step, and gives its results. -/
def Interpreter.perform (i : Interpreter) : Step → EvalM (List Value)
  | .eval source name => return [← i.evalText source name]
  | .run source name => i.runText source name
  | .load name => return [← i.load name]
  | .prelude source => do
    i.runPrelude source
    return []

/-- The text that a step brings, if it does not take it from a file. -/
def Step.text? : Step → Option String
  | .eval source _ | .run source _ | .prelude source => some source
  | .load _ => none

namespace Interpreter

/-- Evaluates a text as one round list with some evaluator. -/
def evalTextWith (ev : Evaluator) (root : FrameId) (source name : String) : EvalM Value := do
  ev.walk [.parsing source]
  match parse source with
  | .error f => return (Failure.malformedSource name f).toValue
  | .ok nodes => ev (.sexpr (← Form.formsOf ev nodes)) root

/-- Evaluates a text form by form with some evaluator. -/
def runTextWith (ev : Evaluator) (root : FrameId) (source name : String) : EvalM (List Value) := do
  ev.walk [.parsing source]
  match parse source with
  | .error f => return [(Failure.malformedSource name f).toValue]
  | .ok nodes => (← Form.formsOf ev nodes).mapM fun v => ev v root

/-- Runs a prelude with some evaluator. -/
def runPreludeWith (ev : Evaluator) (root : FrameId) (source : String) : EvalM Unit := do
  printErrors (← runTextWith ev root source "<prelude>")

/-- Takes a step with some evaluator, and gives its results. -/
def performWith (ev : Evaluator) (host : Host) (root : FrameId) : Step → EvalM (List Value)
  | .eval source name => return [← evalTextWith ev root source name]
  | .run source name => runTextWith ev root source name
  | .load name => return [← Form.loadFile host ev root name]
  | .prelude source => do
    runPreludeWith ev root source
    return []

/-- An interpreter takes its steps with its own evaluator. -/
theorem perform_eq_performWith (i : Interpreter) (s : Step) :
    i.perform s = performWith (CurryLisp.evaluate i.host i.depth) i.host i.root s := by
  cases s <;> rfl

end Interpreter

/-- The machines that a session can come to, with the root environment. -/
inductive Reachable : FrameId → Machine → Prop
  | fresh {host : Host} {extended : Option Bool} {prelude : String} {i : Interpreter}
      {m : Machine} : Interpreter.make host extended prelude {} = .ok i m → Reachable i.root m
  | step {root : FrameId} {m : Machine} (host : Host) (depth : Nat) (s : Step) :
      Reachable root m → Reachable root (m.after (Interpreter.perform ⟨host, root, depth⟩ s))

/-! ## 2. The beginning -/

/-- The root frame before any program has run. -/
def Store.fresh (extended : Bool) : Store :=
  let core := (Store.empty.alloc [] none).putAll 0 (libraryBindings Builtin.core)
  if extended then core.putAll 0 (libraryBindings Builtin.extended) else core

/-- The machine before any program has run. -/
def Machine.fresh (extended : Bool) : Machine where
  store := .fresh extended
  events := #[.ready extended]

/-- All bindings of a store, names with what is bound to them, have a property. -/
def Store.Bound (p : String × Value → Prop) (s : Store) : Prop := ∀ e, ∀ q ∈ s.bindings e, p q

namespace Store.Bound

variable {p : String × Value → Prop} {s : Store} {more : List (String × Value)}

theorem putAll (hs : s.Bound p) (hmore : ∀ q ∈ more, p q) (e : FrameId) :
    (s.putAll e more).Bound p := by
  intro i q hq
  rcases Store.mem_bindings_putAll hq with hq | hq
  · exact hmore q hq
  · exact hs i q hq

theorem alloc (hs : s.Bound p) (hmore : ∀ q ∈ more, p q) (parent : Option FrameId) :
    (s.alloc more parent).Bound p := by
  intro i q hq
  rcases Store.mem_bindings_alloc hq with hq | hq
  · exact hmore q hq
  · exact hs i q hq

/-- What is looked up is bound. -/
theorem get? (hs : s.Bound p) {e : FrameId} {x : String} {v : Value} (h : s.get? e x = some v) :
    p (x, v) := by
  obtain ⟨i, -, hmem⟩ := Store.exists_mem_of_get? h
  exact hs i _ hmem

/-- Nothing but builtins is bound in a fresh store. -/
theorem fresh (hp : ∀ b : Builtin, p (b.name, .builtin b)) (extended : Bool) : (Store.fresh extended).Bound p := by
  have library : ∀ builtins, ∀ q ∈ libraryBindings builtins, p q := by
    intro builtins q hq
    obtain ⟨b, -, rfl⟩ := List.mem_map.mp hq
    exact hp b
  have hempty : Store.empty.Bound p := fun e q hq => absurd hq List.not_mem_nil
  have hcore : ((Store.empty.alloc [] none).putAll 0 (libraryBindings Builtin.core)).Bound p :=
    (hempty.alloc (fun q hq => absurd hq List.not_mem_nil) none).putAll (library _) 0
  cases extended with
  | false => exact hcore
  | true => exact hcore.putAll (library _) 0

end Store.Bound

/-- Making the root frame gives the fresh store. -/
theorem Interpreter.makeRoot_empty (extended : Bool) :
    makeRoot extended {} = .ok 0 { store := .fresh extended } := by
  cases extended <;> rfl

/-- The depth that the settings come to, or why they come to none. -/
def Host.settledDepth (host : Host) : Except Fault Nat :=
  match host.recursionLimit with
  | .error f => .error (.badDepth f)
  | .ok asked =>
    match host.effectiveLimit asked with
    | none => .error .unsettableDepth
    | some limit => .ok (host.calls.nesting limit)

/-- Settling the depth leaves the machine as it is. -/
theorem Interpreter.settleDepth_eq (host : Host) (m : Machine) :
    settleDepth host m = match host.settledDepth with
      | .ok depth => .ok depth m
      | .error f => .error f m := by
  rw [settleDepth, Host.settledDepth]
  cases host.recursionLimit with
  | error f => rfl
  | ok asked =>
    dsimp only
    cases host.effectiveLimit asked <;> rfl

/-- The last thing that is done when an interpreter is made. -/
def Interpreter.begin (i : Interpreter) (prelude : String) : EvalM Interpreter := do
  if prelude ≠ "" then i.runPrelude prelude
  return i

/-- Where the depth is settled, the prelude is run next.  Where it is not, nothing has been done but
to bind the builtins. -/
theorem Interpreter.make_eq (host : Host) (extended : Option Bool) (prelude : String) :
    make host extended prelude {} = match host.settledDepth with
      | .ok depth =>
        begin ⟨host, 0, depth⟩ prelude (.fresh (extended.getD host.extendedByDefault))
      | .error f => .error f { store := .fresh (extended.getD host.extendedByDefault) } := by
  have hsettle := settleDepth_eq host { store := .fresh (extended.getD host.extendedByDefault) }
  refine (EvalM.bind_of_ok (makeRoot_empty _) _).trans ?_
  cases hdepth : host.settledDepth with
  | ok depth =>
    rw [hdepth] at hsettle
    exact EvalM.bind_of_ok hsettle _
  | error f =>
    rw [hdepth] at hsettle
    exact EvalM.bind_of_error hsettle _

/-- A new interpreter has the fresh machine, or has run its prelude on it. -/
theorem Interpreter.make_eq_ok {host : Host} {extended : Option Bool} {prelude : String}
    {i : Interpreter} {m : Machine} (h : make host extended prelude {} = .ok i m) :
    i.root = 0 ∧
      ∃ more, m = .fresh more ∨ m = (Machine.fresh more).after (i.runPrelude prelude) := by
  rw [make_eq] at h
  split at h
  · unfold begin at h
    split at h
    · obtain ⟨_, m₁, hrun, h⟩ := EvalM.bind_eq_ok.mp h
      cases h
      refine ⟨rfl, extended.getD host.extendedByDefault, Or.inr ?_⟩
      exact (Machine.after_eq_of_ok hrun).symm
    · cases h
      exact ⟨rfl, _, Or.inl rfl⟩
  · cases h

/-- Surroundings without files and without settings. -/
def Host.bare : Host := ⟨⟨[], []⟩, [], .counted 1000⟩

/-- A session can come to either of the fresh machines. -/
theorem Reachable.fresh_bare (extended : Bool) : Reachable 0 (.fresh extended) := by
  have hmake : ∃ depth, Interpreter.make .bare (some extended) "" {} =
      .ok ⟨.bare, 0, depth⟩ (.fresh extended) := by
    cases extended <;> exact ⟨_, rfl⟩
  obtain ⟨depth, hmake⟩ := hmake
  exact .fresh hmake

/-- **What a session keeps.**  What holds of the fresh machine and is kept by every step holds of
all machines that a session can come to. -/
theorem Reachable.induct {P : Machine → Prop} (fresh : ∀ extended, P (.fresh extended))
    (step : ∀ m host depth s, P m → P (m.after (Interpreter.perform ⟨host, 0, depth⟩ s)))
    {root : FrameId} {m : Machine} (h : Reachable root m) : root = 0 ∧ P m := by
  induction h with
  | @fresh host extended prelude i m h =>
    obtain ⟨hroot, more, hm⟩ := Interpreter.make_eq_ok h
    refine ⟨hroot, ?_⟩
    rcases hm with rfl | rfl
    · exact fresh more
    · -- The prelude that an interpreter is made with is a step of its own.
      obtain ⟨host, root, depth⟩ := i
      obtain rfl : root = 0 := hroot
      have hp := step _ host depth (.prelude prelude) (fresh more)
      rwa [Interpreter.perform, Machine.after_andThen] at hp
  | step host depth s _ ih =>
    obtain ⟨rfl, hm⟩ := ih
    exact ⟨rfl, step _ host depth s hm⟩

/-! ## 3. Steps of coupled machines -/

namespace Coupling

variable {A : Coupling} {host : Host} {seen : Value → Prop} {ev : Evaluator} {root : FrameId}
  {n : Nat}

/-- Whatever is read from a text may be evaluated. -/
def ReadsText (A : Coupling) (source : String) : Prop :=
  ∀ n nodes forms, parse source = .ok nodes → Value.ofNodes nodes = .ok forms →
    ∀ v ∈ forms, A.Holds n v

/-- Whatever is read from any text may be evaluated. -/
def Reads (A : Coupling) : Prop :=
  ∀ n source nodes forms, parse source = .ok nodes → Value.ofNodes nodes = .ok forms →
    ∀ v ∈ forms, A.Holds n v

theorem reads_of_plain (hp : ∀ n, Value.Plain (A.part n)) (hsym : ∀ n x, A.part n (.symbol x)) :
    A.Reads :=
  fun n _ _ _ hnodes hforms =>
    Value.all_of_parse (hp n).inRange hnodes (fun t _ _ => hsym n t.text) hforms

theorem ReadsText.formsOf_alike {source : String} (hread : A.ReadsText source) {nodes : List Node}
    (h : parse source = .ok nodes) :
    A.Alike n (Form.formsOf ev nodes) fun k forms => ∀ v ∈ forms, A.Holds k v :=
  Alike.formsOf fun k forms _ => hread k nodes forms h

theorem Sound.evalText_alike (hA : A.Sound host seen) (hev : A.Evaluates host ev) (hroot : A.Env n root)
    {source : String} (hread : A.ReadsText source) (name : String) :
    A.Alike n (Interpreter.evalTextWith ev root source name) A.Answer := by
  unfold Interpreter.evalTextWith
  refine (Alike.walk ev _).bind fun k _ hk _ => ?_
  split
  · exact Alike.pure fun _ _ => hA.answer_failure _
  · next nodes hnodes =>
    refine (hread.formsOf_alike hnodes).bind fun l forms hl hforms => ?_
    exact hev.eval l _ root (hA.holds_form hforms) (hA.env_mono (Nat.le_trans hk hl) hroot)

theorem Sound.runText_alike (hA : A.Sound host seen) (hev : A.Evaluates host ev) (hroot : A.Env n root)
    {source : String} (hread : A.ReadsText source) (name : String) :
    A.Alike n (Interpreter.runTextWith ev root source name) fun k rs =>
      ∀ r ∈ rs, A.Answer k r := by
  unfold Interpreter.runTextWith
  refine (Alike.walk ev _).bind fun k _ hk _ => ?_
  split
  · refine Alike.pure fun l _ r hr => ?_
    rw [List.mem_singleton.mp hr]
    exact hA.answer_failure _
  · next nodes hnodes =>
    refine (hread.formsOf_alike hnodes).bind fun l forms hl hforms => ?_
    refine Alike.mapM (R := A.Answer) hA.answer_mono fun v hv j hj => ?_
    have hkj : n ≤ j := Nat.le_trans hk (Nat.le_trans hl hj)
    exact hev.eval j v root (hA.holds_mono hj (hforms v hv)) (hA.env_mono hkj hroot)

theorem Sound.printErrors_alike (hA : A.Sound host seen) (vs : List Value) :
    A.Alike n (Interpreter.printErrors vs) fun _ _ => True := by
  induction vs generalizing n with
  | nil => exact Alike.pure fun _ _ => trivial
  | cons v rest ih =>
    unfold Interpreter.printErrors
    split
    · exact (hA.print_alike _).bind fun _ _ _ _ => ih
    · exact ih

theorem Sound.runPrelude_alike (hA : A.Sound host seen) (hev : A.Evaluates host ev)
    (hroot : A.Env n root) {source : String} (hread : A.ReadsText source) :
    A.Alike n (Interpreter.runPreludeWith ev root source) fun _ _ => True := by
  unfold Interpreter.runPreludeWith
  exact (hA.runText_alike hev hroot hread _).bind fun _ vs _ _ => hA.printErrors_alike vs

/-- The one result of a step. -/
theorem Sound.single_alike (hA : A.Sound host seen) {x : EvalM Value} (h : A.Alike n x A.Answer) :
    A.Alike n (do return [← x]) fun k rs => ∀ r ∈ rs, A.Answer k r := by
  refine h.bind fun k a _ ha => Alike.pure fun l hl r hr => ?_
  rw [List.mem_singleton.mp hr]
  exact hA.answer_mono hl ha

/-- **Steps treat coupled machines alike** if the evaluator does and the text may be evaluated. -/
theorem Sound.performWith (hA : A.Sound host seen) (hev : A.Evaluates host ev) (hroot : A.Env n root)
    (s : Step) (hread : ∀ source, s.text? = some source → A.ReadsText source) :
    A.Alike n (Interpreter.performWith ev host root s) fun k rs => ∀ r ∈ rs, A.Answer k r := by
  cases s with
  | eval source name => exact hA.single_alike (hA.evalText_alike hev hroot (hread _ rfl) name)
  | run source name => exact hA.runText_alike hev hroot (hread _ rfl) name
  | load name => exact hA.single_alike (hA.loadFile_alike hev hroot name)
  | prelude source =>
    have hrun := hA.runPrelude_alike hev hroot (hread _ rfl)
    exact hrun.bind fun _ _ _ _ => Alike.pure fun _ _ r hr => absurd hr List.not_mem_nil

theorem Sound.perform {i : Interpreter} (hA : A.Sound i.host) (hread : A.Reads)
    (hroot : A.Env n i.root) (s : Step) :
    A.Alike n (i.perform s) fun k rs => ∀ r ∈ rs, A.Answer k r := by
  rw [Interpreter.perform_eq_performWith]
  exact hA.performWith (hA.evaluate i.depth) hroot s fun source _ n => hread n source

/-- **What evaluation keeps holds in every session**, if it holds of the fresh machine. -/
theorem Sound.reachable (hA : ∀ host, A.Sound host) (hread : A.Reads) (hroot : A.Env 1 0)
    (fresh : ∀ extended, A.Rel (.fresh extended) (.fresh extended)) {root : FrameId}
    {m : Machine} (h : Reachable root m) : root = 0 ∧ A.Rel m m ∧ 1 ≤ m.store.size := by
  refine Reachable.induct (P := fun m => A.Rel m m ∧ 1 ≤ m.store.size) ?_ ?_ h
  · intro extended
    refine ⟨fresh extended, ?_⟩
    cases extended <;> exact Nat.le_refl 1
  · rintro m host depth s ⟨hm, hsize⟩
    have hstep := (hA host).perform (i := ⟨host, 0, depth⟩) hread hroot s
    obtain ⟨hm', hsize', -⟩ := hstep.one_run hm hsize
    exact ⟨hm', Nat.le_trans hsize hsize'⟩

end Coupling

end CurryLisp
