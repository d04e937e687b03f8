/-
# Loading, reading and running a file

There are three ways to the forms of a file.  `read` gives the text, a session runs the text form by
form, and `load` does both.  They agree: `load` gives an error for a file that `read` gives the same
error for, or whose text cannot be parsed, and otherwise it does what running the text does.

Loading prints the errors among the results between the forms, so its machine has printed more than
that of the run when the next form is evaluated.  This makes no difference, since nothing that was
printed is ever read again.

* `Printing`: the coupling that says so;
* `InTurn`: forms that are evaluated one after the other, with what each prints and gives;
* `Loads`: how the run of a text and the load of it end, and `runPrinting_loads`, that they do;
* `Interpreter.load_loads`: an interpreter loads a file as it runs the text.

The main statement is `load_agrees_with_read_and_run`.  Two of its cases have something in them that
stops evaluation: a file name, as in `load_stops_where_run_does`, or a numeral with too many digits,
which stops both before the first form.
-/
import CurryLisp.Proofs.Depth
import CurryLisp.Proofs.Stops

namespace CurryLisp

/-! ## 1. What was printed before -/

/-- Two machines with the same bindings, which have printed the same since they had printed some
lines each. -/
structure Machine.SameSince (before₁ before₂ : List String) (m₁ m₂ : Machine) : Prop where
  store : m₁.store = m₂.store
  printed : ∃ lines, m₁.printed.toList = before₁ ++ lines ∧ m₂.printed.toList = before₂ ++ lines

/-- Machines with the same bindings that print the same. -/
def Printing (before₁ before₂ : List String) : Coupling :=
  .ofMachines (Machine.SameSince before₁ before₂)

namespace Printing

variable {before₁ before₂ : List String}

/-- **What was printed before makes no difference.** -/
theorem sound (host : Host) : (Printing before₁ before₂).Sound host := by
  refine Coupling.ofMachines_sound host (fun h => h.store) (fun _ h => ⟨rfl, h.printed⟩) ?_
    (fun _ h => ⟨h.store, h.printed⟩)
  rintro m₁ m₂ line ⟨hstore, lines, h₁, h₂⟩
  exact ⟨hstore, lines ++ [line], by simp [h₁], by simp [h₂]⟩

/-- Evaluations of one value end alike on machines with the same bindings. -/
theorem evaluate_ends (host : Host) (depth : Nat) (v : Value) (env : FrameId) {m₁ m₂ : Machine}
    (hstore : m₁.store = m₂.store) :
    (Printing m₁.printed.toList m₂.printed.toList).Ends m₁.store.size
      (Printing m₁.printed.toList m₂.printed.toList).Answer
      (evaluate host depth v env m₁) (evaluate host depth v env m₂) := by
  have hvalue : (Printing m₁.printed.toList m₂.printed.toList).Holds 0 v :=
    (Coupling.ofMachines_arg _ 0 v).1.1
  exact ((sound host).evaluate depth).eval 0 v env hvalue trivial m₁ m₂
    ⟨hstore, [], by simp, by simp⟩ (Nat.zero_le _)

end Printing

/-! ## 2. One form after the other -/

/-- What has become of a form: the lines that were printed meanwhile, and its result. -/
structure FormRun where
  lines : List String
  result : Value

/-- What is printed when the form is loaded: an error is printed too. -/
def FormRun.reported (r : FormRun) : List String :=
  r.lines ++ if r.result.isError then [r.result.text] else []

/-- Forms are evaluated in an environment one after the other, each on the machine that the one
before it has left. -/
inductive InTurn (ev : Evaluator) (env : FrameId) :
    Machine → List Value → List FormRun → Machine → Prop
  | nil (m : Machine) : InTurn ev env m [] [] m
  | cons {m m₁ m' : Machine} {v r : Value} {rest : List Value} {lines : List String}
      {runs : List FormRun} :
      ev v env m = .ok r m₁ → m₁.printed.toList = m.printed.toList ++ lines →
      InTurn ev env m₁ rest runs m' → InTurn ev env m (v :: rest) (⟨lines, r⟩ :: runs) m'

/-- How a run of some forms and a load of them end, started on two machines. -/
inductive Loads {α : Type} (ev : Evaluator) (env : FrameId) (m₁ m₂ : Machine) (forms : List Value)
    (a : α) : EStateM.Result Fault Machine (List Value) → EStateM.Result Fault Machine α → Prop
  /-- All forms have been evaluated.  The bindings are the same, and the load has printed, form by
  form, what is reported of it. -/
  | ok {runs : List FormRun} {m₁' m₂' : Machine} :
      InTurn ev env m₁ forms runs m₁' → m₁'.store = m₂'.store →
      m₂'.printed.toList = m₂.printed.toList ++ runs.flatMap FormRun.reported →
      Loads ev env m₁ m₂ forms a (.ok (runs.map FormRun.result) m₁') (.ok a m₂')
  /-- One of the forms has stopped, with the same fault in both. -/
  | error {before after : List Value} {v : Value} {runs : List FormRun} {lines : List String}
      {f : Fault} {m m₁' m₂' : Machine} :
      forms = before ++ v :: after → InTurn ev env m₁ before runs m → ev v env m = .error f m₁' →
      m₁'.printed.toList = m.printed.toList ++ lines → m₁'.store = m₂'.store →
      m₂'.printed.toList = m₂.printed.toList ++ runs.flatMap FormRun.reported ++ lines →
      Loads ev env m₁ m₂ forms a (.error f m₁') (.error f m₂')

/-- A fault that does not stop the run does not stop the load. -/
theorem Loads.outcome_ne {α : Type} {ev : Evaluator} {env : FrameId} {m₁ m₂ : Machine}
    {forms : List Value} {a : α} {x : EvalM (List Value)} {y : EvalM α} {f : Fault}
    (h : Loads ev env m₁ m₂ forms a (x m₁) (y m₂)) (hx : m₁.outcome x ≠ .error f) :
    m₂.outcome y ≠ .error f := by
  generalize hrun₁ : x m₁ = r₁, hrun₂ : y m₂ = r₂ at h
  cases h with
  | ok =>
    rw [Machine.outcome_eq_of_ok hrun₂]
    exact nofun
  | error =>
    rw [Machine.outcome_eq_of_error hrun₁] at hx
    rw [Machine.outcome_eq_of_error hrun₂]
    rintro ⟨⟩
    exact hx rfl

/-- Loading goes on after a form with what is left, on the same bindings. -/
theorem Form.runPrinting_cons_of_ok {ev : Evaluator} {env : FrameId} {m m₁ : Machine} {v r : Value}
    (h : ev v env m = .ok r m₁) : ∃ m₂ : Machine, m₂.store = m₁.store ∧
      m₂.printed.toList = m₁.printed.toList ++ (if r.isError then [r.text] else []) ∧
      ∀ rest, runPrinting ev env (v :: rest) m = runPrinting ev env rest m₂ := by
  cases herr : r.isError with
  | true =>
    refine ⟨{ m₁ with printed := m₁.printed.push r.text }, rfl, by simp, fun rest => ?_⟩
    rw [runPrinting, EvalM.bind_of_ok h]
    simp only [herr, if_true]
    rfl
  | false =>
    refine ⟨m₁, rfl, by simp, fun rest => ?_⟩
    rw [runPrinting, EvalM.bind_of_ok h]
    simp only [herr]
    rfl

/-- **Running some forms and loading them** end alike on machines with the same bindings. -/
theorem runPrinting_loads (host : Host) (depth : Nat) (env : FrameId) (forms : List Value)
    {m₁ m₂ : Machine} (hstore : m₁.store = m₂.store) :
    Loads (evaluate host depth) env m₁ m₂ forms ()
      (forms.mapM (fun v => evaluate host depth v env) m₁)
      (Form.runPrinting (evaluate host depth) env forms m₂) := by
  induction forms generalizing m₁ m₂ with
  | nil => exact .ok (.nil m₁) hstore (by simp)
  | cons v rest ih =>
    rw [List.mapM_cons]
    have hends := Printing.evaluate_ends host depth v env hstore
    generalize hrun₁ : evaluate host depth v env m₁ = r₁,
      hrun₂ : evaluate host depth v env m₂ = r₂ at hends
    cases hends with
    | @error f m₁' m₂' hrel _ =>
      -- The form itself stops.
      obtain ⟨hstore', lines, hlines₁, hlines₂⟩ := hrel
      rw [EvalM.bind_of_error hrun₁, Form.runPrinting, EvalM.bind_of_error hrun₂]
      have hsplit : v :: rest = [] ++ v :: rest := rfl
      exact .error hsplit (.nil m₁) hrun₁ hlines₁ hstore' (by simpa using hlines₂)
    | @ok r m₁' m₂' hrel _ _ =>
      obtain ⟨hstore', lines, hlines₁, hlines₂⟩ := hrel
      obtain ⟨m₂'', hstore'', hprinted, hnext⟩ := Form.runPrinting_cons_of_ok hrun₂
      have hreported : m₂''.printed.toList =
          m₂.printed.toList ++ (FormRun.mk lines r).reported := by
        rw [hprinted, hlines₂, FormRun.reported, List.append_assoc]
      have hloads := ih (hstore'.trans hstore''.symm)
      rw [EvalM.bind_of_ok hrun₁, hnext]
      generalize hall₁ : (rest.mapM fun v => evaluate host depth v env) m₁' = rs₁,
        Form.runPrinting (evaluate host depth) env rest m₂'' = rs₂ at hloads
      cases hloads with
      | ok hturns hsame hafter =>
        rw [EvalM.bind_of_ok hall₁]
        refine .ok (.cons hrun₁ hlines₁ hturns) hsame ?_
        rw [hafter, hreported, List.flatMap_cons, List.append_assoc]
      | @error before after w _ _ _ _ _ _ hsplit hturns hstop hmore hsame hafter =>
        have hsplit : v :: rest = v :: before ++ w :: after := congrArg (v :: ·) hsplit
        rw [EvalM.bind_of_error hall₁]
        refine .error hsplit (.cons hrun₁ hlines₁ hturns) hstop hmore hsame ?_
        rw [hafter, hreported, List.flatMap_cons]
        simp only [List.append_assoc]

/-! ## 3. Files -/

section Files

variable {host : Host} {name text : String} {path : Path} {forms : List Value} {m m' : Machine}

/-- A file that reading gives an error for is refused for the same reason when it is loaded. -/
theorem Form.readFile_eq_error {message : String} {kind : ErrorKind}
    (hres : host.resolve name = .ok path)
    (hread : readFile host name m = .ok (.error message kind) m') :
    m' = m ∧ ∀ ev env (m : Machine), ∃ e, loadFile host ev env name m =
      .ok (.error message kind) { m with events := m.events.push e } := by
  unfold readFile at hread
  unfold loadFile
  rw [hres] at hread ⊢
  dsimp only at hread ⊢
  cases htext : host.files.text path with
  | ok source =>
    rw [htext] at hread
    cases hread
  | error f =>
    rw [htext] at hread
    cases f <;> cases hread <;> exact ⟨rfl, fun _ _ _ => ⟨_, rfl⟩⟩

/-- The text that reading gives is the text of the file. -/
theorem Form.readFile_eq_string (hres : host.resolve name = .ok path)
    (hread : readFile host name m = .ok (.string text) m') :
    m' = m ∧ host.files.text path = .ok text := by
  unfold readFile at hread
  rw [hres] at hread
  dsimp only at hread
  cases htext : host.files.text path with
  | ok source =>
    rw [htext] at hread
    cases hread
    exact ⟨rfl, rfl⟩
  | error f =>
    rw [htext] at hread
    cases f <;> cases hread

/-- A file whose text cannot be parsed gives the error of it, or stops for want of calls. -/
theorem Form.loadFile_of_malformed (hres : host.resolve name = .ok path)
    (htext : host.files.text path = .ok text) {f : SyntaxFault} (hparse : parse text = .error f)
    {ev : Evaluator} {env : FrameId}
    (hload : m.outcome (loadFile host ev env name) ≠ .error .tooDeep) :
    loadFile host ev env name m = .ok (Failure.notLoaded name (.malformed path.text f)).toValue
      { m with events := m.events.push (.malformed path f) } := by
  have heq : loadFile host ev env name = do
      ev.walk [.parsing text]
      Machine.note (.malformed path f)
      return (Failure.notLoaded name (.malformed path.text f)).toValue := by
    rw [loadFile, hres]
    dsimp only
    rw [htext]
    dsimp only
    rw [loadText, hparse]
  rw [heq] at hload ⊢
  rcases ev.walk_cases [.parsing text] with ⟨-, hwalk⟩ | hwalk
  · rw [hwalk]
    rfl
  · rw [hwalk] at hload
    exact absurd rfl hload

/-- There are calls enough to come to the forms of a text that does not stop for want of them. -/
theorem Interpreter.takes_of_runText {i : Interpreter} {nodes : List Node} {source : String}
    (hparse : parse text = .ok nodes)
    (hrun : m.outcome (i.runText text source) ≠ .error .tooDeep) : i.evaluator.Takes text := by
  by_contra hnot
  rw [i.runText_of_not_takes hnot hparse] at hrun
  exact hrun rfl

/-- **Loading a file does what running its text does.** -/
theorem Interpreter.load_loads {i : Interpreter} {nodes : List Node}
    (hres : i.host.resolve name = .ok path) (htext : i.host.files.text path = .ok text)
    (hparse : parse text = .ok nodes) (hforms : Value.ofNodes nodes = .ok forms)
    (htakes : i.evaluator.Takes text) (source : String) (m : Machine) :
    Loads (CurryLisp.evaluate i.host i.depth) i.root m m forms .unit (i.runText text source m)
      (i.load name m) := by
  let ev := CurryLisp.evaluate i.host i.depth
  let noted : Machine := { m with events := m.events.push (.loading path) }
  have hbegin : Machine.note (.loading path) m = .ok () noted := rfl
  have hload : i.load name = do
      Machine.note (.loading path)
      Form.runPrinting ev i.root forms
      return Value.unit := by
    rw [load, Form.loadFile_of_takes hres htext hparse htakes, Form.valuesOf_eq_pure hforms]
    rfl
  have hrun : i.runText text source = forms.mapM fun v => ev v i.root := by
    rw [i.runText_of_takes htakes hparse, Form.valuesOf_eq_pure hforms]
    rfl
  have hstore : m.store = noted.store := rfl
  have hloads := runPrinting_loads i.host i.depth i.root forms hstore
  rw [hrun, hload, EvalM.bind_of_ok hbegin]
  change Loads ev i.root m m forms Value.unit (forms.mapM (fun v => ev v i.root) m) _
  generalize forms.mapM (fun v => ev v i.root) m = r₁,
    hall : Form.runPrinting ev i.root forms noted = r₂ at hloads
  cases hloads with
  | ok hturns hsame hafter =>
    rw [EvalM.bind_of_ok hall]
    exact .ok hturns hsame hafter
  | error hsplit hturns hstop hmore hsame hafter =>
    rw [EvalM.bind_of_error hall]
    exact .error hsplit hturns hstop hmore hsame hafter

/-- So does loading it with another depth, unless one of the two is nested too deeply. -/
theorem Form.loadFile_loads {env : FrameId} {d d' : Nat} {source : String} {nodes : List Node}
    (hres : host.resolve name = .ok path) (htext : host.files.text path = .ok text)
    (hparse : parse text = .ok nodes) (hforms : Value.ofNodes nodes = .ok forms)
    (hrun : m.outcome (Interpreter.runText ⟨host, env, d⟩ text source) ≠ .error .tooDeep)
    (hload : m.outcome (loadFile host (evaluate host d') env name) ≠ .error .tooDeep) :
    Loads (evaluate host d) env m m forms .unit (Interpreter.runText ⟨host, env, d⟩ text source m)
      (loadFile host (evaluate host d') env name m) := by
  let i : Interpreter := ⟨host, env, d⟩
  have htakes : i.evaluator.Takes text := Interpreter.takes_of_runText hparse hrun
  have hloads := i.load_loads hres htext hparse hforms htakes source m
  have hown : m.outcome (i.load name) ≠ .error .tooDeep := hloads.outcome_ne hrun
  -- With the greater of the two depths, both loads do what they do with their own.
  have hfollows {k : Nat} (hk : k ≤ max d d') :
      Follows .any (loadFile host (evaluate host k) env name)
        (loadFile host (evaluate host (max d d')) env name) :=
    loadFile_follows (.refl host) (evaluate_follows (.refl host) rfl (fun _ => True) hk) env name
  have hmore := (hfollows (Nat.le_max_left d d')).eq hown
  have hmore' := (hfollows (Nat.le_max_right d d')).eq hload
  rw [← hmore', hmore]
  exact hloads

end Files

/-! ## 4. The theorem -/

/-- **Loading agrees with reading and running.**

Take a name for which the search comes to an end.

1. If reading the file gives an error, loading it gives the same error, and neither binds or prints
   anything.
2. If reading the file gives a text that cannot be parsed, loading it gives an error that says so,
   and neither binds or prints anything, unless the text is nested too deeply.
3. If the text can be parsed, loading the file, from any environment and on any machine, does what
   running the text there does, unless one of the two is nested too deeply.  Either all forms are
   evaluated, loading gives the empty list, and it has bound the same and printed what is reported
   of each form; or both stop at the same form with the same fault, and this is about the name of a
   file or a numeral; or the text itself holds a numeral with too many digits, and both stop there
   before anything is evaluated. -/
theorem load_agrees_with_read_and_run {host : Host} {name : String} {path : Path}
    (hres : host.resolve name = .ok path) :
    let read (ev : Evaluator) (env : FrameId) :=
      (Builtin.form .read).call host ev env [.string name]
    let load (ev : Evaluator) (env : FrameId) :=
      (Builtin.form .load).call host ev env [.string name]
    (∀ ev env m m' message kind, read ev env m = .ok (.error message kind) m' →
      m' = m ∧ ∀ ev env (m : Machine), ∃ events,
        load ev env m = .ok (.error message kind) { m with events := events }) ∧
    ∀ ev env m m' text, read ev env m = .ok (.string text) m' → m' = m ∧
      (∀ f, parse text = .error f → ∀ ev env (m : Machine),
        m.outcome (load ev env) ≠ .error .tooDeep → ∃ events,
        load ev env m = .ok (Failure.notLoaded name (.malformed path.text f)).toValue
          { m with events := events }) ∧
      ∀ nodes, parse text = .ok nodes → ∀ d d' env source (m : Machine),
        let run := Interpreter.runText ⟨host, env, d⟩ text source
        m.outcome run ≠ .error .tooDeep →
        m.outcome (load (evaluate host d') env) ≠ .error .tooDeep →
        (∃ forms, Value.ofNodes nodes = .ok forms ∧
          Loads (evaluate host d) env m m forms .unit (run m) (load (evaluate host d') env m) ∧
          ∀ f, m.outcome run = .error f → f.OfName ∨ f.OfNumeral) ∨
        ∃ f, unread? text = some f ∧ run m = .error (.node f) m ∧ ∃ events,
          load (evaluate host d') env m = .error (.node f) { m with events := events } := by
  intro read load
  refine ⟨fun ev env m m' message kind hread => ?_, fun ev env m m' text hread => ?_⟩
  · obtain ⟨hsame, hload⟩ := Form.readFile_eq_error hres hread
    refine ⟨hsame, fun ev env m => ?_⟩
    obtain ⟨e, herror⟩ := hload ev env m
    exact ⟨_, herror⟩
  obtain ⟨hsame, htext⟩ := Form.readFile_eq_string hres hread
  refine ⟨hsame, fun f hparse ev env m hload =>
    ⟨_, Form.loadFile_of_malformed hres htext hparse hload⟩, ?_⟩
  intro nodes hparse d d' env source m run hrun hload
  have hread := ofNodes_of_parse hparse
  cases hfault : unread? text with
  | none =>
    rw [hfault] at hread
    obtain ⟨forms, hforms⟩ := hread
    refine Or.inl ⟨forms, hforms, Form.loadFile_loads hres htext hparse hforms hrun hload, ?_⟩
    intro f hf
    have hfollows : Follows .any run run := Interpreter.runTextWith_follows
      (evaluate_follows_self host .any (fun _ => True) d) env (fun _ _ => trivial) source
    cases hstop : run m with
    | ok rs m₁ => simp [Machine.outcome, hstop] at hf
    | error fault m₁ =>
      rw [Machine.outcome_eq_of_error hstop] at hf hrun
      cases hf
      exact (hfollows.faults m _ _ hstop).resolve_left fun htoo => hrun (by rw [htoo])
  | some f =>
    have htakes : (evaluate host d').Takes text := by
      by_contra hnot
      obtain ⟨events, hstop⟩ := Form.loadFile_of_not_takes hres htext hparse hnot m
      exact hload (Machine.outcome_eq_of_error hstop)
    have hstop : run = Machine.stop (.node f) := by
      refine Eq.trans (Interpreter.runText_of_takes _
        (Interpreter.takes_of_runText hparse hrun) hparse source) ?_
      rw [Form.valuesOf_eq_stop (ofNodes_of_unread hparse hfault)]
      rfl
    exact Or.inr ⟨f, rfl, congrFun hstop m, _,
      Form.loadFile_of_unread hres htext hparse htakes hfault m⟩

/-- A file with one name that is not bound: reading gives its text, and loading prints the error. -/
theorem load_agrees_with_read_and_run_unbound :
    let host : Host := ⟨⟨[], [(["f"], .file [120])]⟩, [], .counted 1000⟩
    let m : Machine := .fresh true
    host.resolve "f" = .ok ⟨.here, ["f"]⟩ ∧
      m.outcome ((Builtin.form .read).call host (evaluate host 2) 0 [.string "f"]) =
        .ok (.string "x") ∧
      m.outcome (Interpreter.runText ⟨host, 0, 2⟩ "x" "<input>") =
        .ok [(Failure.unboundSymbol "x").toValue] ∧
      Loads (evaluate host 2) 0 m m [.symbol "x"] .unit
        (Interpreter.runText ⟨host, 0, 2⟩ "x" "<input>" m)
        ((Builtin.form .load).call host (evaluate host 2) 0 [.string "f"] m) := by
  intro host m
  have hres : host.resolve "f" = .ok ⟨.here, ["f"]⟩ := rfl
  have hread : (Builtin.form .read).call host (evaluate host 2) 0 [.string "f"] m =
      .ok (.string "x") m := by with_unfolding_all rfl
  have hparse : parse "x" = .ok [.leaf .symbol ⟨.symbol, "x", {}⟩] := by with_unfolding_all rfl
  have htakes : (evaluate host 2).Takes "x" := Evaluator.takes_of_parse hparse (by decide +kernel) rfl
  have hrun : m.outcome (Interpreter.runText ⟨host, 0, 2⟩ "x" "<input>") =
      .ok [(Failure.unboundSymbol "x").toValue] := by
    rw [Interpreter.runText_of_takes ⟨host, 0, 2⟩ htakes hparse]
    with_unfolding_all rfl
  have hload : m.outcome ((Builtin.form .load).call host (evaluate host 2) 0 [.string "f"]) =
      .ok .unit := by
    rw [Builtin.call_load, Form.loadFile_of_takes hres (by with_unfolding_all rfl) hparse htakes]
    with_unfolding_all rfl
  obtain ⟨-, htext⟩ := load_agrees_with_read_and_run hres
  obtain ⟨-, -, hloads⟩ := htext (evaluate host 2) 0 m m "x" hread
  refine ⟨hres, Machine.outcome_eq_of_ok hread, hrun, ?_⟩
  rcases hloads _ hparse 2 2 0 "<input>" m (by rw [hrun]; simp) (by rw [hload]; simp) with
    ⟨forms, hforms, hsame, -⟩ | ⟨f, -, hstop, -⟩
  · cases hforms
    exact hsame
  · rw [Machine.outcome_eq_of_error hstop] at hrun
    cases hrun

/-- A file that loads another one under a name with the null character.  The file can be read and
its text parsed, but neither running the text nor loading the file comes to an end. -/
theorem load_stops_where_run_does :
    let text := "(load \"a\\0b\")"
    let host : Host :=
      ⟨⟨[], [(["f"], .file [40, 108, 111, 97, 100, 32, 34, 97, 92, 48, 98, 34, 41])]⟩, [],
        .counted 1000⟩
    let m : Machine := .fresh true
    host.resolve "f" = .ok ⟨.here, ["f"]⟩ ∧
      m.outcome ((Builtin.form .read).call host (evaluate host 3) 0 [.string "f"]) =
        .ok (.string text) ∧
      (∃ nodes, parse text = .ok nodes) ∧
      m.outcome (Interpreter.runText ⟨host, 0, 3⟩ text "<input>") = .error .embeddedNull ∧
      m.outcome ((Builtin.form .load).call host (evaluate host 3) 0 [.string "f"]) =
        .error .embeddedNull := by
  intro text host m
  have hres : host.resolve "f" = .ok ⟨.here, ["f"]⟩ := rfl
  have htext : host.files.text ⟨.here, ["f"]⟩ = .ok text := by decide +kernel
  have hread : (Builtin.form .read).call host (evaluate host 3) 0 [.string "f"] m =
      .ok (.string text) m := by
    rw [Builtin.call_read, Form.readFile, hres]
    dsimp only
    rw [htext]
    rfl
  have hlex : lex text = ⟨[⟨.opener .round, "(", ⟨1, 1⟩⟩, ⟨.symbol, "load", ⟨1, 2⟩⟩,
      ⟨.string, "\"a\\0b\"", ⟨1, 7⟩⟩, ⟨.closer .round, ")", ⟨1, 13⟩⟩], none⟩ := by decide +kernel
  let form : Value := .sexpr [.symbol "load", .string "a\x00b"]
  have hforms : ∃ nodes, parse text = .ok nodes ∧ Value.ofNodes nodes = .ok [form] := by
    rw [parse, hlex]
    exact ⟨_, rfl, rfl⟩
  obtain ⟨nodes, hparse, hforms⟩ := hforms
  have htakes : (evaluate host 3).Takes text :=
    Evaluator.takes_of_lex rfl hlex rfl (by decide +kernel) (by decide +kernel)
  have hstop : ∀ events, evaluate host 3 form 0 { m with events := events } =
      .error .embeddedNull { m with events := events } := by
    intro events
    have hcells : ([.symbol "load", .string "a\x00b"] : List Value).mapM
        (fun c => evaluate host 2 c 0) { m with events := events } =
          .ok [.builtin (.form .load), .string "a\x00b"] { m with events := events } := by
      with_unfolding_all rfl
    have hnull : Form.loadFile host (evaluate host 2) 0 "a\x00b" = Machine.stop .embeddedNull :=
      Form.loadFile_of_stopped (Host.opening_of_null (by decide))
    change reduce host (evaluate host 2) _ 0 _ = _
    rw [reduce, EvalM.bind_of_ok hcells]
    exact congrFun hnull { m with events := events }
  refine ⟨hres, Machine.outcome_eq_of_ok hread, ⟨nodes, hparse⟩, ?_, ?_⟩
  · rw [Interpreter.runText_of_takes ⟨host, 0, 3⟩ htakes hparse, Form.valuesOf_eq_pure hforms]
    exact Machine.outcome_eq_of_error (EvalM.bind_of_error (hstop m.events) _)
  · rw [Builtin.call_load, Form.loadFile_of_takes hres htext hparse htakes,
      Form.valuesOf_eq_pure hforms, pure_bind]
    exact Machine.outcome_eq_of_error (EvalM.bind_of_error
      (EvalM.bind_of_error (hstop (m.events.push (.loading ⟨.here, ["f"]⟩))) _) _)

end CurryLisp
