/-
# Preludes and loaded files

A prelude is a text that an interpreter is given, and a file can hold the same text.  Both are
evaluated form by form and leave the same bindings, and the errors among the results are printed.
What differs is when: `load` prints an error before it goes on with the next form, and a prelude is
run to its end first.  So the errors of a prelude stand below everything that its forms print, and
where a form stops the run they are not printed at all.

* `Interpreter.printErrors_eq_printAll`: printing the errors among some results;
* `InTurn.printed`: forms print one after the other;
* `ReportsLate`: how a prelude and a load of the same forms end, and
  `Interpreter.runPrelude_reportsLate`, that they do;
* `FormRun.reported_perm`, `FormRun.reported_of_quiet`: the lines are the same but for their order,
  and the order is the same if nothing is printed after an error.

The main statement is `preludes_report_at_the_end`; in `prelude_reports_late` the order differs.
-/
import CurryLisp.Proofs.Commands
import CurryLisp.Proofs.Encoding
import CurryLisp.Proofs.Loading
import Mathlib.Data.List.Perm.Basic

namespace CurryLisp

/-! ## 1. The errors among some results -/

/-- The lines of the errors among some results. -/
def errorLines (results : List Value) : List String :=
  results.flatMap fun r => if r.isError then [r.text] else []

theorem errorLines_cons (r : Value) (rest : List Value) :
    errorLines (r :: rest) = (if r.isError then [r.text] else []) ++ errorLines rest := rfl

theorem errorLines_eq_nil {results : List Value} (h : ∀ r ∈ results, r.isError = false) :
    errorLines results = [] :=
  List.flatMap_eq_nil_iff.mpr fun r hr => by rw [h r hr]; rfl

theorem Interpreter.printErrors_eq_printAll (results : List Value) :
    printErrors results = Machine.printAll (errorLines results) := by
  induction results with
  | nil => rfl
  | cons r rest ih =>
    rw [printErrors, ih, errorLines_cons]
    cases r.isError <;> rfl

/-! ## 2. What forms print -/

section FormRuns

variable {ev : Evaluator} {env : FrameId} {m m' : Machine} {forms : List Value}
  {runs : List FormRun}

/-- Forms print one after the other. -/
theorem InTurn.printed (h : InTurn ev env m forms runs m') :
    m'.printed.toList = m.printed.toList ++ runs.flatMap FormRun.lines := by
  induction h with
  | nil => simp
  | cons _ hlines _ ih => rw [ih, hlines, List.flatMap_cons, List.append_assoc]

/-- No form prints anything after another one has given an error. -/
def FormRun.Quiet (runs : List FormRun) : Prop :=
  runs.Pairwise fun r s => r.result.isError = true → s.lines = []

/-- **Reporting errors late changes nothing but the order.** -/
theorem FormRun.reported_perm (runs : List FormRun) :
    (runs.flatMap lines ++ errorLines (runs.map result)).Perm (runs.flatMap reported) := by
  rw [errorLines, List.flatMap_map]
  exact List.flatMap_append_perm runs lines _

/-- The order is the same if nothing is printed after an error. -/
theorem FormRun.reported_of_quiet (h : Quiet runs) :
    runs.flatMap lines ++ errorLines (runs.map result) = runs.flatMap reported := by
  induction runs with
  | nil => rfl
  | cons r rest ih =>
    obtain ⟨hr, hrest⟩ := List.pairwise_cons.mp h
    rw [List.flatMap_cons, List.flatMap_cons, List.map_cons, errorLines_cons, reported, ← ih hrest]
    cases herr : r.result.isError with
    | false => simp
    | true =>
      have hsilent : rest.flatMap lines = [] :=
        List.flatMap_eq_nil_iff.mpr fun s hs => hr s hs herr
      simp [hsilent]

/-- Without errors nothing is reported but what the forms print. -/
theorem FormRun.reported_of_no_error (h : ∀ r ∈ runs, r.result.isError = false) :
    runs.flatMap lines = runs.flatMap reported := by
  refine List.flatMap_congr fun r hr => ?_
  rw [reported, h r hr]
  exact (List.append_nil _).symm

/-- How a prelude with some forms and a load of them end, both started on one machine. -/
inductive ReportsLate (ev : Evaluator) (env : FrameId) (m : Machine) (forms : List Value) :
    List FormRun → EStateM.Result Fault Machine Unit → EStateM.Result Fault Machine Value → Prop
  /-- All forms have been evaluated.  The prelude has printed the errors at the end, and the load
  each one after its form. -/
  | ok {runs : List FormRun} {done m' m'' : Machine} :
      InTurn ev env m forms runs done → m'.store = done.store → m''.store = done.store →
      m'.printed.toList =
        m.printed.toList ++ runs.flatMap FormRun.lines ++ errorLines (runs.map FormRun.result) →
      m''.printed.toList = m.printed.toList ++ runs.flatMap FormRun.reported →
      ReportsLate ev env m forms runs (.ok () m') (.ok .unit m'')
  /-- One of the forms has stopped, with the same fault in both.  The prelude has printed no error,
  and the load those of the forms before. -/
  | error {before after : List Value} {v : Value} {runs : List FormRun} {lines : List String}
      {f : Fault} {done m' m'' : Machine} :
      forms = before ++ v :: after → InTurn ev env m before runs done →
      ev v env done = .error f m' → m''.store = m'.store →
      m'.printed.toList = m.printed.toList ++ runs.flatMap FormRun.lines ++ lines →
      m''.printed.toList = m.printed.toList ++ runs.flatMap FormRun.reported ++ lines →
      ReportsLate ev env m forms runs (.error f m') (.error f m'')

end FormRuns

namespace ReportsLate

variable {ev : Evaluator} {env : FrameId} {m : Machine} {forms : List Value} {runs : List FormRun}
  {x : EvalM Unit} {y : EvalM Value}

/-- A prelude and a load leave the same bindings. -/
theorem store_eq (h : ReportsLate ev env m forms runs (x m) (y m)) :
    (m.after x).store = (m.after y).store := by
  generalize hrun₁ : x m = r₁, hrun₂ : y m = r₂ at h
  cases h with
  | ok _ hstore hstore' =>
    rw [Machine.after_eq_of_ok hrun₁, Machine.after_eq_of_ok hrun₂, hstore, hstore']
  | error _ _ _ hstore =>
    rw [Machine.after_eq_of_error hrun₁, Machine.after_eq_of_error hrun₂, hstore]

/-- What a prelude and a load have printed at their end. -/
theorem printed (h : ReportsLate ev env m forms runs (x m) (y m)) (hx : m.outcome x = .ok ()) :
    (m.after x).printed.toList = m.printed.toList ++
        (runs.flatMap FormRun.lines ++ errorLines (runs.map FormRun.result)) ∧
      (m.after y).printed.toList = m.printed.toList ++ runs.flatMap FormRun.reported := by
  generalize hrun₁ : x m = r₁, hrun₂ : y m = r₂ at h
  cases h with
  | ok _ _ _ hlines hlines' =>
    rw [Machine.after_eq_of_ok hrun₁, Machine.after_eq_of_ok hrun₂, ← List.append_assoc]
    exact ⟨hlines, hlines'⟩
  | error =>
    rw [Machine.outcome_eq_of_error hrun₁] at hx
    cases hx

/-- If there is no error to report, they have printed the same. -/
theorem printed_eq (h : ReportsLate ev env m forms runs (x m) (y m))
    (hno : ∀ r ∈ runs, r.result.isError = false) : (m.after x).printed = (m.after y).printed := by
  have hsame := FormRun.reported_of_no_error hno
  refine Array.toList_inj.mp ?_
  generalize hrun₁ : x m = r₁, hrun₂ : y m = r₂ at h
  cases h with
  | ok _ _ _ hlines hlines' =>
    have hnone : errorLines (runs.map FormRun.result) = [] :=
      errorLines_eq_nil (List.forall_mem_map.mpr hno)
    rw [Machine.after_eq_of_ok hrun₁, Machine.after_eq_of_ok hrun₂, hlines, hlines', hnone, hsame,
      List.append_nil]
  | error _ _ _ _ hlines hlines' =>
    rw [Machine.after_eq_of_error hrun₁, Machine.after_eq_of_error hrun₂, hlines, hlines', hsame]

end ReportsLate

/-! ## 3. Preludes -/

section Preludes

variable {i : Interpreter} {name text : String} {path : Path} {nodes : List Node}
  {forms : List Value}

/-- **A prelude and a load of the same text.** -/
theorem Interpreter.runPrelude_reportsLate (hres : i.host.resolve name = .ok path)
    (htext : i.host.files.text path = .ok text) (hparse : parse text = .ok nodes)
    (hforms : Value.ofNodes nodes = .ok forms) (htakes : i.evaluator.Takes text) (m : Machine) :
    ∃ runs, ReportsLate (CurryLisp.evaluate i.host i.depth) i.root m forms runs (i.runPrelude text m)
      (i.load name m) := by
  have hloads := i.load_loads hres htext hparse hforms htakes "<prelude>" m
  generalize hrun : i.runText text "<prelude>" m = r₁, i.load name m = r₂ at hloads
  rw [runPrelude]
  cases hloads with
  | @ok runs done _ hturns hsame hafter =>
    -- The errors are printed on the machine that the last form has left.
    obtain ⟨m', hall, hstore, hprinted⟩ :=
      Machine.printAll_eq (errorLines (runs.map FormRun.result)) done
    rw [EvalM.bind_of_ok hrun, printErrors_eq_printAll, hall]
    refine ⟨runs, .ok hturns hstore hsame.symm ?_ hafter⟩
    rw [hprinted, hturns.printed]
  | @error before after v runs lines f done m' m'' hsplit hturns hstop hmore hsame hafter =>
    -- The results are lost, and the errors with them.
    rw [EvalM.bind_of_error hrun]
    refine ⟨runs, .error hsplit hturns hstop hsame.symm ?_ hafter⟩
    rw [hmore, hturns.printed]

/-- What stops a prelude and a load of the same text before the first form: there are not calls
enough to come to it, or a numeral has too many digits for the host. -/
inductive StopsBoth (i : Interpreter) (text : String) : Fault → Prop
  | tooDeep : ¬ i.evaluator.Takes text → StopsBoth i text .tooDeep
  | unread {f : NodeFault} : unread? text = some f → StopsBoth i text (.node f)

/-- Before the first form, a prelude and a load stop alike or not at all. -/
theorem Interpreter.stopsBoth_or (hres : i.host.resolve name = .ok path)
    (htext : i.host.files.text path = .ok text) (hparse : parse text = .ok nodes) (m : Machine) :
    (∃ f events, StopsBoth i text f ∧ i.runPrelude text m = .error f m ∧
      i.load name m = .error f { m with events := events }) ∨
    (i.evaluator.Takes text ∧ ∃ forms, Value.ofNodes nodes = .ok forms) := by
  by_cases htakes : i.evaluator.Takes text
  · cases hfault : unread? text with
    | none => exact Or.inr ⟨htakes, exists_ofNodes_of_parse hparse hfault⟩
    | some f =>
      have hload : i.load name m = _ :=
        Form.loadFile_of_unread hres htext hparse htakes hfault m
      refine Or.inl ⟨.node f, _, .unread hfault, ?_, hload⟩
      rw [runPrelude, i.runText_of_takes htakes hparse,
        Form.valuesOf_eq_stop (ofNodes_of_unread hparse hfault)]
      rfl
  · obtain ⟨events, hload⟩ : ∃ events, i.load name m = .error .tooDeep { m with events := events } :=
      Form.loadFile_of_not_takes hres htext hparse htakes m
    refine Or.inl ⟨.tooDeep, events, .tooDeep htakes, ?_, hload⟩
    rw [runPrelude, i.runText_of_not_takes htakes hparse]
    rfl

/-- A file that holds a text gives it back, unless a carriage return in it is taken for the end of a
line. -/
theorem Host.text_of_encoded {host : Host} (hnull : '\x00' ∉ name.toList)
    (hres : host.resolve name = .ok path) (hfile : host.files.bytes path = .ok (Text.encoded text))
    (hreturn : '\r' ∉ text.toList) : host.files.text path = .ok text := by
  rw [FileTree.text, holdsNull_of_resolve hnull hres, if_neg Bool.false_ne_true, hfile]
  dsimp only
  rw [Text.textOfBytes_encoded hreturn]

end Preludes

/-! ## 4. The theorem -/

/-- **Preludes report at the end.**

Take an interpreter, a machine in any state, a text without carriage returns that can be parsed, and
a name for which the search finds a file that holds the text.  Run the text as a prelude, or load
the file.

1. Both leave the same bindings.
2. Both may stop before the first form, with the same fault and with nothing printed: there are not
   calls enough to come to the forms, or a numeral has too many digits.
3. Otherwise, either all forms are evaluated, one after the other: the prelude has printed what the
   forms print and then the line of each error, and the load has printed the line of an error right
   after what its form prints.  Or both stop at the same form with the same fault: the prelude has
   printed what the forms print and no error, and the load the errors of the forms before.
4. If all forms are evaluated, the lines are the same but for their order, and the order is the same
   if no form prints anything after another one has given an error.
5. If none of the forms that are evaluated gives an error, the same is printed in any case. -/
theorem preludes_report_at_the_end {i : Interpreter} {name text : String} {path : Path}
    {nodes : List Node} (hnull : '\x00' ∉ name.toList) (hres : i.host.resolve name = .ok path)
    (hfile : i.host.files.bytes path = .ok (Text.encoded text)) (hreturn : '\r' ∉ text.toList)
    (hparse : parse text = .ok nodes) (m : Machine) :
    let prelude := m.after (i.runPrelude text)
    let load := m.after (i.load name)
    prelude.store = load.store ∧
      ((∃ f, StopsBoth i text f ∧ m.outcome (i.runPrelude text) = .error f ∧
        m.outcome (i.load name) = .error f ∧ prelude.store = m.store ∧
        prelude.printed = m.printed ∧ load.printed = m.printed) ∨
      ∃ forms runs, Value.ofNodes nodes = .ok forms ∧
        ReportsLate (evaluate i.host i.depth) i.root m forms runs (i.runPrelude text m)
          (i.load name m) ∧
        (m.outcome (i.runPrelude text) = .ok () →
          prelude.printed.toList.Perm load.printed.toList ∧
            (FormRun.Quiet runs → prelude.printed = load.printed)) ∧
        ((∀ r ∈ runs, r.result.isError = false) → prelude.printed = load.printed)) := by
  intro prelude load
  have htext := Host.text_of_encoded hnull hres hfile hreturn
  rcases Interpreter.stopsBoth_or hres htext hparse m with
    ⟨f, events, hboth, hprelude, hload⟩ | ⟨htakes, forms, hforms⟩
  · have hafter : prelude = m := Machine.after_eq_of_error hprelude
    have hafter' : load = { m with events := events } := Machine.after_eq_of_error hload
    rw [hafter, hafter']
    exact ⟨rfl, Or.inl ⟨f, hboth, Machine.outcome_eq_of_error hprelude,
      Machine.outcome_eq_of_error hload, rfl, rfl, rfl⟩⟩
  · obtain ⟨runs, hreports⟩ := i.runPrelude_reportsLate hres htext hparse hforms htakes m
    refine ⟨hreports.store_eq, Or.inr
      ⟨forms, runs, hforms, hreports, fun hok => ?_, hreports.printed_eq⟩⟩
    obtain ⟨hprelude, hload⟩ := hreports.printed hok
    rw [hprelude, hload]
    refine ⟨(FormRun.reported_perm runs).append_left _, fun hquiet => Array.toList_inj.mp ?_⟩
    rw [hprelude, hload, FormRun.reported_of_quiet hquiet]

/-- A text with one name that is not bound: its error is the last line in either case. -/
theorem preludes_report_at_the_end_unbound :
    let text := "x"
    let i : Interpreter := ⟨⟨⟨[], [(["f"], .file [120])]⟩, [], .counted 1000⟩, 0, 2⟩
    let m : Machine := .fresh true
    i.host.resolve "f" = .ok ⟨.here, ["f"]⟩ ∧
      i.host.files.bytes ⟨.here, ["f"]⟩ = .ok (Text.encoded text) ∧
      m.outcome (i.runPrelude text) = .ok () ∧
      (m.after (i.runPrelude text)).printed = #["error: unbound symbol: x"] ∧
      (m.after (i.runPrelude text)).printed = (m.after (i.load "f")).printed := by
  intro text i m
  have hres : i.host.resolve "f" = .ok ⟨.here, ["f"]⟩ := rfl
  have hfile : i.host.files.bytes ⟨.here, ["f"]⟩ = .ok (Text.encoded text) := by decide +kernel
  have hparse : parse "x" = .ok [.leaf .symbol ⟨.symbol, "x", {}⟩] := by with_unfolding_all rfl
  have hok : m.outcome (i.runPrelude text) = .ok () := by decide +kernel
  have hprinted : (m.after (i.runPrelude text)).printed = #["error: unbound symbol: x"] := by
    decide +kernel
  obtain ⟨-, ⟨f, -, hstop, -⟩ | ⟨forms, runs, hforms, hreports, hquiet, -⟩⟩ :=
    preludes_report_at_the_end (by decide) hres hfile (by decide) hparse m
  · rw [hok] at hstop
    cases hstop
  cases hforms
  have hone : FormRun.Quiet runs := by
    generalize hrun : i.runPrelude text m = r₁, i.load "f" m = r₂ at hreports
    cases hreports with
    | ok hturns =>
      cases hturns with
      | cons _ _ hrest =>
        cases hrest
        exact List.pairwise_singleton _ _
    | error =>
      rw [Machine.outcome_eq_of_error hrun] at hok
      cases hok
  exact ⟨hres, hfile, hok, hprinted, (hquiet hok).2 hone⟩

/-- A text whose first form is an error and whose second form prints something: loaded from a file,
it prints the error first, and as a prelude last. -/
theorem prelude_reports_late :
    let text := "x (print 1)"
    let i : Interpreter :=
      ⟨⟨⟨[], [(["f"], .file [120, 32, 40, 112, 114, 105, 110, 116, 32, 49, 41])]⟩, [],
        .counted 1000⟩, 0, 3⟩
    let m : Machine := .fresh true
    '\x00' ∉ "f".toList ∧ i.host.resolve "f" = .ok ⟨.here, ["f"]⟩ ∧
      i.host.files.bytes ⟨.here, ["f"]⟩ = .ok (Text.encoded text) ∧ '\r' ∉ text.toList ∧
      (∃ nodes, parse text = .ok nodes) ∧
      m.outcome (i.runPrelude text) = .ok () ∧
      (m.outcome (i.load "f")).isOk = true ∧
      (m.after (i.runPrelude text)).printed = #["1", "error: unbound symbol: x"] ∧
      (m.after (i.load "f")).printed = #["error: unbound symbol: x", "1"] := by
  intro text i m
  have hlex : lex text = ⟨[⟨.symbol, "x", ⟨1, 1⟩⟩, ⟨.opener .round, "(", ⟨1, 3⟩⟩,
      ⟨.symbol, "print", ⟨1, 4⟩⟩, ⟨.number, "1", ⟨1, 10⟩⟩, ⟨.closer .round, ")", ⟨1, 11⟩⟩], none⟩ := by
    decide +kernel
  have hparse : ∃ nodes, parse text = .ok nodes := by
    rw [parse, hlex]
    exact ⟨_, rfl⟩
  exact ⟨by decide, rfl, by decide +kernel, by decide, hparse, by decide +kernel, by decide +kernel,
    by decide +kernel, by decide +kernel⟩

end CurryLisp
