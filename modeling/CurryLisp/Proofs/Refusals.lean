/-
# What is refused leaves no trace

A builtin that binds names, prints or reads files looks at everything that it is given before it
does anything, and a file is read to its end before its first form is evaluated.  So a call that
answers with an error has bound nothing and printed nothing.  Nor has it evaluated anything: with
any other evaluator that has as many calls left it would have ended the same.  All that it may have
done is to report a file that is of no use.

Two forms are left out: what `eval` and `if` answer is what the evaluation gives that they start.

* `LeavesNoTrace`: what is said of a call, and `Form.leavesNoTrace`, that it holds of the forms;
* `Form.loadFile_eq_ok`: how loading a file can end.

The main statement is `refused_calls_leave_no_trace`.
-/
import CurryLisp.Proofs.Files
import CurryLisp.Proofs.Reports
import CurryLisp.Proofs.Session

namespace CurryLisp

/-! ## 1. Computations that give no error -/

/-- A computation gives no error. -/
def GivesNoError (x : EvalM Value) : Prop := ∀ m r m', x m = .ok r m' → r.isError = false

theorem GivesNoError.pure {v : Value} (hv : v.isError = false) : GivesNoError (pure v) := by
  intro m r m' h
  cases h
  exact hv

theorem GivesNoError.stop (f : Fault) : GivesNoError (Machine.stop f) := by
  intro m r m' h
  cases h

/-- What comes last decides. -/
theorem GivesNoError.bind {α : Type} (x : EvalM α) {f : α → EvalM Value}
    (hf : ∀ a, GivesNoError (f a)) : GivesNoError (x >>= f) := by
  intro m r m' h
  obtain ⟨a, m₁, -, hlast⟩ := EvalM.bind_eq_ok.mp h
  exact hf a m₁ r m' hlast

/-- Making a function does not fail. -/
theorem Form.close_givesNoError (env : FrameId) (f : Formals) (body : List Value) :
    GivesNoError (close env f body) :=
  .bind _ fun _ => .pure rfl

/-! ## 2. Computations that leave no trace -/

/-- An evaluator has at least as many calls left as another one. -/
def Evaluator.AllowsAll (ev ev' : Evaluator) : Prop :=
  ∀ w, ev'.allows w = true → ev.allows w = true

/-- A computation that may use an evaluator leaves no trace when it gives an error: it has bound and
printed nothing, and any other evaluator with as many calls left would have done as well. -/
def LeavesNoTrace (call : Evaluator → EvalM Value) : Prop :=
  ∀ ev m r m', call ev m = .ok r m' → r.isError = true →
    m'.SameButReports m ∧ ∀ ev', ev'.AllowsAll ev → call ev' m = .ok r m'

namespace LeavesNoTrace

theorem of_givesNoError {call : Evaluator → EvalM Value} (h : ∀ ev, GivesNoError (call ev)) :
    LeavesNoTrace call := by
  intro ev m r m' hcall hr
  rw [h ev m r m' hcall] at hr
  cases hr

theorem pure (v : Value) : LeavesNoTrace fun _ => Pure.pure v := by
  intro ev m r m' h _
  cases h
  exact ⟨.refl m, fun _ _ => rfl⟩

/-- Something is reported and refused. -/
theorem refused (e : Event) (v : Value) :
    LeavesNoTrace fun _ => do
      Machine.note e
      return v := by
  intro ev m r m' h _
  cases h
  exact ⟨.note e (.refl m), fun _ _ => rfl⟩

theorem stop (f : Fault) : LeavesNoTrace fun _ => Machine.stop f := by
  intro ev m r m' h
  cases h

/-- Something is gone through first. -/
theorem walk (walks : List Walk) {next : Evaluator → EvalM Value} (h : LeavesNoTrace next) :
    LeavesNoTrace (fun ev => do ev.walk walks; next ev) := by
  intro ev m r m' hcall hr
  dsimp only at hcall ⊢
  obtain ⟨hall, hdone⟩ | hstop := ev.walk_cases walks
  · rw [hdone] at hcall
    obtain ⟨hsame, hany⟩ := h ev m r m' hcall hr
    refine ⟨hsame, fun ev' hev' => ?_⟩
    rw [Evaluator.walk_of_allows fun w hw => hev' w (hall w hw)]
    exact hany ev' hev'
  · rw [hstop] at hcall
    cases hcall

/-- A check that fails leaves no trace. -/
theorem orElseFail {α : Type} (r : Except Failure α) {next : Evaluator → α → EvalM Value}
    (h : ∀ a, LeavesNoTrace fun ev => next ev a) :
    LeavesNoTrace fun ev => Value.orElseFail r (next ev) := by
  cases r with
  | ok a => exact h a
  | error f => exact pure f.toValue

end LeavesNoTrace

/-! ## 3. Files -/

namespace Form

variable (host : Host) (env : FrameId) (name : String)

/-- **Loading a file ends in one of two ways**: its name has come to nothing that can be evaluated
and that is the answer, or its forms are evaluated and there is no answer. -/
theorem loadFile_eq_ok {ev : Evaluator} {m m' : Machine} {r : Value}
    (h : loadFile host ev env name m = .ok r m') :
    (∃ e reason, host.opening name = .refused e reason ∧
      r = (Failure.notLoaded name reason).toValue ∧ m' = { m with events := m.events.push e }) ∨
    ∃ path forms, host.opening name = .ready path forms ∧ r = .unit := by
  rw [loadFile_eq] at h
  rcases ev.walk_cases (parseWalks (host.sourceOf name)) with ⟨-, hdone⟩ | hstop
  swap
  · rw [hstop] at h
    cases h
  rw [hdone, pure_bind] at h
  cases hopen : host.opening name with
  | stopped f =>
    rw [hopen] at h
    cases h
  | refused e reason =>
    rw [hopen] at h
    cases h
    exact Or.inl ⟨e, reason, rfl, rfl, rfl⟩
  | unread path f =>
    rw [hopen] at h
    obtain ⟨_, m₁, -, h⟩ := EvalM.bind_eq_ok.mp h
    obtain ⟨_, m₂, -, h⟩ := EvalM.bind_eq_ok.mp h
    cases h
  | ready path forms =>
    rw [hopen] at h
    obtain ⟨_, m₁, -, h⟩ := EvalM.bind_eq_ok.mp h
    obtain ⟨_, m₂, -, h⟩ := EvalM.bind_eq_ok.mp h
    obtain ⟨_, m₃, -, h⟩ := EvalM.bind_eq_ok.mp h
    cases h
    exact Or.inr ⟨path, forms, rfl, rfl⟩

theorem loadFile_leavesNoTrace : LeavesNoTrace fun ev => loadFile host ev env name := by
  simp only [loadFile_eq]
  split
  · exact .walk _ (.stop _)
  · exact .walk _ (.refused _ _)
  · exact .of_givesNoError fun _ => .bind _ fun _ => .bind _ fun _ => .bind _ fun _ => .stop _
  · exact .of_givesNoError fun _ =>
      .bind _ fun _ => .bind _ fun _ => .bind _ fun _ => .bind _ fun _ => .pure rfl

theorem readFile_leavesNoTrace : LeavesNoTrace fun _ => readFile host name := by
  by_cases hnull : '\x00' ∈ name.toList
  · rw [readFile_of_null hnull]
    exact .stop _
  · obtain ⟨v, hread, -⟩ := readFile_eq_pure host hnull
    rw [hread]
    exact .pure v

/-- **A form that is refused leaves no trace**, unless it starts an evaluation and passes its result
on. -/
theorem leavesNoTrace {f : Form} (heval : f ≠ .eval) (hbranch : f ≠ .branch) (args : List Value) :
    LeavesNoTrace fun ev => f.run host ev env args := by
  cases f with
  | eval => exact absurd rfl heval
  | branch => exact absurd rfl hbranch
  | define | assign =>
    exact .orElseFail _ fun more => .of_givesNoError fun _ => .bind _ fun _ => .pure rfl
  | lambda =>
    exact .orElseFail _ fun (formals, body) =>
      .of_givesNoError fun _ => close_givesNoError env formals body
  | function =>
    exact .orElseFail _ fun (name, formals, body) =>
      .of_givesNoError fun _ => .bind _ fun _ => .bind _ fun _ => .pure rfl
  | print => exact .of_givesNoError fun _ => .bind _ fun _ => .pure rfl
  | load => exact .orElseFail _ fun name => loadFile_leavesNoTrace host env name
  | read => exact .orElseFail _ fun name => readFile_leavesNoTrace host name

end Form

/-! ## 4. Refused calls -/

/-- **What is refused leaves no trace.**

* A builtin other than `eval` and `if` that answers with an error has changed no frame and printed
  nothing, and it has evaluated nothing: any other evaluator with as many calls left would have done
  as well.
* A load that ends either has found nothing to evaluate, and answers why, or has evaluated the forms
  of the file, and answers with the empty list, whatever the forms have come to.  A file with an
  error of syntax anywhere has nothing to evaluate.
* A text with an error of syntax anywhere gives that error and leaves everything as it is.  If it is
  nested too deeply to be parsed, it stops, and leaves everything as it is too. -/
theorem refused_calls_leave_no_trace (host : Host) :
    (∀ (b : Builtin) env args, b ≠ .form .eval → b ≠ .form .branch →
      ∀ ev m r m', b.call host ev env args m = .ok r m' → r.isError = true →
        m'.store = m.store ∧ m'.printed = m.printed ∧
        ∀ ev', ev'.AllowsAll ev → b.call host ev' env args m = .ok r m') ∧
    (∀ ev env name m r m', Form.loadFile host ev env name m = .ok r m' →
      (∃ e reason, host.opening name = .refused e reason ∧
        r = (Failure.notLoaded name reason).toValue ∧ m' = { m with events := m.events.push e }) ∨
      ∃ path forms, host.opening name = .ready path forms ∧ r = .unit) ∧
    (∀ name path source f, host.resolve name = .ok path → host.files.text path = .ok source →
      parse source = .error f →
      host.opening name = .refused (.malformed path f) (.malformed path.text f)) ∧
    ∀ root depth source name f m, parse source = .error f →
      let e : Value := .error (Failure.malformedSource name f).message .parseFailure
      let i : Interpreter := ⟨host, root, depth⟩
      (i.evaluator.allows (.parsing source) = true →
        i.perform (.eval source name) m = .ok [e] m ∧
          i.perform (.run source name) m = .ok [e] m) ∧
      (i.evaluator.allows (.parsing source) = false →
        i.perform (.eval source name) m = .error .tooDeep m ∧
          i.perform (.run source name) m = .error .tooDeep m) := by
  refine ⟨?_, fun ev env name m r m' => Form.loadFile_eq_ok host env name, ?_, ?_⟩
  · intro b env args heval hbranch ev m r m' hcall hr
    have hb : LeavesNoTrace fun ev => b.call host ev env args := by
      cases b with
      | operator o =>
        unfold Builtin.call
        dsimp only
        split
        · exact .stop _
        · exact .pure _
      | form f =>
        have heval' : f ≠ .eval := fun h => heval (h ▸ rfl)
        have hbranch' : f ≠ .branch := fun h => hbranch (h ▸ rfl)
        exact Form.leavesNoTrace host env heval' hbranch' args
    obtain ⟨hsame, hany⟩ := hb ev m r m' hcall hr
    exact ⟨hsame.store, hsame.printed, hany⟩
  · intro name path source f hres htext hparse
    rw [Host.opening, hres]
    dsimp only
    rw [htext]
    dsimp only
    rw [hparse]
  · intro root depth source name f m hparse e i
    rw [Interpreter.perform, Interpreter.perform, Interpreter.evalText, Interpreter.runText, hparse]
    refine ⟨fun hcalls => ?_, fun hcalls => ?_⟩
    · rw [Evaluator.walk_single hcalls]
      exact ⟨rfl, rfl⟩
    · rw [Evaluator.walk_single_of_not hcalls]
      exact ⟨rfl, rfl⟩

/-- One value for two names binds neither, and a bracket too many at the end undoes a whole file. -/
theorem refused_calls_leave_no_trace_def :
    let define : Builtin := .form .define
    let names : Value := .qexpr [.symbol "x", .symbol "y"]
    let m : Machine := .fresh false
    let host : Host := ⟨⟨[], [(["f"], .file [49, 41])]⟩, [], .counted 1000⟩
    let stray : SyntaxFault := ⟨.strayCloser .round, ⟨1, 2⟩⟩
    m.outcome (define.call host (evaluate host 2) 0 [names, .number 1]) =
      .ok (Failure.arity "def" (.exactly 3) 2).toValue ∧
    (m.after (define.call host (evaluate host 2) 0 [names, .number 1])).store = m.store ∧
    parse "1)" = .error stray ∧
    host.opening "f" = .refused (.malformed ⟨.here, ["f"]⟩ stray) (.malformed "f" stray) := by
  intro define names m host stray
  obtain ⟨hcalls, -, hmalformed, -⟩ := refused_calls_leave_no_trace host
  have hcall : define.call host (evaluate host 2) 0 [names, .number 1] m =
      .ok (Failure.arity "def" (.exactly 3) 2).toValue m := by
    rfl
  have hparse : parse "1)" = .error stray := by
    with_unfolding_all rfl
  have hsame := (hcalls define 0 _ (by decide) (by decide) _ m _ m hcall rfl).1
  have hopen := hmalformed "f" ⟨.here, ["f"]⟩ "1)" stray rfl rfl hparse
  refine ⟨?_, ?_, hparse, hopen⟩
  · rw [Machine.outcome, hcall]
  · rw [Machine.after_eq_of_ok hcall, hsame]

end CurryLisp
