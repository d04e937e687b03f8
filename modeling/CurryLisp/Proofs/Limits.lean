/-
# Limits only cut off

How deep evaluation may nest is settled by a limit when an interpreter is made, and with it how deep
a text, a tree or a value may be nested that is gone through.  A limit decides nothing but where
evaluation stops.  What ends without reaching it ends with the same value, the same lines printed and
the same bindings in every frame under any larger limit, and so does a whole session.

Two programs with different limits have different surroundings, since the limit is a setting and
there is a usual one.  This is the only difference that there may be: the settings say also where
files are looked for.

* `Host.SameButLimit.evaluate_follows`: evaluation looks at no limit but the depth it is given;
* `Form.loadFile_tooDeep`: a load for which there are not calls enough has no answer;
* `Turn.Within`, `Machine.transcript_within`: one turn after the other;
* `Interpreter.make_of_limit`: how the limit settles the depth.

The main statement is `limits_only_cut_off`.
-/
import CurryLisp.Proofs.Depth
import CurryLisp.Proofs.UnusedNames
import Mathlib.Data.List.Forall2

namespace CurryLisp

/-! ## 1. Surroundings with other limits -/

namespace Host

/-- The name of the variable that sets the limit. -/
def limitName : String := "JLISP_RECURSION_LIMIT"

/-- Surroundings with the same files, which differ in no setting but the limit.  The same limit lets
evaluation nest as deep in both, but the usual limits may differ. -/
structure SameButLimit (h h' : Host) : Prop where
  files : h.files = h'.files
  settings : ∀ name, name ≠ limitName → h.setting? name = h'.setting? name
  nesting : h.calls.nesting = h'.calls.nesting
  allows : h.calls.allows = h'.calls.allows

namespace SameButLimit

variable {h h' : Host}

/-- Setting the limit, whatever it was, gives such surroundings. -/
theorem of_limit (h : Host) (limit : String) :
    h.SameButLimit { h with settings := (limitName, limit) :: h.settings } where
  files := rfl
  settings name hname := by simp [setting?, List.lookup_cons, beq_false_of_ne hname]
  nesting := rfl
  allows := rfl

theorem sameFiles (hh : h.SameButLimit h') : h.SameFiles h' :=
  .of_setting hh.files (hh.settings "JLISP_PATH" (by decide))

theorem extendedByDefault_eq (hh : h.SameButLimit h') :
    h.extendedByDefault = h'.extendedByDefault := by
  simp only [extendedByDefault, trimmed, hh.settings "JLISP_EXTENDED" (by decide)]

/-- **Evaluation looks at no limit** but the depth it is given: with more depth left, evaluation in
the other surroundings follows. -/
theorem evaluate_follows (hh : h.SameButLimit h') {d d' : Nat} (hd : d ≤ d') :
    EvaluatorFollows h .any (fun _ => True) (evaluate h d) (evaluate h' d') :=
  CurryLisp.evaluate_follows hh.sameFiles hh.allows _ hd

theorem perform_follows (hh : h.SameButLimit h') {d d' : Nat} (hd : d ≤ d') (root : FrameId)
    (s : Step) :
    Follows .any (Interpreter.perform ⟨h, root, d⟩ s) (Interpreter.perform ⟨h', root, d'⟩ s) := by
  rw [Interpreter.perform_eq_performWith, Interpreter.perform_eq_performWith]
  exact Interpreter.performWith_follows hh.sameFiles (hh.evaluate_follows hd) root s
    fun _ _ _ _ => trivial

end SameButLimit

end Host

/-- **Loading a file does not answer where it lacks the calls** to parse the text or to read it. -/
theorem Form.loadFile_tooDeep {host : Host} {ev : Evaluator} {name source : String} {path : Path}
    (hres : host.resolve name = .ok path) (htext : host.files.text path = .ok source)
    (htakes : ¬ ev.Takes source) (env : FrameId) (m : Machine) :
    m.outcome (loadFile host ev env name) = .error .tooDeep := by
  cases hparse : parse source with
  | ok nodes =>
    obtain ⟨events, hstop⟩ := loadFile_of_not_takes hres htext hparse htakes m
    exact Machine.outcome_eq_of_error hstop
  | error f =>
    have hparsing : ev.allows (.parsing source) = false := by
      refine Bool.eq_false_iff.mpr fun hallows => htakes ⟨hallows, fun nodes hnodes => ?_⟩
      rw [hparse] at hnodes
      cases hnodes
    rw [loadFile, hres]
    dsimp only
    rw [htext]
    dsimp only
    rw [loadText, Evaluator.walk_single_of_not hparsing]
    rfl

/-! ## 2. Sessions -/

/-- The same turn with as much depth left or more. -/
structure Turn.Within (t t' : Turn) : Prop where
  host : t.host.SameButLimit t'.host
  depth : t.depth ≤ t'.depth
  step : t.step = t'.step

theorem Turn.Within.follows {t t' : Turn} (h : t.Within t') (root : FrameId) :
    Follows .any (t.run root) (t'.run root) := by
  rw [Turn.run, Turn.run, ← h.step]
  exact h.host.perform_follows h.depth root t.step

/-- **Turn after turn**, a session shows and leaves behind the same. -/
theorem Machine.transcript_within {root : FrameId} {turns turns' : List Turn}
    (h : List.Forall₂ Turn.Within turns turns') {m : Machine}
    (hturns : ∀ seen ∈ m.transcript root turns, seen.1 ≠ .error .tooDeep) :
    m.transcript root turns' = m.transcript root turns ∧
      m.afterTurns root turns' = m.afterTurns root turns := by
  induction h generalizing m with
  | nil => exact ⟨rfl, rfl⟩
  | @cons t t' rest rest' ht _ ih =>
    have hsame : t'.run root m = t.run root m := (ht.follows root).eq (hturns _ List.mem_cons_self)
    obtain ⟨hout, hafter⟩ := Machine.run_congr hsame
    obtain ⟨htail, hlast⟩ := ih fun seen hseen => hturns seen (List.mem_cons_of_mem _ hseen)
    rw [transcript, transcript, afterTurns, afterTurns, hout, hafter, htail, hlast]
    exact ⟨rfl, rfl⟩

/-! ## 3. Making an interpreter -/

/-- The limit that holds for an interpreter that is made in these surroundings. -/
def Host.limit? (h : Host) : Option Nat :=
  match h.recursionLimit with
  | .error _ => none
  | .ok asked => h.effectiveLimit asked

/-- A limit that holds settles the depth. -/
theorem Host.settledDepth_of_limit {h : Host} {limit : Nat} (hlimit : h.limit? = some limit) :
    h.settledDepth = .ok (h.calls.nesting limit) := by
  unfold limit? at hlimit
  unfold settledDepth
  cases hasked : h.recursionLimit with
  | error text => simp [hasked] at hlimit
  | ok asked =>
    rw [hasked] at hlimit
    simp only [hlimit]

/-- With a limit that holds, an interpreter comes to its prelude. -/
theorem Interpreter.make_of_limit {host : Host} {limit : Nat} (h : host.limit? = some limit)
    (extended : Option Bool) (prelude : String) :
    make host extended prelude {} = begin ⟨host, 0, host.calls.nesting limit⟩ prelude
      (.fresh (extended.getD host.extendedByDefault)) := by
  rw [make_eq, Host.settledDepth_of_limit h]

/-- The prelude of an interpreter with a larger limit follows. -/
theorem Interpreter.runPrelude_follows {h h' : Host} (hh : h.SameButLimit h') {d d' : Nat}
    (hd : d ≤ d') (root : FrameId) (prelude : String) :
    Follows .any (runPrelude ⟨h, root, d⟩ prelude) (runPrelude ⟨h', root, d'⟩ prelude) :=
  runPreludeWith_follows (hh.evaluate_follows hd) root fun _ _ => trivial

/-- The last thing that is done when an interpreter is made is the same too. -/
theorem Interpreter.begin_within {h h' : Host} (hh : h.SameButLimit h') {d d' : Nat} (hd : d ≤ d')
    (root : FrameId) (prelude : String) (m : Machine) :
    (∀ i m', begin ⟨h, root, d⟩ prelude m = .ok i m' →
      i = ⟨h, root, d⟩ ∧ begin ⟨h', root, d'⟩ prelude m = .ok ⟨h', root, d'⟩ m') ∧
    ∀ f m', begin ⟨h, root, d⟩ prelude m = .error f m' → f ≠ .tooDeep →
      begin ⟨h', root, d'⟩ prelude m = .error f m' := by
  by_cases hempty : prelude = ""
  · subst hempty
    refine ⟨fun i m' hrun => ?_, fun f m' hrun _ => ?_⟩ <;> cases hrun
    exact ⟨rfl, rfl⟩
  have hbegin : ∀ i : Interpreter, begin i prelude = i.runPrelude prelude >>= fun _ => pure i := by
    intro i
    simp [begin, hempty]
  rw [hbegin, hbegin]
  refine ⟨fun i m' hrun => ?_, fun f m' hrun hf => ?_⟩
  · obtain ⟨u, m₁, hprelude, hrest⟩ := EvalM.bind_eq_ok.mp hrun
    cases hrest
    have hsame := (runPrelude_follows hh hd root prelude).eq (m := m)
      (by simp [Machine.outcome_eq_of_ok hprelude])
    exact ⟨rfl, EvalM.bind_of_ok (hsame.trans hprelude) _⟩
  · rcases EvalM.bind_eq_error.mp hrun with hprelude | ⟨u, m₁, -, hrest⟩
    · have hsame := (runPrelude_follows hh hd root prelude).eq (m := m)
        (by simpa [Machine.outcome_eq_of_error hprelude] using hf)
      exact EvalM.bind_of_error (hsame.trans hprelude) _
    · cases hrest

/-! ## 4. The theorem -/

/-- **Limits only cut off.**

Take surroundings that differ in nothing but the limit.

1. On any machine, an evaluation, a call and a step of a session, of a text or a file, that is not
   nested too deeply for some depth does the same for any greater depth: it gives the same value, or
   stops with the same fault, and leaves the same machine behind, with all that is printed and
   bound.
2. So does a whole session, turn after turn.
3. A load that lacks the calls to parse the text of its file, or to read it, has no answer, with
   which a program could go on.
4. An interpreter that can be made with some limit can be made with a larger one, with the same
   machine, and no less depth. -/
theorem limits_only_cut_off {h h' : Host} (hh : h.SameButLimit h') :
    (∀ d d', d ≤ d' → ∀ m : Machine,
      (∀ v e, m.outcome (evaluate h d v e) ≠ .error .tooDeep →
        evaluate h' d' v e m = evaluate h d v e m) ∧
      (∀ head args e, m.outcome (apply h (evaluate h d) head args e) ≠ .error .tooDeep →
        apply h' (evaluate h' d') head args e m = apply h (evaluate h d) head args e m) ∧
      ∀ root s, m.outcome (Interpreter.perform ⟨h, root, d⟩ s) ≠ .error .tooDeep →
        Interpreter.perform ⟨h', root, d'⟩ s m = Interpreter.perform ⟨h, root, d⟩ s m) ∧
    (∀ root turns turns', List.Forall₂ Turn.Within turns turns' → ∀ m : Machine,
      (∀ seen ∈ m.transcript root turns, seen.1 ≠ .error .tooDeep) →
      m.transcript root turns' = m.transcript root turns ∧
        m.afterTurns root turns' = m.afterTurns root turns) ∧
    (∀ d name path source, h.resolve name = .ok path → h.files.text path = .ok source →
      ¬ (evaluate h d).Takes source → ∀ e (m : Machine),
        m.outcome (apply h (evaluate h d) (.builtin (.form .load)) [.string name] e) =
          .error .tooDeep) ∧
    ∀ limit limit', h.limit? = some limit → h'.limit? = some limit' → limit ≤ limit' →
      h.calls.nesting limit ≤ h'.calls.nesting limit' ∧ ∀ extended prelude,
        (∀ i m, Interpreter.make h extended prelude {} = .ok i m →
          i = ⟨h, 0, h.calls.nesting limit⟩ ∧
          Interpreter.make h' extended prelude {} = .ok ⟨h', 0, h'.calls.nesting limit'⟩ m) ∧
        ∀ f m, Interpreter.make h extended prelude {} = .error f m → f ≠ .tooDeep →
          Interpreter.make h' extended prelude {} = .error f m := by
  refine ⟨fun d d' hd m => ⟨?_, ?_, ?_⟩, fun root turns turns' hturns m => ?_, ?_, ?_⟩
  · exact fun v e hrun => ((hh.evaluate_follows hd).eval v e).eq hrun
  · exact fun head args e hrun =>
      (apply_follows hh.sameFiles (hh.evaluate_follows hd) head args e).eq hrun
  · exact fun root s hrun => (hh.perform_follows hd root s).eq hrun
  · exact Machine.transcript_within hturns
  · exact fun d name path source hres htext htakes e m =>
      Form.loadFile_tooDeep hres htext htakes e m
  · intro limit limit' hlimit hlimit' hle
    have hd : h.calls.nesting limit ≤ h'.calls.nesting limit' := by
      rw [← hh.nesting]
      exact h.calls.nesting_mono hle
    refine ⟨hd, fun extended prelude => ?_⟩
    rw [Interpreter.make_of_limit hlimit, Interpreter.make_of_limit hlimit',
      hh.extendedByDefault_eq]
    exact Interpreter.begin_within hh hd 0 prelude _

/-- A file whose brackets are nested four deep.  With two levels it is not parsed, and the load has
no answer; with six it is loaded, and so it is with the three thousand that a limit of nine thousand
allows. -/
theorem limits_only_cut_off_nested :
    let h : Host := ⟨⟨[], [(["f"], .file "((((1))))".toUTF8.toList)]⟩, [], .counted 1000⟩
    let h' : Host := { h with settings := [(Host.limitName, "9000")] }
    let m : Machine := .fresh false
    let load : Value := .sexpr [.symbol "load", .string "f"]
    let shown (host : Host) (d : Nat) := (m.outcome (evaluate host d load 0)).map Value.text
    h.SameButLimit h' ∧ h.limit? = some 1000 ∧ h'.limit? = some 9000 ∧
      Interpreter.make h' none "" {} = .ok ⟨h', 0, 3000⟩ m ∧
      shown h 2 = .error .tooDeep ∧ shown h 6 = .ok "()" ∧ shown h' 3000 = .ok "()" := by
  intro h h' m load shown
  have hh : h.SameButLimit h' := .of_limit h "9000"
  have hlimit : h.limit? = some 1000 := by decide +kernel
  have hlimit' : h'.limit? = some 9000 := by decide +kernel
  have htwo : shown h 2 = .error .tooDeep := by decide +kernel
  have hsix : shown h 6 = .ok "()" := by decide +kernel
  obtain ⟨hruns, -, -, hmade⟩ := limits_only_cut_off hh
  obtain ⟨heval, -, -⟩ := hruns 6 3000 (by omega) m
  obtain ⟨-, hmake⟩ := hmade 1000 9000 hlimit hlimit' (by omega)
  obtain ⟨hmake, -⟩ := hmake none ""
  have hcore : h.extendedByDefault = false := by decide +kernel
  have hfresh : Interpreter.make h none "" {} = .ok ⟨h, 0, h.calls.nesting 1000⟩ m := by
    rw [Interpreter.make_of_limit hlimit, Option.getD_none, hcore]
    rfl
  have hdone : m.outcome (evaluate h 6 load 0) ≠ .error .tooDeep := fun hstop => by
    have hshown : shown h 6 = .error .tooDeep := congrArg (Except.map Value.text) hstop
    rw [hsix] at hshown
    cases hshown
  have hsame := (Machine.run_congr (heval load 0 hdone)).1
  refine ⟨hh, hlimit, hlimit', (hmake _ _ hfresh).2, htwo, hsix, ?_⟩
  exact (congrArg (Except.map Value.text) hsame).trans hsix

end CurryLisp
