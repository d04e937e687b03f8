/-
# Room for lists and texts

Lists and texts may grow without limit here, but the memory of a machine does not hold a list or a
text whose length is no number in range.  Where that matters it is said of a run that it has room:
no evaluation in it, at any depth, gives a list or a text that is so long.

`evaluateInRoom` watches for it.  It evaluates as `evaluate` does and stops where the result of an
evaluation is too long, so a run has room when watching makes no difference to it (`Roomy`).
-/
import CurryLisp.Proofs.Session

namespace CurryLisp

/-! ## 1. Watching results -/

/-- Evaluates a value, and stops when an evaluation gives what is not short. -/
def evaluateInRoom (host : Host) : Nat → Evaluator
  | 0 => ⟨host.calls.allows 0, fun _ _ => Machine.stop .tooDeep⟩
  | depth + 1 => ⟨host.calls.allows (depth + 1), fun v env => do
    let r ← evaluateStep host (evaluateInRoom host depth) v env
    if r.isShort then return r else Machine.stop .tooDeep⟩

/-- **A run has room**: it is the same when it is watched. -/
def Roomy {α : Type} (host : Host) (depth : Nat) (run : Evaluator → EvalM α) (m : Machine) : Prop :=
  run (evaluateInRoom host depth) m = run (evaluate host depth) m

/-- The steps of a session that have room. -/
def Step.HasRoom (host : Host) (root : FrameId) (depth : Nat) (s : Step) (m : Machine) : Prop :=
  Roomy host depth (fun ev => Interpreter.performWith ev host root s) m

/-- What is evaluated under watch is short. -/
theorem gives_isShort (host : Host) (depth : Nat) :
    Coupling.Gives (fun r => r.isShort = true) (evaluateInRoom host depth) := by
  intro v e m r m' h
  cases depth with
  | zero => cases h
  | succ depth =>
    obtain ⟨r', m₁, -, h⟩ := EvalM.bind_eq_ok.mp h
    split at h
    · next hshort =>
      cases h
      exact hshort
    · cases h

namespace Coupling

variable {A : Coupling} {host : Host} {n : Nat} {α : Type}

/-- **Evaluation under watch treats coupled machines alike**, and the arguments of operators may be
taken to be short. -/
theorem Sound.evaluateInRoom (hA : A.Sound host fun r => r.isShort = true) (depth : Nat) :
    A.Evaluates host (evaluateInRoom host depth) := by
  induction depth with
  | zero => exact ⟨fun _ _ _ _ _ => Alike.stop _, fun h => ⟨0, h⟩⟩
  | succ depth ih =>
    refine ⟨fun n v e hv he => ?_, fun h => ⟨depth + 1, h⟩⟩
    refine (hA.evaluateStep ih (gives_isShort host depth) hv he).bind fun k r _ hr => ?_
    split
    · exact Alike.pure fun l hl => hA.answer_mono hl hr
    · exact Alike.stop _

/-- What is kept under watch is kept by a run that has room. -/
theorem Alike.one_roomy_run (run : Evaluator → EvalM α) {depth : Nat} {Q : Nat → α → Prop}
    (h : A.Alike n (run (CurryLisp.evaluateInRoom host depth)) Q) {m : Machine} (hm : A.Rel m m)
    (hn : n ≤ m.store.size) (hroom : Roomy host depth run m) :
    A.Rel (m.after (run (evaluate host depth))) (m.after (run (evaluate host depth))) ∧
      ∀ a, m.outcome (run (evaluate host depth)) = .ok a →
        Q (m.after (run (evaluate host depth))).store.size a := by
  obtain ⟨hafter, -, hres⟩ := h.one_run hm hn
  rw [Machine.after, hroom, ← Machine.after] at hafter
  rw [Machine.outcome, Machine.after, hroom, ← Machine.outcome, ← Machine.after] at hres
  exact ⟨hafter, hres⟩

end Coupling

/-! ## 2. Sessions with room -/

/-- The machines that a session can come to when all its steps have room.  An interpreter that is
made with a prelude has taken a step. -/
inductive ReachableInRoom : Machine → Prop
  | fresh (extended : Bool) : ReachableInRoom (.fresh extended)
  | step {m : Machine} (host : Host) (depth : Nat) (s : Step) : ReachableInRoom m →
      s.HasRoom host 0 depth m →
      ReachableInRoom (m.after (Interpreter.perform ⟨host, 0, depth⟩ s))

theorem ReachableInRoom.reachable {m : Machine} (h : ReachableInRoom m) : Reachable 0 m := by
  induction h with
  | fresh extended => exact .fresh_bare extended
  | step host depth s _ _ ih => exact .step host depth s ih

end CurryLisp
