/-
# What is reported makes no difference

Events are written down for whoever asks to hear of them, and no program ever reads them.  So two
machines that are the same but for what they have reported cannot be told apart by running
anything on them: the outcome is the same, and so are all bindings and everything that is printed.

`Reporting` is the coupling that says so.
-/
import CurryLisp.Proofs.Coupling

namespace CurryLisp

/-- Two machines are the same but for what they have reported. -/
structure Machine.SameButReports (m₁ m₂ : Machine) : Prop where
  store : m₁.store = m₂.store
  printed : m₁.printed = m₂.printed

/-- Machines that are the same but for what they have reported. -/
def Reporting : Coupling where
  Rel := Machine.SameButReports
  part _ _ := True
  Res _ := True
  Taken _ := True
  Env _ _ := True

namespace Reporting

/-- Nothing is asked of values. -/
theorem arg (n : Nat) (v : Value) : Reporting.Arg n v :=
  Coupling.ofMachines_arg Machine.SameButReports n v

theorem sound (host : Host) : Reporting.Sound host :=
  Coupling.ofMachines_sound host (fun h => h.store) (fun _ h => ⟨rfl, h.printed⟩)
    (fun line h => ⟨h.store, congrArg (Array.push · line) h.printed⟩)
    (fun _ h => ⟨h.store, h.printed⟩)

end Reporting

namespace Machine.SameButReports

variable {m₁ m₂ m₃ : Machine}

theorem refl (m : Machine) : m.SameButReports m := ⟨rfl, rfl⟩

theorem trans (h : m₁.SameButReports m₂) (h' : m₂.SameButReports m₃) : m₁.SameButReports m₃ :=
  ⟨h.store.trans h'.store, h.printed.trans h'.printed⟩

/-- One more report makes no difference. -/
theorem note (e : Event) (h : m₁.SameButReports m₂) :
    ({ m₁ with events := m₁.events.push e } : Machine).SameButReports m₂ :=
  ⟨h.store, h.printed⟩

/-- **Applying a value** ends alike in two machines that differ in their reports only. -/
theorem apply (h : m₁.SameButReports m₂) (host : Host) (depth : Nat) (head : Value)
    (args : List Value) (env : FrameId) :
    let call := CurryLisp.apply host (CurryLisp.evaluate host depth) head args env
    m₁.outcome call = m₂.outcome call ∧ (m₁.after call).SameButReports (m₂.after call) := by
  have hA := Reporting.sound host
  have henv : Reporting.Env 0 env := trivial
  have hcall := hA.apply_alike (hA.evaluate depth) henv (Reporting.arg 0 head)
    (fun a (_ : a ∈ args) => Reporting.arg 0 a) fun _ _ => trivial
  exact hcall.two_runs h (Nat.zero_le _)

end Machine.SameButReports

end CurryLisp
