/-
# Which frames a program changes

A program changes frames through the builtins that bind names, and these bind them in the frame
that is evaluated in or in the root.  Calls are evaluated in frames of their own.  So evaluation
changes no older frame but these two, a call changes no older frame but the root, and when the call
that made a frame has returned, that frame stays as it is for good.

All this is one coupling, `Guarding`: some frames keep their bindings as long as they are neither
evaluated in nor the root of any frame.  `Onward` says how a session may go on after a call.
-/
import CurryLisp.Proofs.Rooted

namespace CurryLisp

/-! ## 1. Frames that are left alone -/

/-- Machines in which some of the first `size` frames still have the bindings of an earlier store,
and are not the root of any frame. -/
def Guarding (left : FrameId → Prop) (before : Store) : Coupling where
  Rel m₁ m₂ := m₁ = m₂ ∧ before.size ≤ m₁.store.size ∧
    (∀ i, left i → m₁.store.bindings i = before.bindings i) ∧ ∀ i, ¬ left (m₁.store.root i)
  part _ _ := True
  Res _ := True
  Taken _ := True
  Env _ e := ¬ left e

namespace Guarding

variable {left : FrameId → Prop} {before : Store}

/-- Binding names in a frame that is not left alone. -/
theorem putAll {m₁ m₂ : Machine} (hm : (Guarding left before).Rel m₁ m₂) {e : FrameId}
    (he : ¬ left e) (more : List (String × Value)) :
    (Guarding left before).Rel { m₁ with store := m₁.store.putAll e more }
      { m₂ with store := m₂.store.putAll e more } := by
  obtain ⟨rfl, hsize, hkept, hroot⟩ := hm
  refine ⟨rfl, ?_, fun i hi => ?_, fun i => ?_⟩
  · exact Nat.le_trans hsize (Nat.le_of_eq (Store.size_update _ _ _).symm)
  · have hne : i ≠ e := by
      rintro rfl
      exact he hi
    exact (Store.bindings_update_ne _ hne _).trans (hkept i hi)
  · have hsame : (m₁.store.putAll e more).root i = m₁.store.root i := Store.root_update _ _ _ _
    exact hsame ▸ hroot i

/-- Making a frame. -/
theorem alloc {m₁ m₂ : Machine} (hm : (Guarding left before).Rel m₁ m₂)
    (hold : ∀ i, left i → i < before.size) (b : Bindings) (parent : Option FrameId) :
    (Guarding left before).Rel { m₁ with store := m₁.store.alloc b parent }
      { m₂ with store := m₂.store.alloc b parent } := by
  obtain ⟨rfl, hsize, hkept, hroot⟩ := hm
  have hnew : ∀ i, m₁.store.size ≤ i → ¬ left i := fun i hi hl =>
    absurd (Nat.lt_of_lt_of_le (hold i hl) (Nat.le_trans hsize hi)) (Nat.lt_irrefl i)
  refine ⟨rfl, ?_, fun i hi => ?_, fun i => ?_⟩
  · refine Nat.le_trans hsize (Nat.le_trans (Nat.le_succ _) (Nat.le_of_eq ?_))
    exact (Store.size_alloc _ _ _).symm
  · have hlt : i < m₁.store.size := Nat.lt_of_lt_of_le (hold i hi) hsize
    exact (Store.bindings_alloc_of_lt hlt b parent).trans (hkept i hi)
  · change ¬ left ((m₁.store.alloc b parent).root i)
    rcases Nat.lt_trichotomy i m₁.store.size with hlt | rfl | hgt
    · rw [Store.root_alloc_of_lt hlt]
      exact hroot i
    · rcases Store.root_alloc_self m₁.store b parent with h | ⟨p, -, -, h⟩
      · rw [h]
        exact hnew _ (Nat.le_refl _)
      · rw [h]
        exact hroot p
    · rw [Store.root_of_size_le (by rw [Store.size_alloc]; exact hgt)]
      exact hnew i (Nat.le_of_lt hgt)

theorem sound (hold : ∀ i, left i → i < before.size) (host : Host) :
    (Guarding left before).Sound host where
  toValueLaws := .of_plain (fun _ => Value.plain_true) (fun _ _ => trivial) (fun _ _ => trivial)
    (fun _ _ => trivial) host
  size_eq hm := congrArg (fun m => m.store.size) hm.1
  part_mono _ _ := trivial
  env_mono _ he := he
  close _ _ _ := trivial
  await _ _ _ _ := trivial
  lookup hm _ _ := ⟨by rw [hm.1], fun _ _ => ⟨Value.all_of_forall (fun _ => trivial) _, trivial⟩⟩
  print _ hm := ⟨by rw [hm.1], hm.2⟩
  note _ hm := ⟨by rw [hm.1], hm.2⟩
  bind hm he _ := putAll hm he _
  bindGlobal {m₁ _ e more} hm _ _ := by
    have hput := putAll hm (hm.2.2.2 e) more
    rw [hm.1] at hput ⊢
    exact hput
  enter {m₁ _ f body own scope frame} hm _ _ := by
    refine ⟨alloc hm hold frame scope, fun hl => ?_⟩
    exact absurd (Nat.lt_of_lt_of_le (hold _ hl) hm.2.1) (Nat.lt_irrefl _)

/-- Nothing is asked of values. -/
theorem arg (n : Nat) (v : Value) : (Guarding left before).Arg n v :=
  ⟨⟨Value.all_of_forall (fun _ => trivial) v, trivial⟩, trivial⟩

/-- Frames can be left alone from now on if they are there and the root is not among them. -/
theorem refl {root : FrameId} {m : Machine} (hm : m.Rooted root)
    (hold : ∀ i, left i → i < m.store.size) (hroot : ¬ left root) :
    (Guarding left m.store).Rel m m := by
  refine ⟨rfl, Nat.le_refl _, fun _ _ => rfl, fun i => ?_⟩
  rcases Nat.lt_or_ge i m.store.size with hlt | hge
  · rw [hm.root_eq i hlt]
    exact hroot
  · rw [Store.root_of_size_le hge]
    exact fun hl => absurd (Nat.lt_of_lt_of_le (hold i hl) hge) (Nat.lt_irrefl i)

variable {m : Machine}

/-- Evaluation in an environment whose frame is not left alone. -/
theorem evaluate (hold : ∀ i, left i → i < before.size) (hm : (Guarding left before).Rel m m)
    (host : Host) (depth : Nat) (v : Value) {e : FrameId} (he : ¬ left e) :
    (Guarding left before).Rel (m.after (CurryLisp.evaluate host depth v e))
      (m.after (CurryLisp.evaluate host depth v e)) := by
  have hrun := ((sound hold host).evaluate depth).eval 0 v e (arg 0 v).1.1 he
  exact (hrun.one_run hm (Nat.zero_le _)).1

/-- A function may be called from any environment. -/
theorem applyLambda (hold : ∀ i, left i → i < before.size) (hm : (Guarding left before).Rel m m)
    (host : Host) (depth : Nat) (f : Formals) (body : List Value) (own : Bindings)
    (scope : Option FrameId) (args : List Value) :
    let call := CurryLisp.applyLambda (CurryLisp.evaluate host depth) f body own scope args
    (Guarding left before).Rel (m.after call) (m.after call) := by
  have hA := sound hold host
  have hrun := hA.applyLambda (hA.evaluate depth) (arg 0 (.lambda f body own scope)).1.1
    fun a (_ : a ∈ args) => arg 0 a
  exact (hrun.one_run hm (Nat.zero_le _)).1

end Guarding

/-! ## 2. How a session goes on -/

/-- What may follow when no evaluation takes place in some frames any more: values are evaluated
and applied in other environments, calls make their frames, lines are printed, and the session takes
its steps. -/
inductive Onward (root : FrameId) (left : FrameId → Prop) : Machine → Machine → Prop
  | refl (m : Machine) : Onward root left m m
  | evaluate {m m' : Machine} (host : Host) (depth : Nat) (v : Value) {e : FrameId} : ¬ left e →
      Onward root left m m' → Onward root left m (m'.after (evaluate host depth v e))
  | apply {m m' : Machine} (host : Host) (depth : Nat) (head : Value) (args : List Value)
      {e : FrameId} : ¬ left e → Onward root left m m' →
      Onward root left m (m'.after (apply host (CurryLisp.evaluate host depth) head args e))
  | enter {m m' : Machine} (frame : Bindings) (scope : Option FrameId) : Onward root left m m' →
      Onward root left m { m' with store := m'.store.alloc frame scope }
  | print {m m' : Machine} (line : String) : Onward root left m m' →
      Onward root left m (m'.after (Machine.print line))
  | step {m m' : Machine} (host : Host) (depth : Nat) (s : Step) : Onward root left m m' →
      Onward root left m (m'.after (Interpreter.perform ⟨host, root, depth⟩ s))

namespace Onward

variable {root : FrameId} {left : FrameId → Prop} {m m' : Machine} {α β : Type}

theorem bind {x : EvalM α} {f : α → EvalM β} (hx : Onward root left m (m'.after x))
    (hf : ∀ a, Onward root left m ((m'.after x).after (f a))) :
    Onward root left m (m'.after (x >>= f)) := by
  rw [Machine.after_bind]
  cases m'.outcome x with
  | ok a => exact hf a
  | error _ => exact hx

theorem mapM (host : Host) (depth : Nat) {e : FrameId} (he : ¬ left e) (cells : List Value)
    (h : Onward root left m m') :
    Onward root left m (m'.after (cells.mapM fun c => CurryLisp.evaluate host depth c e)) := by
  induction cells generalizing m' with
  | nil => exact h
  | cons c rest ih =>
    rw [List.mapM_cons]
    have hc := h.evaluate host depth c he
    exact hc.bind fun _ => (ih hc).bind fun _ => ih hc

/-- **The rest of a round list**, when some of its cells have been evaluated. -/
theorem rest (host : Host) (depth : Nat) {e : FrameId} (he : ¬ left e) (results cells : List Value)
    (h : Onward root left m m') :
    Onward root left m (m'.after do
      combine host (CurryLisp.evaluate host depth) e
        (results ++ (← cells.mapM fun c => CurryLisp.evaluate host depth c e))) := by
  have hcells := h.mapM host depth he cells
  refine hcells.bind fun rs => ?_
  unfold combine
  split
  · exact hcells
  · split
    · exact hcells
    · exact hcells
    · refine bind (by rwa [Machine.after_walk]) fun _ => ?_
      rw [Machine.after_walk]
      exact hcells.apply host depth _ _ he

/-- **The rest of a file** that is being loaded. -/
theorem runPrinting (host : Host) (depth : Nat) {e : FrameId} (he : ¬ left e) (forms : List Value)
    (h : Onward root left m m') :
    Onward root left m (m'.after (Form.runPrinting (CurryLisp.evaluate host depth) e forms)) := by
  induction forms generalizing m' with
  | nil => exact h
  | cons v rest ih =>
    unfold Form.runPrinting
    have hv := h.evaluate host depth v he
    refine hv.bind fun r => ?_
    dsimp only
    split
    · exact (hv.print _).bind fun _ => ih (hv.print _)
    · exact ih hv

/-- Frames that are not evaluated in any more keep their bindings. -/
theorem guarding {before : Store} (h : Onward root left m m')
    (hold : ∀ i, left i → i < before.size) (hroot : ¬ left root)
    (hm : (Guarding left before).Rel m m) : (Guarding left before).Rel m' m' := by
  induction h with
  | refl => exact hm
  | evaluate host depth v he _ ih => exact Guarding.evaluate hold ih host depth v he
  | apply host depth head args he _ ih =>
    have hA := Guarding.sound hold host
    have hrun := hA.apply_alike (hA.evaluate depth) he (Guarding.arg 0 head)
      (fun a (_ : a ∈ args) => Guarding.arg 0 a) fun _ _ => trivial
    exact (hrun.one_run ih (Nat.zero_le _)).1
  | enter frame scope _ ih => exact Guarding.alloc ih hold frame scope
  | print line _ ih =>
    exact ⟨rfl, ih.2⟩
  | step host depth s _ ih =>
    have hread : (Guarding left before).Reads := fun n _ _ _ _ _ v _ => (Guarding.arg n v).1.1
    have hrun := (Guarding.sound hold host).perform (i := ⟨host, root, depth⟩) (n := 0) hread
      hroot s
    exact (hrun.one_run ih (Nat.zero_le _)).1

end Onward

/-! ## 3. The theorem -/

/-- **Evaluation changes no older frame but the one that is evaluated in and the root.**

1. In a session all frames have one root.
2. This stays so whatever the session evaluates, and in the calls that it makes on the way.
3. Evaluation in an environment changes no frame that was there, but the frame of the environment
   and the root.
4. A call changes no frame that was there but the root.  It can be made from any environment.
5. When a call has returned, the frames it has made stay as they are, however the session goes on.
   It goes on with the rest of the list in which the call stands and the rest of the file in which
   the list does, in environments that were there, and then with any steps.

The arguments that a function holds until the others arrive are part of the value that is bound, so
3 to 5 say of them too that they stay as they are. -/
theorem frames_left_alone {root : FrameId} {m : Machine} :
    (Reachable root m → m.Rooted root) ∧
    (m.Rooted root →
      (∀ host depth v e, v.Within m.store.size → e < m.store.size →
        let m' := m.after (evaluate host depth v e)
        m'.Rooted root ∧
          ∀ r, m.outcome (evaluate host depth v e) = .ok r → r.Within m'.store.size) ∧
      (∀ f body own scope args frame, (Value.lambda f body own scope).Within m.store.size →
        (∀ a ∈ args, a.Within m.store.size) → f.bind own args = .complete frame →
        ({ m with store := m.store.alloc frame scope } : Machine).Rooted root) ∧
      (∀ host depth v e i, i < m.store.size → i ≠ e → i ≠ root →
        (m.after (evaluate host depth v e)).store.bindings i = m.store.bindings i) ∧
      (∀ host depth f body own scope args e i, i < m.store.size → i ≠ root →
        let call := apply host (evaluate host depth) (.lambda f body own scope) args e
        (m.after call).store.bindings i = m.store.bindings i) ∧
      ∀ host depth f body own scope args e,
        (Value.lambda f body own scope).Within m.store.size →
        (∀ a ∈ args, a.Within m.store.size) →
        let called := m.after (apply host (evaluate host depth) (.lambda f body own scope) args e)
        let made := fun i => m.store.size ≤ i ∧ i < called.store.size
        (∀ m', Onward root made called m' →
          ∀ i, made i → m'.store.bindings i = called.store.bindings i) ∧
        ∀ m', Onward root made called m' → ∀ host depth e, e < m.store.size →
          (∀ results (cells : List Value), Onward root made called (m'.after do
            combine host (evaluate host depth) e
              (results ++ (← cells.mapM fun c => evaluate host depth c e)))) ∧
          ∀ forms, Onward root made called
            (m'.after (Form.runPrinting (evaluate host depth) e forms))) := by
  refine ⟨Reachable.rooted, fun hm => ⟨?_, ?_, ?_, ?_, ?_⟩⟩
  · intro host depth v e hv he
    have hrun := ((Rooting.sound root host).evaluate depth).eval m.store.size v e hv he
    obtain ⟨hafter, -, hres⟩ := hrun.one_run ⟨rfl, hm⟩ (Nat.le_refl _)
    exact ⟨hafter.2, fun r hr => (hres r hr).1⟩
  · intro f body own scope args frame hf hargs hbind
    have hA := Rooting.sound root .bare
    have hframe := hA.frame_of_bind (fun a ha => Rooting.arg_of_within (hargs a ha)) hbind
    exact (hA.enter (⟨rfl, hm⟩ : (Rooting root).Rel m m) hf hframe).1.2
  · intro host depth v e i hi hne hroot
    let left := fun i => i < m.store.size ∧ i ≠ e ∧ i ≠ root
    have hold : ∀ i, left i → i < m.store.size := fun i hl => hl.1
    have hstart := Guarding.refl hm hold fun hl => hl.2.2 rfl
    have hrun := Guarding.evaluate hold hstart host depth v (e := e) fun hl => hl.2.1 rfl
    exact hrun.2.2.1 i ⟨hi, hne, hroot⟩
  · intro host depth f body own scope args e i hi hroot
    let left := fun i => i < m.store.size ∧ i ≠ root
    have hold : ∀ i, left i → i < m.store.size := fun i hl => hl.1
    have hstart := Guarding.refl hm hold fun hl => hl.2 rfl
    have hrun := Guarding.applyLambda hold hstart host depth f body own scope args
    exact hrun.2.2.1 i ⟨hi, hroot⟩
  · intro host depth f body own scope args e hf hargs called made
    refine ⟨fun m' honward => ?_, fun m' honward host depth e he => ?_⟩
    swap
    · have hfree : ¬ made e := fun hmade => absurd he (Nat.not_lt.mpr hmade.1)
      exact ⟨fun results cells => honward.rest host depth hfree results cells,
        fun forms => honward.runPrinting host depth hfree forms⟩
    have hcall : called.Rooted root := by
      have hA := Rooting.sound root host
      have hrun := hA.applyLambda (hA.evaluate depth) hf fun a ha =>
        Rooting.arg_of_within (hargs a ha)
      exact (hrun.one_run ⟨rfl, hm⟩ (Nat.le_refl _)).1.2
    have hold : ∀ i, made i → i < called.store.size := fun i hi => hi.2
    have hroot : ¬ made root := fun hi => absurd hm.root_lt (Nat.not_lt.mpr hi.1)
    exact (honward.guarding hold hroot (Guarding.refl hcall hold hroot)).2.2.1

/-- The frame of a call binds the parameter, whatever step the session takes next. -/
theorem frames_left_alone_parameter :
    Reachable 0 (.fresh false) ∧
    let f : Value := .lambda ⟨["x"], none⟩ [] [] (some 0)
    let called := (Machine.fresh false).after (apply .bare (evaluate .bare 1) f [.number 1] 0)
    f.Within 1 ∧ called.store.size = 2 ∧
      ∀ s, (called.after (Interpreter.perform ⟨.bare, 0, 9⟩ s)).store.bindings 1 =
        [("x", .number 1)] := by
  have h : Reachable 0 (.fresh false) := .fresh_bare false
  refine ⟨h, ?_⟩
  intro f called
  have hf : f.Within 1 := by
    refine Value.all_lambda.mpr ⟨⟨0, rfl, Nat.zero_lt_one⟩, fun c hc => ?_, fun b hb => ?_⟩
    · exact absurd hc List.not_mem_nil
    · exact absurd hb List.not_mem_nil
  have harg : ∀ a ∈ [Value.number 1], a.Within 1 := by
    intro a ha
    rw [List.mem_singleton.mp ha]
    exact Value.all_of_parts_nil rfl trivial
  have hsize : called.store.size = 2 := rfl
  have hmade : called.store.bindings 1 = [("x", .number 1)] := rfl
  obtain ⟨-, -, -, -, hkept⟩ := frames_left_alone.2 (frames_left_alone.1 h)
  refine ⟨hf, hsize, fun s => ?_⟩
  have hsame := (hkept .bare 1 _ _ _ _ _ 0 hf harg).1 _ (.step .bare 9 s (.refl called)) 1
    ⟨Nat.le_refl 1, Nat.one_lt_two⟩
  exact hsame.trans hmade

end CurryLisp
