/-
# What a function can see

The free names of a function are looked up where it was made, not where it is called.  So a call
depends on the frames that can be reached from the function, its arguments and the root, and on no
others: not on the local names of its caller, unless the function closes over them.

`Store.Reaches` says which frames can be reached: those on the chain of a function that is found
inside a value, and from there on inside whatever is bound in a frame that has been reached.  Two
machines that differ only in frames that cannot be reached are told apart by no call; the coupling
for it is `Twins`.
-/
import CurryLisp.Proofs.Chains
import CurryLisp.Proofs.Session

namespace CurryLisp

/-! ## 1. Reaching frames -/

/-- A function that was made in a frame is found in a value, at any depth. -/
inductive Value.Captures (e : FrameId) : Value → Prop
  | made (f : Formals) (body : List Value) (own : List (String × Value)) :
      Captures e (.lambda f body own (some e))
  | part {v w : Value} : w ∈ v.parts → Captures e w → Captures e v

/-- The frames that can be reached from some frames: those on their chains, and those on the chains
of the functions that are found in a binding of a frame that has been reached. -/
inductive Store.Reaches (s : Store) (start : FrameId → Prop) : FrameId → Prop
  | start {e i : FrameId} : start e → i ∈ s.chain e → Reaches s start i
  | bound {j e i : FrameId} {q : String × Value} : Reaches s start j → q ∈ s.bindings j →
      q.2.Captures e → i ∈ s.chain e → Reaches s start i

/-- Where reaching starts: at a root, and at the functions that are found in some values. -/
def Starts (root : FrameId) (vs : List Value) (e : FrameId) : Prop :=
  e = root ∨ ∃ v ∈ vs, v.Captures e

/-- The frame around a frame that can be reached can be reached. -/
theorem Store.Reaches.parent {s : Store} {start : FrameId → Prop} {i p : FrameId}
    (h : s.Reaches start i) (hp : s.parent? i = some p) : s.Reaches start p := by
  cases h with
  | start he hi => exact .start he (mem_chain_of_parent? hi hp)
  | bound hj hq he hi => exact .bound hj hq he (mem_chain_of_parent? hi hp)

namespace Value

/-- If a value is a function, some property holds of the frame it was made in. -/
def MadeIn (good : FrameId → Prop) : Value → Prop
  | lambda _ _ _ scope => ∀ e, scope = some e → good e
  | _ => True

theorem plain_madeIn (good : FrameId → Prop) : Plain (MadeIn good) where
  number _ := trivial
  string _ := trivial
  error _ _ := trivial
  sexpr _ := trivial
  qexpr _ := trivial

/-- All functions inside a value were made in the frames that it captures. -/
theorem all_madeIn {good : FrameId → Prop} (v : Value) (h : ∀ e, v.Captures e → good e) :
    v.All (MadeIn good) := by
  refine .intro ?_ fun w hw => ?_
  · cases v with
    | lambda f body own scope =>
      intro e he
      subst he
      exact h e (.made f body own)
    | number | string | symbol | error | sexpr | qexpr | builtin => trivial
  · exact all_madeIn w fun e he => h e (.part hw he)
termination_by sizeOf v
decreasing_by exact sizeOf_lt_of_mem_parts hw

end Value

/-! ## 2. Machines that differ in some frames only -/

/-- Two machines are the same but for the bindings of some frames. -/
structure Machine.SameBut (hidden : FrameId → Prop) (m₁ m₂ : Machine) : Prop where
  size : m₁.store.size = m₂.store.size
  parent : ∀ i, m₁.store.parent? i = m₂.store.parent? i
  bindings : ∀ i, ¬ hidden i → m₁.store.bindings i = m₂.store.bindings i
  printed : m₁.printed = m₂.printed
  events : m₁.events = m₂.events

/-- Machines differ in the frame that was made last if it was made with different bindings. -/
theorem Machine.SameBut.lastFrame (m : Machine) (b c : Bindings) (parent : Option FrameId) :
    ({ m with store := m.store.alloc b parent } : Machine).SameBut (· = m.store.size)
      { m with store := m.store.alloc c parent } := by
  refine ⟨?_, fun i => ?_, fun i hi => ?_, rfl, rfl⟩
  · exact (Store.size_alloc _ _ _).trans (Store.size_alloc _ _ _).symm
  · change (m.store.alloc b parent).parent? i = (m.store.alloc c parent).parent? i
    rcases Nat.lt_trichotomy i m.store.size with hlt | rfl | hgt
    · rw [Store.parent?_alloc_of_lt hlt, Store.parent?_alloc_of_lt hlt]
    · rw [Store.parent?_alloc_self, Store.parent?_alloc_self]
    · rw [Store.parent?_of_size_le (by rw [Store.size_alloc]; exact hgt),
        Store.parent?_of_size_le (by rw [Store.size_alloc]; exact hgt)]
  · change (m.store.alloc b parent).bindings i = (m.store.alloc c parent).bindings i
    rcases Nat.lt_or_gt_of_ne hi with hlt | hgt
    · rw [Store.bindings_alloc_of_lt hlt, Store.bindings_alloc_of_lt hlt]
    · rw [Store.bindings_of_size_le (by rw [Store.size_alloc]; exact hgt),
        Store.bindings_of_size_le (by rw [Store.size_alloc]; exact hgt)]

/-- Two machines that began with the stores `s₁` and `s₂` and agree on the good frames.  The good
frames are closed: with a frame, the frame around it and whatever is captured by its bindings are
good.  The other frames are as they were. -/
structure Twins.Rel (good : FrameId → Prop) (s₁ s₂ : Store) (m₁ m₂ : Machine) : Prop where
  size : m₁.store.size = m₂.store.size
  size_le : s₁.size ≤ m₁.store.size
  parent : ∀ i, m₁.store.parent? i = m₂.store.parent? i
  printed : m₁.printed = m₂.printed
  events : m₁.events = m₂.events
  same : ∀ i, good i → m₁.store.bindings i = m₂.store.bindings i
  kept : ∀ i, ¬ good i →
    m₁.store.bindings i = s₁.bindings i ∧ m₂.store.bindings i = s₂.bindings i
  around : ∀ i p, good i → m₁.store.parent? i = some p → good p
  bound : ∀ i, good i → ∀ q ∈ m₁.store.bindings i, q.2.All (Value.MadeIn good)

/-- Machines that agree on the good frames, and what is made in them. -/
def Twins (good : FrameId → Prop) (s₁ s₂ : Store) : Coupling where
  Rel := Twins.Rel good s₁ s₂
  part _ v := v.MadeIn good
  Res _ := True
  Taken _ := True
  Env _ e := good e

namespace Twins

variable {good : FrameId → Prop} {s₁ s₂ : Store} {m₁ m₂ : Machine} {e : FrameId}

/-- With a frame its whole chain is good. -/
theorem Rel.chain (h : Rel good s₁ s₂ m₁ m₂) (he : good e) : ∀ i ∈ m₁.store.chain e, good i :=
  Store.forall_mem_chain (fun i p hi hp => h.around i p hi hp) he

theorem Rel.root (h : Rel good s₁ s₂ m₁ m₂) (he : good e) : good (m₁.store.root e) :=
  h.chain he _ (Store.root_mem_chain _ _)

theorem Rel.root_eq (h : Rel good s₁ s₂ m₁ m₂) (e : FrameId) :
    m₁.store.root e = m₂.store.root e := by
  rw [Store.root, Store.root, Store.chain_congr h.parent]

/-- Names are looked up alike. -/
theorem Rel.get? (h : Rel good s₁ s₂ m₁ m₂) (he : good e) (x : String) :
    m₁.store.get? e x = m₂.store.get? e x :=
  Store.get?_congr (Store.chain_congr h.parent e) (fun i hi => h.same i (h.chain he i hi)) x

theorem Rel.putAll (h : Rel good s₁ s₂ m₁ m₂) (he : good e) {more : List (String × Value)}
    (hmore : ∀ q ∈ more, q.2.All (Value.MadeIn good)) :
    Rel good s₁ s₂ { m₁ with store := m₁.store.putAll e more }
      { m₂ with store := m₂.store.putAll e more } where
  size := by
    change (m₁.store.putAll e more).size = (m₂.store.putAll e more).size
    rw [Store.putAll, Store.putAll, Store.size_update, Store.size_update, h.size]
  size_le := by
    change s₁.size ≤ (m₁.store.putAll e more).size
    rw [Store.putAll, Store.size_update]
    exact h.size_le
  parent i := by
    change (m₁.store.putAll e more).parent? i = (m₂.store.putAll e more).parent? i
    rw [Store.putAll, Store.putAll, Store.parent?_update, Store.parent?_update, h.parent]
  printed := h.printed
  events := h.events
  same i hi := Store.bindings_putAll_congr h.size (h.same i hi) e more
  kept i hi := by
    have hne : i ≠ e := by
      rintro rfl
      exact hi he
    obtain ⟨h₁, h₂⟩ := h.kept i hi
    exact ⟨(Store.bindings_update_ne _ hne _).trans h₁, (Store.bindings_update_ne _ hne _).trans h₂⟩
  around i p hi hp := by
    have hsame : (m₁.store.putAll e more).parent? i = m₁.store.parent? i :=
      Store.parent?_update _ _ _ _
    exact h.around i p hi (hsame ▸ hp)
  bound i hi q hq := by
    rcases Store.mem_bindings_putAll hq with hq | hq
    · exact hmore q hq
    · exact h.bound i hi q hq

theorem Rel.alloc (h : Rel good s₁ s₂ m₁ m₂) (hnew : ∀ i, s₁.size ≤ i → good i) {b : Bindings}
    {scope : Option FrameId} (hb : ∀ q ∈ b, q.2.All (Value.MadeIn good))
    (hscope : ∀ p, scope = some p → good p) :
    Rel good s₁ s₂ { m₁ with store := m₁.store.alloc b scope }
      { m₂ with store := m₂.store.alloc b scope } where
  size := by
    change (m₁.store.alloc b scope).size = (m₂.store.alloc b scope).size
    rw [Store.size_alloc, Store.size_alloc, h.size]
  size_le := by
    change s₁.size ≤ (m₁.store.alloc b scope).size
    rw [Store.size_alloc]
    exact Nat.le_succ_of_le h.size_le
  parent i := Store.parent?_alloc_congr h.size (h.parent i) b scope
  printed := h.printed
  events := h.events
  same i hi := Store.bindings_alloc_congr h.size (h.same i hi) b scope
  kept i hi := by
    have hlt : i < m₁.store.size := by
      refine Nat.lt_of_not_le fun hle => ?_
      exact hi (hnew i (Nat.le_trans h.size_le hle))
    obtain ⟨h₁, h₂⟩ := h.kept i hi
    exact ⟨(Store.bindings_alloc_of_lt hlt _ _).trans h₁,
      (Store.bindings_alloc_of_lt (h.size ▸ hlt) _ _).trans h₂⟩
  around i p hi hp := by
    change (m₁.store.alloc b scope).parent? i = some p at hp
    rcases Nat.lt_trichotomy i m₁.store.size with hlt | rfl | hgt
    · rw [Store.parent?_alloc_of_lt hlt] at hp
      exact h.around i p hi hp
    · rw [Store.parent?_alloc_self] at hp
      exact hscope p (Option.filter_eq_some_iff.mp hp).1
    · rw [Store.parent?_of_size_le (by rw [Store.size_alloc]; exact hgt)] at hp
      cases hp
  bound i hi q hq := by
    rcases Store.mem_bindings_alloc hq with hq | hq
    · exact hb q hq
    · exact h.bound i hi q hq

theorem sound (hnew : ∀ i, s₁.size ≤ i → good i) (host : Host) :
    (Twins good s₁ s₂).Sound host where
  toValueLaws := .of_plain (fun _ => Value.plain_madeIn good) (fun _ _ => trivial)
    (fun _ _ => trivial) (fun _ _ => trivial) host
  size_eq h := h.size
  part_mono _ h := h
  env_mono _ he := he
  close _ he _ := by
    rintro _ ⟨⟩
    exact he
  await hf _ _ _ := hf.self
  lookup h he _ := by
    refine ⟨h.get? he _, fun v hv => ⟨?_, trivial⟩⟩
    obtain ⟨i, hi, hmem⟩ := Store.exists_mem_of_get? hv
    exact h.bound i (h.chain he i hi) _ hmem
  print _ h := { h with printed := congrArg (Array.push · _) h.printed }
  note _ h := { h with events := congrArg (Array.push · _) h.events }
  bind h he hmore := h.putAll he fun q hq => (hmore q hq).2.1.1
  bindGlobal {_ _ e _} h he hmore := by
    rw [← h.root_eq e]
    exact h.putAll (h.root he) fun q hq => (hmore q hq).2.1.1
  enter {m₁ _ f body own scope frame} h hf hframe := by
    obtain ⟨hself, -, hown⟩ := Value.all_lambda.mp hf
    refine ⟨h.alloc hnew (fun q hq => ?_) hself, hnew _ h.size_le⟩
    rcases hframe q hq with hq | ⟨-, hq⟩
    · exact hown q hq
    · exact hq.1.1

/-- The frames that can be reached, and those that are not made yet. -/
def Good (s : Store) (start : FrameId → Prop) (i : FrameId) : Prop :=
  s.Reaches start i ∨ s.size ≤ i

variable {hidden start : FrameId → Prop}

/-- Machines that are the same but for frames that cannot be reached are twins. -/
theorem ofSameBut (h : m₁.SameBut hidden m₂) (hold : ∀ i, hidden i → i < m₁.store.size)
    (hfar : ∀ i, hidden i → ¬ m₁.store.Reaches start i) :
    Rel (Good m₁.store start) m₁.store m₂.store m₁ m₂ where
  size := h.size
  size_le := Nat.le_refl _
  parent := h.parent
  printed := h.printed
  events := h.events
  same i hi := by
    refine h.bindings i fun hhid => ?_
    rcases hi with hi | hi
    · exact hfar i hhid hi
    · exact absurd (Nat.lt_of_lt_of_le (hold i hhid) hi) (Nat.lt_irrefl i)
  kept _ _ := ⟨rfl, rfl⟩
  around i p hi hp := by
    rcases hi with hi | hi
    · exact Or.inl (hi.parent hp)
    · rw [Store.parent?_of_size_le hi] at hp
      cases hp
  bound i hi q hq := by
    rcases hi with hi | hi
    · exact Value.all_madeIn q.2 fun e he =>
        Or.inl (.bound hi hq he (Store.mem_chain_self _ e))
    · rw [Store.bindings_of_size_le hi] at hq
      exact absurd hq List.not_mem_nil

/-- Twins stay the same but for the frames that differed. -/
theorem Rel.sameBut {m₁' m₂' : Machine} (h : Rel good m₁.store m₂.store m₁' m₂')
    (hsame : m₁.SameBut hidden m₂) : m₁'.SameBut hidden m₂' where
  size := h.size
  parent := h.parent
  bindings i hi := by
    by_cases hgood : good i
    · exact h.same i hgood
    · obtain ⟨h₁, h₂⟩ := h.kept i hgood
      exact h₁.trans ((hsame.bindings i hi).trans h₂.symm)
  printed := h.printed
  events := h.events

end Twins

/-! ## 3. The theorem -/

/-- **A call depends only on what can be reached from the function, its arguments and the root.**

Two machines are given that are the same but for the bindings of some frames, and none of these can
be reached.  The function is applied to the arguments in both, called from any environments.

1. Both calls end with the same value or with the same fault.
2. The machines are again the same but for those frames; in particular they have printed the same,
   and the root has the same bindings in both.
3. Those frames are as they were. -/
theorem call_sees_only_reachable {m₁ m₂ : Machine} {hidden : FrameId → Prop} {root : FrameId}
    {f : Formals} {body : List Value} {own : List (String × Value)} {scope : Option FrameId}
    {args : List Value} (hsame : m₁.SameBut hidden m₂)
    (hold : ∀ i, hidden i → i < m₁.store.size)
    (hfar : ∀ i, hidden i →
      ¬ m₁.store.Reaches (Starts root (.lambda f body own scope :: args)) i)
    (host : Host) (depth : Nat) (e₁ e₂ : FrameId) :
    let call e := apply host (evaluate host depth) (.lambda f body own scope) args e
    m₁.outcome (call e₁) = m₂.outcome (call e₂) ∧
    ((m₁.after (call e₁)).SameBut hidden (m₂.after (call e₂)) ∧
      (m₁.after (call e₁)).output = (m₂.after (call e₂)).output ∧
      (m₁.after (call e₁)).store.bindings root = (m₂.after (call e₂)).store.bindings root) ∧
    ∀ i, hidden i →
      (m₁.after (call e₁)).store.bindings i = m₁.store.bindings i ∧
      (m₂.after (call e₂)).store.bindings i = m₂.store.bindings i := by
  intro call
  let start := Starts root (.lambda f body own scope :: args)
  let A := Twins (Twins.Good m₁.store start) m₁.store m₂.store
  have hA : A.Sound host := Twins.sound (fun i hi => Or.inr hi) host
  have hgood : ∀ v ∈ Value.lambda f body own scope :: args, A.Holds 0 v := fun v hv =>
    Value.all_madeIn v fun e he =>
      Or.inl (.start (Or.inr ⟨v, hv, he⟩) (Store.mem_chain_self _ e))
  have hcall := hA.applyLambda (hA.evaluate depth) (hgood _ List.mem_cons_self) fun a ha =>
    ⟨⟨hgood a (List.mem_cons_of_mem _ ha), trivial⟩, trivial⟩
  obtain ⟨hout, hrel⟩ := hcall.two_runs (Twins.ofSameBut hsame hold hfar) (Nat.zero_le _)
  have hroot : ¬ hidden root := fun h =>
    hfar root h (.start (Or.inl rfl) (Store.mem_chain_self _ root))
  have hafter : (m₁.after (call e₁)).SameBut hidden (m₂.after (call e₂)) := hrel.sameBut hsame
  refine ⟨hout, ⟨hafter, ?_, hafter.bindings root hroot⟩, fun i hi => ?_⟩
  · rw [Machine.output, Machine.output, hafter.printed]
  · refine hrel.kept i fun h => ?_
    rcases h with h | h
    · exact hfar i hi h
    · exact absurd (Nat.lt_of_lt_of_le (hold i hi) h) (Nat.lt_irrefl i)

/-- The local name `y` of a caller is not seen by a function that was made at the root. -/
theorem call_sees_only_reachable_caller :
    let caller (n : Int) : Machine :=
      { Machine.fresh false with store := (Store.fresh false).alloc [("y", .number n)] (some 0) }
    let call := apply .bare (evaluate .bare 5) (.lambda ⟨["x"], none⟩ [.symbol "y"] [] (some 0))
      [.number 3] 1
    (caller 1).SameBut (· = 1) (caller 2) ∧ (caller 1).outcome call = (caller 2).outcome call := by
  intro caller call
  have hsame : (caller 1).SameBut (· = 1) (caller 2) :=
    .lastFrame (Machine.fresh false) [("y", .number 1)] [("y", .number 2)] (some 0)
  -- The function was made at the root, a number captures nothing, and neither does a builtin.
  have hstart : ∀ e, Starts 0 [.lambda ⟨["x"], none⟩ [.symbol "y"] [] (some 0), .number 3] e →
      e = 0 := by
    rintro e (rfl | ⟨v, hv, he⟩)
    · rfl
    · rcases List.mem_cons.mp hv with rfl | hv
      · cases he with
        | made => rfl
        | part hw he =>
          rw [List.mem_singleton.mp hw] at he
          cases he with
          | part hw _ => exact absurd hw List.not_mem_nil
      · rw [List.mem_singleton.mp hv] at he
        cases he with
        | part hw _ => exact absurd hw List.not_mem_nil
  have hroot : (caller 1).store.chain 0 = [0] := Store.chain_of_root rfl
  have hnear : ∀ i, (caller 1).store.Reaches
      (Starts 0 [.lambda ⟨["x"], none⟩ [.symbol "y"] [] (some 0), .number 3]) i → i = 0 := by
    intro i hi
    induction hi with
    | start he hi =>
      rw [hstart _ he, hroot] at hi
      exact List.mem_singleton.mp hi
    | bound hj hq he hi ih =>
      subst ih
      obtain ⟨b, -, rfl⟩ := List.mem_map.mp
        (show _ ∈ libraryBindings Builtin.core from hq)
      cases he with
      | part hw _ => exact absurd hw List.not_mem_nil
  have hfar : ∀ i, i = 1 → ¬ (caller 1).store.Reaches
      (Starts 0 [.lambda ⟨["x"], none⟩ [.symbol "y"] [] (some 0), .number 3]) i := by
    rintro i rfl hi
    exact absurd (hnear 1 hi) Nat.one_ne_zero
  have hold : ∀ i, i = 1 → i < (caller 1).store.size := by
    rintro i rfl
    exact Nat.one_lt_two
  exact ⟨hsame, (call_sees_only_reachable hsame hold hfar .bare 5 1 1).1⟩

end CurryLisp
