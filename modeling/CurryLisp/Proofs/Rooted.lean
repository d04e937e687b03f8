/-
# One root

A session has one root: the frame that was made first.  Every other frame was made by a call, inside
the frame that the function was made in, and so it has that root too.

`Machine.Rooted` says that all frames have one root, and that every function that is bound anywhere
was made in a frame that is there.  It holds in every session (`Reachable.rooted`) and is kept by
whatever a session evaluates (`Rooting.sound`).
-/
import CurryLisp.Proofs.Chains
import CurryLisp.Proofs.Session

namespace CurryLisp

/-! ## 1. Where functions were made -/

namespace Value

/-- If a value is a function, it was made in one of the first `n` frames. -/
def MadeWithin (n : Nat) : Value → Prop
  | lambda _ _ _ scope => ∃ e, scope = some e ∧ e < n
  | _ => True

/-- Every function inside a value was made in one of the first `n` frames. -/
def Within (n : Nat) (v : Value) : Prop := v.All (MadeWithin n)

theorem plain_madeWithin (n : Nat) : Plain (MadeWithin n) where
  number _ := trivial
  string _ := trivial
  error _ _ := trivial
  sexpr _ := trivial
  qexpr _ := trivial

theorem MadeWithin.mono {n k : Nat} {v : Value} (h : v.MadeWithin n) (hk : n ≤ k) :
    v.MadeWithin k := by
  cases v with
  | lambda f body own scope =>
    obtain ⟨e, hscope, he⟩ := h
    exact ⟨e, hscope, Nat.lt_of_lt_of_le he hk⟩
  | number | string | symbol | error | sexpr | qexpr | builtin => trivial

theorem Within.mono {n k : Nat} {v : Value} (h : v.Within n) (hk : n ≤ k) : v.Within k :=
  All.mono h fun _ hw => hw.mono hk

end Value

/-! ## 2. Machines with one root -/

/-- All frames have one root, and every function that is bound was made in a frame that is there. -/
structure Machine.Rooted (root : FrameId) (m : Machine) : Prop where
  root_lt : root < m.store.size
  root_eq : ∀ i, i < m.store.size → m.store.root i = root
  within : ∀ i, ∀ q ∈ m.store.bindings i, q.2.Within m.store.size

/-- Machines with one root, and what was made in their frames. -/
def Rooting (root : FrameId) : Coupling where
  Rel m₁ m₂ := m₁ = m₂ ∧ m₁.Rooted root
  part n v := v.MadeWithin n
  Res _ := True
  Taken _ := True
  Env n e := e < n

namespace Rooting

variable {root : FrameId} {m : Machine} {n : Nat}

theorem putAll {more : List (String × Value)} (hm : m.Rooted root)
    (hmore : (Rooting root).Binds m.store.size more) (e : FrameId) :
    ({ m with store := m.store.putAll e more } : Machine).Rooted root where
  root_lt := by simpa [Store.putAll] using hm.root_lt
  root_eq i hi := by
    have hlt : i < m.store.size := by simpa [Store.putAll] using hi
    simpa [Store.putAll] using hm.root_eq i hlt
  within i q hq := by
    have hsize : (m.store.putAll e more).size = m.store.size := Store.size_update _ _ _
    change q.2.Within (m.store.putAll e more).size
    rw [hsize]
    rcases Store.mem_bindings_putAll hq with hq | hq
    · exact (hmore q hq).2.1.1
    · exact hm.within i q hq

theorem alloc {b : Bindings} {e : FrameId} (hm : m.Rooted root) (he : e < m.store.size)
    (hb : ∀ q ∈ b, q.2.Within m.store.size) :
    ({ m with store := m.store.alloc b (some e) } : Machine).Rooted root := by
  have hsize : (m.store.alloc b (some e)).size = m.store.size + 1 := Store.size_alloc _ _ _
  constructor
  · change root < (m.store.alloc b (some e)).size
    rw [hsize]
    exact Nat.lt_succ_of_lt hm.root_lt
  · intro i hi
    change i < (m.store.alloc b (some e)).size at hi
    change (m.store.alloc b (some e)).root i = root
    rw [hsize] at hi
    rcases Nat.lt_or_eq_of_le (Nat.le_of_lt_succ hi) with hlt | rfl
    · rw [Store.root_alloc_of_lt hlt]
      exact hm.root_eq i hlt
    · rw [Store.root_alloc_some he]
      exact hm.root_eq e he
  · intro i q hq
    change q.2.Within (m.store.alloc b (some e)).size
    rw [hsize]
    refine Value.Within.mono ?_ (Nat.le_succ _)
    rcases Store.mem_bindings_alloc hq with hq | hq
    · exact hb q hq
    · exact hm.within i q hq

/-- Nothing more is asked of an argument than where its functions were made. -/
theorem arg_of_within {v : Value} (h : v.Within n) : (Rooting root).Arg n v :=
  ⟨⟨h, trivial⟩, trivial⟩

/-- **Evaluation keeps the one root.** -/
theorem sound (root : FrameId) (host : Host) : (Rooting root).Sound host where
  toValueLaws := .of_plain Value.plain_madeWithin (fun _ _ => trivial)
    (fun _ _ => trivial) (fun _ _ => trivial) host
  size_eq hm := congrArg (fun m => m.store.size) hm.1
  part_mono hk h := h.mono hk
  env_mono hk he := Nat.lt_of_lt_of_le he hk
  close _ he _ := ⟨_, rfl, he⟩
  await hf _ _ _ := hf.self
  lookup hm _ _ := by
    obtain ⟨rfl, hm⟩ := hm
    refine ⟨rfl, fun v hv => ⟨?_, trivial⟩⟩
    obtain ⟨i, -, hmem⟩ := Store.exists_mem_of_get? hv
    exact hm.within i _ hmem
  print _ hm := ⟨by rw [hm.1], ⟨hm.2.root_lt, hm.2.root_eq, hm.2.within⟩⟩
  note _ hm := ⟨by rw [hm.1], ⟨hm.2.root_lt, hm.2.root_eq, hm.2.within⟩⟩
  bind hm _ hmore := ⟨by rw [hm.1], putAll hm.2 hmore _⟩
  bindGlobal hm _ hmore := ⟨by rw [hm.1], putAll hm.2 hmore _⟩
  enter {_ _ f body own scope frame} hm hf hframe := by
    obtain ⟨rfl, hm⟩ := hm
    obtain ⟨⟨e, rfl, he⟩, -, hown⟩ := Value.all_lambda.mp hf
    refine ⟨⟨rfl, alloc hm he fun q hq => ?_⟩, Nat.lt_succ_self _⟩
    rcases hframe q hq with hq | ⟨-, hq⟩
    · exact hown q hq
    · exact hq.1.1

theorem reads (root : FrameId) : (Rooting root).Reads :=
  Coupling.reads_of_plain Value.plain_madeWithin fun _ _ => trivial

/-- Builtins may be bound. -/
theorem binds_library (root : FrameId) (n : Nat) (library : List Builtin) :
    (Rooting root).Binds n (libraryBindings library) := by
  intro q hq
  obtain ⟨b, -, rfl⟩ := List.mem_map.mp hq
  exact ⟨trivial, ⟨Value.all_of_parts_nil rfl trivial, trivial⟩, trivial⟩

theorem fresh (extended : Bool) : (Machine.fresh extended).Rooted 0 := by
  have hempty : ({ store := Store.empty.alloc [] none } : Machine).Rooted 0 := by
    constructor
    · exact Nat.zero_lt_one
    · intro i hi
      obtain rfl : i = 0 := Nat.lt_one_iff.mp hi
      exact Store.root_of_root rfl
    · intro i q hq
      rcases Store.mem_bindings_alloc hq with hq | hq
      · exact absurd hq List.not_mem_nil
      · exact absurd hq List.not_mem_nil
  have hcore := putAll hempty (binds_library 0 _ Builtin.core) 0
  cases extended with
  | false => exact ⟨hcore.root_lt, hcore.root_eq, hcore.within⟩
  | true =>
    have hboth := putAll hcore (binds_library 0 _ Builtin.extended) 0
    exact ⟨hboth.root_lt, hboth.root_eq, hboth.within⟩

end Rooting

/-- **A machine that a session can come to has one root.** -/
theorem Reachable.rooted {root : FrameId} {m : Machine} (h : Reachable root m) : m.Rooted root := by
  have hfresh : ∀ extended, (Rooting 0).Rel (.fresh extended) (.fresh extended) :=
    fun extended => ⟨rfl, Rooting.fresh extended⟩
  obtain ⟨rfl, hm, -⟩ := Coupling.Sound.reachable (Rooting.sound 0) (Rooting.reads 0)
    Nat.zero_lt_one hfresh h
  exact hm.2

end CurryLisp
