/-
# Chains of a store that grows

A frame keeps its place for good: making frames and changing bindings leaves the chain of every
older frame, and so its root, as they were.  A look-up reads the bindings along one chain and
nothing else.

* `chain_alloc_of_lt`, `root_alloc_of_lt`: making a frame moves no older frame;
* `root_alloc_self`: a new frame has the root of the frame it was made in, or is a root;
* `get?_congr`: stores that agree along a chain are looked up alike from its first frame;
* `get?_alloc_self`: what is found from a new frame.
-/
import CurryLisp.Env.Store
import Mathlib.Data.List.Find

namespace CurryLisp.Store

/-! ## 1. Chains -/

/-- Making a frame leaves the older frames inside the same frames. -/
theorem parent?_alloc_of_lt {s : Store} {e : Nat} (h : e < s.size) (b : Bindings)
    (parent : Option FrameId) : (s.alloc b parent).parent? e = s.parent? e := by
  have hne : e ≠ s.frames.size := Nat.ne_of_lt h
  simp [alloc, parent?, Array.getElem?_push, hne]

/-- A new frame is inside the frame it was made in, if there is that frame. -/
theorem parent?_alloc_self (s : Store) (b : Bindings) (parent : Option FrameId) :
    (s.alloc b parent).parent? s.size = parent.filter (· < s.size) := by
  simp [alloc, parent?, size]

/-- The frame around a frame is there. -/
theorem filter_parent? (s : Store) (e : FrameId) :
    (s.parent? e).filter (· < s.size) = s.parent? e := by
  cases hp : s.parent? e with
  | none => rfl
  | some p =>
    have hlt : p < s.size := by
      refine Nat.lt_of_not_le fun hle => ?_
      have hnone : s.parent? e = none :=
        parent?_of_size_le (Nat.le_trans hle (Nat.le_of_lt (parent?_lt hp)))
      rw [hp] at hnone
      cases hnone
    rw [Option.filter_some, if_pos (decide_eq_true hlt)]

/-- Stores whose frames are inside the same frames have the same chains. -/
theorem chain_congr {s t : Store} (h : ∀ i, s.parent? i = t.parent? i) (e : FrameId) :
    s.chain e = t.chain e := by
  induction e using Nat.strongRecOn with
  | ind e ih =>
    cases hp : s.parent? e with
    | none => rw [chain_of_root hp, chain_of_root ((h e).symm.trans hp)]
    | some p =>
      rw [chain_of_parent hp, chain_of_parent ((h e).symm.trans hp), ih p (parent?_lt hp)]

/-- Making a frame leaves the chains of the older frames as they are. -/
theorem chain_alloc_of_lt {s : Store} {e : Nat} (h : e < s.size) (b : Bindings)
    (parent : Option FrameId) : (s.alloc b parent).chain e = s.chain e := by
  induction e using Nat.strongRecOn with
  | ind e ih =>
    have hp : (s.alloc b parent).parent? e = s.parent? e := parent?_alloc_of_lt h b parent
    cases hs : s.parent? e with
    | none => rw [chain_of_root hs, chain_of_root (hp.trans hs)]
    | some p =>
      have hlt : p < e := parent?_lt hs
      rw [chain_of_parent hs, chain_of_parent (hp.trans hs), ih p hlt (Nat.lt_trans hlt h)]

/-- A chain begins with its own frame. -/
theorem mem_chain_self (s : Store) (e : FrameId) : e ∈ s.chain e := by
  rw [chain]
  split <;> simp

/-- What passes from each frame to the one around it holds along the chain. -/
theorem forall_mem_chain {s : Store} {p : FrameId → Prop}
    (hp : ∀ i j, p i → s.parent? i = some j → p j) {e : FrameId} (he : p e) :
    ∀ i ∈ s.chain e, p i := by
  induction e using Nat.strongRecOn with
  | ind e ih =>
    intro i hi
    cases h : s.parent? e with
    | none =>
      rw [chain_of_root h] at hi
      rw [List.mem_singleton.mp hi]
      exact he
    | some j =>
      rw [chain_of_parent h] at hi
      rcases List.mem_cons.mp hi with rfl | hi
      · exact he
      · exact ih j (parent?_lt h) (hp e j he h) i hi

/-- The chain of a frame of a chain belongs to it. -/
theorem mem_chain_of_parent? {s : Store} {e i p : FrameId} (h : i ∈ s.chain e)
    (hp : s.parent? i = some p) : p ∈ s.chain e := by
  induction e using Nat.strongRecOn with
  | ind e ih =>
    cases he : s.parent? e with
    | none =>
      rw [chain_of_root he] at h
      rw [List.mem_singleton.mp h, he] at hp
      cases hp
    | some q =>
      rw [chain_of_parent he] at h ⊢
      rcases List.mem_cons.mp h with rfl | h
      · rw [he] at hp
        cases hp
        exact List.mem_cons_of_mem _ (mem_chain_self s p)
      · exact List.mem_cons_of_mem _ (ih q (parent?_lt he) h)

/-- No frame of a chain is younger than the first. -/
theorem le_of_mem_chain {s : Store} {e i : FrameId} (h : i ∈ s.chain e) : i ≤ e :=
  forall_mem_chain (fun _ _ hi hj => Nat.le_trans (Nat.le_of_lt (parent?_lt hj)) hi)
    (Nat.le_refl e) i h

/-- A chain leads to ever older frames, so no frame occurs in it twice. -/
theorem chain_pairwise (s : Store) (e : FrameId) : (s.chain e).Pairwise (· > ·) := by
  induction e using Nat.strongRecOn with
  | ind e ih =>
    cases h : s.parent? e with
    | none =>
      rw [chain_of_root h]
      exact List.pairwise_singleton _ e
    | some p =>
      have hlt : p < e := parent?_lt h
      have holder : ∀ i ∈ s.chain p, i < e := fun i hi =>
        Nat.lt_of_le_of_lt (le_of_mem_chain hi) hlt
      rw [chain_of_parent h]
      exact List.pairwise_cons.mpr ⟨holder, ih p hlt⟩

/-! ## 2. Roots -/

/-- A frame without a frame around it is its own root. -/
theorem root_of_root {s : Store} {e : FrameId} (h : s.parent? e = none) : s.root e = e := by
  rw [root, chain_of_root h]
  rfl

/-- A frame has the root of the frame around it. -/
theorem root_of_parent {s : Store} {e p : FrameId} (h : s.parent? e = some p) :
    s.root e = s.root p := by
  rw [root, root, chain_of_parent h, List.getLastD_cons, List.getLastD_eq_getLast?,
    List.getLastD_eq_getLast?, List.getLast?_eq_some_getLast (chain_ne_nil s p)]
  rfl

/-- The root of an environment belongs to its chain. -/
theorem root_mem_chain (s : Store) (e : FrameId) : s.root e ∈ s.chain e := by
  rw [root, List.getLastD_eq_getLast?, List.getLast?_eq_some_getLast (chain_ne_nil s e)]
  exact List.getLast_mem (chain_ne_nil s e)

/-- The root of an environment is no younger than its innermost frame. -/
theorem root_le (s : Store) (e : FrameId) : s.root e ≤ e := le_of_mem_chain (root_mem_chain s e)

/-- The frames of a chain before its root. -/
theorem chain_eq_dropLast_append_root (s : Store) (e : FrameId) :
    s.chain e = (s.chain e).dropLast ++ [s.root e] := by
  rw [root, List.getLastD_eq_getLast?, List.getLast?_eq_some_getLast (chain_ne_nil s e),
    Option.getD_some, List.dropLast_concat_getLast]

/-- The frames of a chain before its root are not its root. -/
theorem ne_root_of_mem_dropLast {s : Store} {e i : FrameId} (h : i ∈ (s.chain e).dropLast) :
    i ≠ s.root e := by
  have hpair := chain_pairwise s e
  rw [chain_eq_dropLast_append_root] at hpair
  exact Nat.ne_of_gt ((List.pairwise_append.mp hpair).2.2 i h _ List.mem_cons_self)

/-- Changing bindings changes no root. -/
@[simp] theorem root_update (s : Store) (e i : FrameId) (change : Bindings → Bindings) :
    (s.update e change).root i = s.root i := by
  rw [root, root, chain_update]

/-- Making a frame leaves the roots of the older frames as they are. -/
theorem root_alloc_of_lt {s : Store} {e : Nat} (h : e < s.size) (b : Bindings)
    (parent : Option FrameId) : (s.alloc b parent).root e = s.root e := by
  rw [root, root, chain_alloc_of_lt h]

/-- The root of a frame that is not there is the frame itself. -/
theorem root_of_size_le {s : Store} {e : Nat} (h : s.size ≤ e) : s.root e = e :=
  root_of_root (parent?_of_size_le h)

/-- A frame made in a frame that is there has its root. -/
theorem root_alloc_some {s : Store} {p : Nat} (h : p < s.size) (b : Bindings) :
    (s.alloc b (some p)).root s.size = s.root p := by
  have hpar : (s.alloc b (some p)).parent? s.size = some p := by
    rw [parent?_alloc_self]
    exact Option.filter_eq_some_iff.mpr ⟨rfl, decide_eq_true h⟩
  rw [root_of_parent hpar, root_alloc_of_lt h]

/-- A new frame has the root of the frame it was made in, or is a root. -/
theorem root_alloc_self (s : Store) (b : Bindings) (parent : Option FrameId) :
    (s.alloc b parent).root s.size = s.size ∨
      ∃ p, parent = some p ∧ p < s.size ∧ (s.alloc b parent).root s.size = s.root p := by
  have hself := parent?_alloc_self s b parent
  cases hp : parent.filter (· < s.size) with
  | none => exact Or.inl (root_of_root (hself.trans hp))
  | some p =>
    obtain ⟨hpar, hlt⟩ := Option.filter_eq_some_iff.mp hp
    have hlt' : p < s.size := by simpa using hlt
    subst hpar
    exact Or.inr ⟨p, rfl, hlt', root_alloc_some hlt' b⟩

/-! ## 3. Look-ups -/

/-- A name is looked up alike in stores with the same chain from a frame if each frame of the chain
binds it alike. -/
theorem get?_congr_lookup {s t : Store} {e : FrameId} {x : String} (hc : s.chain e = t.chain e)
    (hb : ∀ i ∈ s.chain e, (s.bindings i).lookup x = (t.bindings i).lookup x) :
    s.get? e x = t.get? e x := by
  have hf : s.find? e x = t.find? e x := by
    rw [find?, find?, ← hc]
    exact List.find?_congr (fun i hi => by rw [hb i hi])
  cases hs : s.find? e x with
  | none => rw [get?, get?, ← hf, hs]; rfl
  | some i =>
    have hi : i ∈ s.chain e := List.mem_of_find?_eq_some hs
    rw [get?, get?, ← hf, hs, Option.bind_some, Option.bind_some, hb i hi]

/-- Stores with the same chain from a frame, and the same bindings along it, are looked up alike. -/
theorem get?_congr {s t : Store} {e : FrameId} (hc : s.chain e = t.chain e)
    (hb : ∀ i ∈ s.chain e, s.bindings i = t.bindings i) (x : String) :
    s.get? e x = t.get? e x :=
  get?_congr_lookup hc fun i hi => by rw [hb i hi]

/-- A name is looked up in a frame, and then from the frame around it. -/
theorem get?_of_parent {s : Store} {e p : FrameId} (h : s.parent? e = some p) (x : String) :
    s.get? e x = ((s.bindings e).lookup x).or (s.get? p x) := by
  rw [get?, get?, find?, find?, chain_of_parent h, List.find?_cons]
  cases hb : (s.bindings e).lookup x with
  | none => rfl
  | some v => exact hb

/-- A frame without a frame around it is all there is to look in. -/
theorem get?_of_root {s : Store} {e : FrameId} (h : s.parent? e = none) (x : String) :
    s.get? e x = (s.bindings e).lookup x := by
  rw [get?, find?, chain_of_root h, List.find?_singleton]
  cases hb : (s.bindings e).lookup x with
  | none => rfl
  | some v => exact hb

/-- Making a frame changes no look-up from an older one. -/
theorem get?_alloc_of_lt {s : Store} {e : Nat} (h : e < s.size) (b : Bindings)
    (parent : Option FrameId) (x : String) : (s.alloc b parent).get? e x = s.get? e x := by
  refine get?_congr (chain_alloc_of_lt h b parent) (fun i hi => ?_) x
  rw [chain_alloc_of_lt h] at hi
  exact bindings_alloc_of_lt (Nat.lt_of_le_of_lt (le_of_mem_chain hi) h) b parent

/-- **A name is looked up in a new frame**, and then from the frame it was made in. -/
theorem get?_alloc_self (s : Store) (b : Bindings) (parent : Option FrameId) (x : String) :
    (s.alloc b parent).get? s.size x = (b.lookup x).or (parent.bind fun p => s.get? p x) := by
  have hself := parent?_alloc_self s b parent
  cases parent with
  | none =>
    rw [get?_of_root hself, bindings_alloc_self]
    exact Option.or_none.symm
  | some p =>
    rcases Nat.lt_or_ge p s.size with hlt | hge
    · rw [Option.filter_some, if_pos (decide_eq_true hlt)] at hself
      rw [get?_of_parent hself, bindings_alloc_self, get?_alloc_of_lt hlt]
      rfl
    · -- A frame that is not there binds nothing.
      rw [Option.filter_some, if_neg (by simpa using hge)] at hself
      have hnone : s.get? p x = none := by
        rw [get?_of_root (parent?_of_size_le hge), bindings_of_size_le hge]
        rfl
      rw [get?_of_root hself, bindings_alloc_self, Option.bind_some, hnone, Option.or_none]

/-- A name that the root binds is found there unless a nearer frame binds it. -/
theorem find?_eq_root_iff {s : Store} {e : FrameId} {x : String}
    (hroot : ((s.bindings (s.root e)).lookup x).isSome = true) :
    s.find? e x = some (s.root e) ↔
      ∀ i ∈ (s.chain e).dropLast, ¬ ((s.bindings i).lookup x).isSome = true := by
  rw [find?, chain_eq_dropLast_append_root, List.find?_append, List.dropLast_concat]
  constructor
  · intro hfind i hi hbound
    cases hnear : (s.chain e).dropLast.find? fun j => ((s.bindings j).lookup x).isSome with
    | none => exact List.find?_eq_none.mp hnear i hi hbound
    | some j =>
      rw [hnear, Option.some_or] at hfind
      exact ne_root_of_mem_dropLast (List.mem_of_find?_eq_some hnear) (Option.some.inj hfind)
  · intro hnot
    rw [List.find?_eq_none.mpr hnot, Option.none_or, List.find?_singleton, hroot, if_pos rfl]

/-! ## 4. Bindings -/

/-- What a frame binds after names are bound in a frame. -/
theorem bindings_putAll (s : Store) (e : FrameId) (more : List (String × Value)) (i : Nat) :
    (s.putAll e more).bindings i =
      if i = e ∧ i < s.size then (s.bindings i).putAll more else s.bindings i := by
  by_cases hi : i = e
  · subst hi
    rcases Nat.lt_or_ge i s.size with hlt | hge
    · rw [putAll, bindings_update_self hlt, if_pos ⟨rfl, hlt⟩]
    · rw [bindings_of_size_le (by rw [putAll, size_update]; exact hge), if_neg (by omega),
        bindings_of_size_le hge]
  · rw [putAll, bindings_update_ne s hi, if_neg fun h => hi h.1]

/-- What a frame binds after a frame is made. -/
theorem bindings_alloc (s : Store) (b : Bindings) (parent : Option FrameId) (i : Nat) :
    (s.alloc b parent).bindings i = if i = s.size then b else s.bindings i := by
  rcases Nat.lt_trichotomy i s.size with hlt | rfl | hgt
  · rw [bindings_alloc_of_lt hlt, if_neg (Nat.ne_of_lt hlt)]
  · rw [bindings_alloc_self, if_pos rfl]
  · rw [bindings_of_size_le (by rw [size_alloc]; exact hgt), if_neg (Nat.ne_of_gt hgt),
      bindings_of_size_le (Nat.le_of_lt hgt)]

/-! ## 5. Two stores

What is done to stores of one size does not tell them apart where they agree. -/

section TwoStores

variable {s t : Store} {i : Nat}

theorem bindings_putAll_congr (hsize : s.size = t.size) (h : s.bindings i = t.bindings i)
    (e : FrameId) (more : List (String × Value)) :
    (s.putAll e more).bindings i = (t.putAll e more).bindings i := by
  rw [bindings_putAll, bindings_putAll, hsize, h]

theorem bindings_alloc_congr (hsize : s.size = t.size) (h : s.bindings i = t.bindings i)
    (b : Bindings) (parent : Option FrameId) :
    (s.alloc b parent).bindings i = (t.alloc b parent).bindings i := by
  rw [bindings_alloc, bindings_alloc, hsize, h]

theorem parent?_alloc_congr (hsize : s.size = t.size) (h : s.parent? i = t.parent? i)
    (b : Bindings) (parent : Option FrameId) :
    (s.alloc b parent).parent? i = (t.alloc b parent).parent? i := by
  rcases Nat.lt_trichotomy i s.size with hlt | rfl | hgt
  · rw [parent?_alloc_of_lt hlt, parent?_alloc_of_lt (hsize ▸ hlt), h]
  · rw [parent?_alloc_self, hsize, parent?_alloc_self]
  · rw [parent?_of_size_le (by rw [size_alloc]; exact hgt),
      parent?_of_size_le (by rw [size_alloc, ← hsize]; exact hgt)]

end TwoStores

end CurryLisp.Store
