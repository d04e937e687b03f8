/-
# Frames and environments

The store holds every frame that has been made, numbered in the order in which they were made.  A
frame has its own bindings and, unless it is a root, a frame around it.  The frame around a frame
is older than it, so the way from a frame outwards always ends; that is part of the type.

An environment is the number of its innermost frame.  Everything about an environment is said of
its `chain`, the frames from the innermost outwards:

* `find?` is the first frame of the chain that binds a name, and `get?` what it binds it to;
* `root` is the last frame of the chain.

`bindings_alloc_of_lt`, `bindings_update_ne` and `chain_update` say that making and changing frames
leaves the others alone; `mem_bindings_alloc` and `mem_bindings_putAll` say where a binding comes from.
-/
import CurryLisp.Env.Bindings
import CurryLisp.Value.Printed

namespace CurryLisp

/-! ## 1. The store -/

/-- A frame: its bindings, and the frame around it. -/
structure Frame where
  bindings : Bindings := []
  parent : Option FrameId := none

/-- All frames, each of them younger than the frame around it. -/
structure Store where
  frames : Array Frame
  parent_lt : ∀ (i : Nat) (h : i < frames.size) (p : Nat), frames[i].parent = some p → p < i

namespace Store

/-- The store without frames. -/
def empty : Store := ⟨#[], fun _ h => absurd h (Nat.not_lt_zero _)⟩

/-- How many frames there are. -/
def size (s : Store) : Nat := s.frames.size

/-- The bindings of a frame. -/
def bindings (s : Store) (e : FrameId) : Bindings := (s.frames[e]?.map Frame.bindings).getD []

/-- The frame around a frame. -/
def parent? (s : Store) (e : FrameId) : Option FrameId := s.frames[e]?.bind Frame.parent

/-- The frame around a frame is older than it. -/
theorem parent?_lt {s : Store} {e p : Nat} (h : s.parent? e = some p) : p < e := by
  simp only [parent?, Option.bind_eq_some_iff] at h
  obtain ⟨f, hf, hp⟩ := h
  obtain ⟨hlt, rfl⟩ := Array.getElem?_eq_some_iff.1 hf
  exact s.parent_lt e hlt p hp

/-! ## 2. Making and changing frames -/

/-- Makes a frame inside another one.  Its number is the number of frames before. -/
def alloc (s : Store) (b : Bindings) (parent : Option FrameId) : Store where
  frames := s.frames.push ⟨b, parent.filter (· < s.size)⟩
  parent_lt := by
    intro i h p hp
    rw [Array.getElem_push] at hp
    split at hp
    · exact s.parent_lt i _ p hp
    · next hge =>
      have hlt : p < s.size := by
        simpa using (Option.filter_eq_some_iff.1 hp).2
      simp only [Array.size_push] at h
      simp only [size] at hlt
      omega

/-- Changes the bindings of a frame. -/
def update (s : Store) (e : FrameId) (change : Bindings → Bindings) : Store where
  frames := s.frames.modify e (fun f => { f with bindings := change f.bindings })
  parent_lt := by
    intro i h p hp
    rw [Array.getElem_modify] at hp
    simp only [Array.size_modify] at h
    split at hp
    · exact s.parent_lt i h p hp
    · exact s.parent_lt i h p hp

/-- Binds a name in a frame. -/
def put (s : Store) (e : FrameId) (x : String) (v : Value) : Store :=
  s.update e (Bindings.put x v)

/-- Binds names in a frame, one after the other. -/
def putAll (s : Store) (e : FrameId) (more : List (String × Value)) : Store :=
  s.update e (fun b => b.putAll more)

/-- Makes a frame with the same bindings and the same frame around it. -/
def copy (s : Store) (e : FrameId) : Store := s.alloc (s.bindings e) (s.parent? e)

/-! ## 3. Chains -/

/-- A frame, the frame around it, and so on outwards. -/
def chain (s : Store) (e : FrameId) : List FrameId :=
  match _h : s.parent? e with
  | none => [e]
  | some p => e :: s.chain p
termination_by e
decreasing_by exact parent?_lt _h

/-- The first frame of the chain that binds a name. -/
def find? (s : Store) (e : FrameId) (x : String) : Option FrameId :=
  (s.chain e).find? (fun i => ((s.bindings i).lookup x).isSome)

/-- What a name is bound to. -/
def get? (s : Store) (e : FrameId) (x : String) : Option Value :=
  (s.find? e x).bind (fun i => (s.bindings i).lookup x)

/-- The last frame of the chain. -/
def root (s : Store) (e : FrameId) : FrameId := (s.chain e).getLastD e

/-- The chain of a frame without a frame around it. -/
theorem chain_of_root {s : Store} {e : FrameId} (h : s.parent? e = none) : s.chain e = [e] := by
  rw [chain]
  split <;> simp_all

/-- The chain of a frame inside another one. -/
theorem chain_of_parent {s : Store} {e p : FrameId} (h : s.parent? e = some p) :
    s.chain e = e :: s.chain p := by
  rw [chain]
  split <;> simp_all

/-- A chain is never empty. -/
theorem chain_ne_nil (s : Store) (e : FrameId) : s.chain e ≠ [] := by
  rw [chain]
  split <;> simp

/-! ## 4. What making and changing frames does

Neither moves a frame to another place: chains stay as they are. -/

@[simp] theorem size_alloc (s : Store) (b : Bindings) (parent : Option FrameId) :
    (s.alloc b parent).size = s.size + 1 := by
  simp [alloc, size]

@[simp] theorem size_update (s : Store) (e : FrameId) (change : Bindings → Bindings) :
    (s.update e change).size = s.size := by
  simp [update, size]

/-- A new frame has the bindings it was made with. -/
@[simp] theorem bindings_alloc_self (s : Store) (b : Bindings) (parent : Option FrameId) :
    (s.alloc b parent).bindings s.size = b := by
  simp [alloc, bindings, size]

/-- Making a frame changes no other frame. -/
theorem bindings_alloc_of_lt {s : Store} {e : Nat} (h : e < s.size) (b : Bindings)
    (parent : Option FrameId) : (s.alloc b parent).bindings e = s.bindings e := by
  have hne : e ≠ s.frames.size := Nat.ne_of_lt h
  simp [alloc, bindings, Array.getElem?_push, hne]

/-- A frame that is there is changed as asked. -/
theorem bindings_update_self {s : Store} {e : Nat} (h : e < s.size)
    (change : Bindings → Bindings) : (s.update e change).bindings e = change (s.bindings e) := by
  have hlt : e < s.frames.size := h
  simp [update, bindings, Array.getElem_modify, hlt]

/-- Changing a frame changes no other frame. -/
theorem bindings_update_ne (s : Store) {e i : FrameId} (h : i ≠ e)
    (change : Bindings → Bindings) : (s.update e change).bindings i = s.bindings i := by
  simp [update, bindings, Array.getElem?_modify, Ne.symm h]

/-- Changing bindings leaves every frame inside the same frame. -/
@[simp] theorem parent?_update (s : Store) (e i : FrameId) (change : Bindings → Bindings) :
    (s.update e change).parent? i = s.parent? i := by
  simp only [update, parent?, Array.getElem?_modify]
  split
  · subst e
    cases s.frames[i]? <;> rfl
  · rfl

/-- Changing bindings changes no chain. -/
@[simp] theorem chain_update (s : Store) (e i : FrameId) (change : Bindings → Bindings) :
    (s.update e change).chain i = s.chain i := by
  induction i using Nat.strongRecOn with
  | ind i ih =>
    cases h : s.parent? i with
    | none => rw [chain_of_root h, chain_of_root (by simpa using h)]
    | some p =>
      rw [chain_of_parent h, chain_of_parent (p := p) (by simpa using h), ih p (parent?_lt h)]

/-- A frame that is not there binds nothing. -/
theorem bindings_of_size_le {s : Store} {e : Nat} (h : s.size ≤ e) : s.bindings e = [] := by
  have hle : s.frames.size ≤ e := h
  simp [bindings, hle]

/-- A frame that is not there is inside no other. -/
theorem parent?_of_size_le {s : Store} {e : Nat} (h : s.size ≤ e) : s.parent? e = none := by
  have hle : s.frames.size ≤ e := h
  simp [parent?, hle]

/-- What a frame binds after a frame is made was bound there before, or the frame is the new one. -/
theorem mem_bindings_alloc {s : Store} {b : Bindings} {parent : Option FrameId} {e : FrameId}
    {q : String × Value} (h : q ∈ (s.alloc b parent).bindings e) : q ∈ b ∨ q ∈ s.bindings e := by
  rcases Nat.lt_trichotomy e s.size with hlt | rfl | hgt
  · exact Or.inr (bindings_alloc_of_lt hlt b parent ▸ h)
  · exact Or.inl (bindings_alloc_self s b parent ▸ h)
  · rw [bindings_of_size_le (by rw [size_alloc]; exact hgt)] at h
    exact absurd h List.not_mem_nil

/-- What a frame binds after names are bound was bound there before, or is one of the new bindings. -/
theorem mem_bindings_putAll {s : Store} {e i : FrameId} {more : List (String × Value)}
    {q : String × Value} (h : q ∈ (s.putAll e more).bindings i) : q ∈ more ∨ q ∈ s.bindings i := by
  by_cases hi : i = e
  · subst hi
    rcases Nat.lt_or_ge i s.size with hlt | hge
    · rw [putAll, bindings_update_self hlt] at h
      exact Bindings.mem_putAll h
    · rw [bindings_of_size_le (by simpa [putAll] using hge)] at h
      exact absurd h List.not_mem_nil
  · rw [putAll, bindings_update_ne s hi] at h
    exact Or.inr h

/-- What a look-up finds is bound in a frame of the chain. -/
theorem exists_mem_of_get? {s : Store} {e : FrameId} {x : String} {v : Value}
    (h : s.get? e x = some v) : ∃ i ∈ s.chain e, (x, v) ∈ s.bindings i := by
  obtain ⟨i, hi, hv⟩ := Option.bind_eq_some_iff.mp h
  exact ⟨i, List.mem_of_find?_eq_some hi, Bindings.mem_of_lookup hv⟩

/-! ## 5. Shown -/

/-- The bindings of a frame between curly brackets. -/
def frameText (b : Bindings) : String :=
  "\x7b" ++ String.intercalate ", " (b.map (fun p => p.1 ++ ": " ++ p.2.text)) ++ "\x7d"

/-- An environment as it is printed: its innermost frame, and whether there is more around it. -/
def text (s : Store) (e : FrameId) : String :=
  frameText (s.bindings e) ++ if (s.parent? e).isSome then " -> ..." else ""

/-- An environment as a debugger shows it: all frames of its chain. -/
def inspect (s : Store) (e : FrameId) : String :=
  "<Environment chain: " ++
    String.intercalate " -> " ((s.chain e).map (fun i => frameText (s.bindings i))) ++ ">"

end Store

end CurryLisp
