/-
# Bindings

The names bound in one frame, in the order in which they were first bound.  Binding a name again
changes its value and keeps its place.

* `lookup_put_self`, `lookup_put_ne`: what binding does to a look-up;
* `names_put`: what it does to the order of names;
* `lookup_putAll_of_not_mem`: binding many names leaves the other names alone;
* `mem_putAll`, `mem_of_lookup`: what is bound was bound by somebody.
-/
import CurryLisp.Value

namespace CurryLisp

/-- Names with their values, in the order in which the names were first bound. -/
abbrev Bindings := List (String × Value)

namespace Bindings

/-- Binds a name: in place if it is bound, at the end otherwise. -/
def put (x : String) (v : Value) : Bindings → Bindings
  | [] => [(x, v)]
  | (y, w) :: rest => if y = x then (y, v) :: rest else (y, w) :: put x v rest

/-- Binds names one after the other. -/
def putAll (b : Bindings) (more : List (String × Value)) : Bindings :=
  more.foldl (fun b p => b.put p.1 p.2) b

/-- The names, in order. -/
def names (b : Bindings) : List String := b.map Prod.fst

@[simp] theorem putAll_nil (b : Bindings) : b.putAll [] = b := rfl

@[simp] theorem putAll_cons (b : Bindings) (x : String) (v : Value)
    (more : List (String × Value)) :
    b.putAll ((x, v) :: more) = (b.put x v).putAll more := rfl

theorem putAll_append (b : Bindings) (xs ys : List (String × Value)) :
    b.putAll (xs ++ ys) = (b.putAll xs).putAll ys := by
  simp [putAll]

/-- A name that was just bound has its new value. -/
@[simp] theorem lookup_put_self (b : Bindings) (x : String) (v : Value) :
    (b.put x v).lookup x = some v := by
  induction b with
  | nil => simp [put]
  | cons p rest ih =>
    obtain ⟨y, w⟩ := p
    by_cases h : y = x
    · simp [put, h]
    · have h' : (x == y) = false := by simpa using fun e => h e.symm
      simp [put, h, List.lookup_cons, h', ih]

/-- Binding a name leaves the other names alone. -/
theorem lookup_put_ne (b : Bindings) {x y : String} (v : Value) (h : y ≠ x) :
    (b.put x v).lookup y = b.lookup y := by
  have hx : (y == x) = false := by simpa using h
  induction b with
  | nil => simp [put, List.lookup_cons, hx]
  | cons p rest ih =>
    obtain ⟨z, w⟩ := p
    by_cases hz : z = x
    · subst z
      simp [put, List.lookup_cons, hx]
    · simp only [put, hz, if_false, List.lookup_cons, ih]

/-- A new name comes last, and a name that is bound keeps its place. -/
theorem names_put (b : Bindings) (x : String) (v : Value) :
    (b.put x v).names = if x ∈ b.names then b.names else b.names ++ [x] := by
  induction b with
  | nil => simp [put, names]
  | cons p rest ih =>
    obtain ⟨y, w⟩ := p
    simp only [names] at ih
    by_cases h : y = x
    · simp [put, h, names]
    · have h' : ¬ x = y := fun e => h e.symm
      by_cases hx : x ∈ rest.map Prod.fst <;>
        simp only [put, h, if_false, names, List.map_cons, ih, List.mem_cons, h', false_or, hx,
          if_true, List.cons_append]

/-- Binding many names leaves the other names alone. -/
theorem lookup_putAll_of_not_mem (b : Bindings) {more : List (String × Value)} {y : String}
    (h : y ∉ more.map Prod.fst) : (b.putAll more).lookup y = b.lookup y := by
  induction more generalizing b with
  | nil => rfl
  | cons p rest ih =>
    obtain ⟨x, v⟩ := p
    simp only [List.map_cons, List.mem_cons, not_or] at h
    rw [putAll_cons, ih _ h.2, lookup_put_ne _ _ h.1]

/-- What a frame binds after a name is bound was bound before, or is the new binding. -/
theorem mem_put {b : Bindings} {x : String} {v : Value} {q : String × Value}
    (h : q ∈ b.put x v) : q = (x, v) ∨ q ∈ b := by
  induction b with
  | nil => exact Or.inl (List.mem_singleton.mp h)
  | cons p rest ih =>
    obtain ⟨y, w⟩ := p
    by_cases hy : y = x
    · subst hy
      rw [put, if_pos rfl] at h
      rcases List.mem_cons.mp h with h | h
      · exact Or.inl h
      · exact Or.inr (List.mem_cons_of_mem _ h)
    · rw [put, if_neg hy] at h
      rcases List.mem_cons.mp h with h | h
      · exact Or.inr (h ▸ List.mem_cons_self)
      · exact (ih h).imp_right (List.mem_cons_of_mem _)

/-- What a frame binds after many names are bound is one of the new bindings or an old one. -/
theorem mem_putAll {b : Bindings} {more : List (String × Value)} {q : String × Value}
    (h : q ∈ b.putAll more) : q ∈ more ∨ q ∈ b := by
  induction more generalizing b with
  | nil => exact Or.inr h
  | cons p rest ih =>
    obtain ⟨x, v⟩ := p
    rw [putAll_cons] at h
    rcases ih h with h | h
    · exact Or.inl (List.mem_cons_of_mem _ h)
    · rcases mem_put h with rfl | h
      · exact Or.inl List.mem_cons_self
      · exact Or.inr h

/-- What a look-up finds is bound. -/
theorem mem_of_lookup {b : Bindings} {x : String} {v : Value} (h : b.lookup x = some v) :
    (x, v) ∈ b := by
  obtain ⟨l₁, l₂, rfl, -⟩ := List.lookup_eq_some_iff.mp h
  simp

end Bindings

end CurryLisp
