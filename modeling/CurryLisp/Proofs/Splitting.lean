/-
# Splitting

A quoted list is split at every cell that is the same as a value.  The cells are looked at from left to
right, and the pieces grow by those that are kept (`Lists.cut`).  Every cell goes into a piece or ends
one, so a delimiter at an end of the list, or next to another one, makes an empty piece, and the pieces
with the delimiter between them are the list again.  They are not always equal to it: cells that are
the same as the delimiter may differ from it in what is not compared.

A text is split at every occurrence of a character.  This is the splitting of lists on the characters
of the text.

* `Lists.cut_cons`: what one element does to the pieces;
* `Lists.sameCells_flatten_intersperse`: joining the pieces, by induction on the list;
* `Operator.split_string`, `Operator.split_letters`: a text and its list of characters.

The main statement is `splitting_loses_nothing`.
-/
import CurryLisp.Proofs.Answers
import CurryLisp.Proofs.Parameters
import CurryLisp.Proofs.Sameness

namespace CurryLisp

/-! ## 1. Pieces -/

namespace Lists

variable {α β : Type} {p : α → Bool}

/-- One element more in front makes an empty piece, or goes to the first piece. -/
theorem cut_cons (p : α → Bool) (a : α) (as : List α) :
    cut p (a :: as) = if p a then [] :: cut p as else (cut p as).modifyHead (a :: ·) := by
  rw [cut_eq_splitOnP, cut_eq_splitOnP, List.splitOnP_cons_eq_if_modifyHead]

/-- There is always a first piece. -/
theorem exists_cut_eq_cons (p : α → Bool) (as : List α) : ∃ c cs, cut p as = c :: cs := by
  rw [cut_eq_splitOnP]
  exact List.exists_cons_of_ne_nil (List.splitOnP_ne_nil p as)

/-- There is one piece more than there are elements to cut at. -/
theorem length_cut (p : α → Bool) (as : List α) : (cut p as).length = as.countP p + 1 := by
  induction as with
  | nil => rfl
  | cons a rest ih =>
    rw [cut_cons, List.countP_cons]
    split
    · rw [List.length_cons, ih]
    · rw [List.length_modifyHead, ih, Nat.add_zero]

/-- Elements can be replaced one by one before or after a list is cut. -/
theorem cut_map (p : β → Bool) (f : α → β) (as : List α) :
    cut p (as.map f) = (cut (fun a => p (f a)) as).map (List.map f) := by
  induction as with
  | nil => rfl
  | cons a rest ih =>
    obtain ⟨c, cs, hcut⟩ := exists_cut_eq_cons (fun a => p (f a)) rest
    rw [List.map_cons, cut_cons, cut_cons, ih, hcut]
    split <;> rfl

/-- **The pieces with the delimiter between them** are the same as the list. -/
theorem sameCells_flatten_intersperse (d : Value) (cells : List Value) :
    Value.sameCells ((cut (·.same d) cells).intersperse [d]).flatten cells = true := by
  induction cells with
  | nil => rfl
  | cons v rest ih =>
    obtain ⟨c, cs, hcut⟩ := exists_cut_eq_cons (·.same d) rest
    rw [hcut] at ih
    rw [cut_cons, hcut]
    split
    · next hsame =>
      -- The delimiter stands for the cell, which is the same.
      have hdelimiter : d.same v = true := Value.same_equivalence.symm hsame
      exact Bool.and_eq_true_iff.mpr ⟨hdelimiter, ih⟩
    · have hfirst : ((((v :: c) :: cs).intersperse [d]).flatten) =
          v :: ((c :: cs).intersperse [d]).flatten := by
        cases cs <;> rfl
      rw [List.modifyHead_cons, hfirst]
      exact Bool.and_eq_true_iff.mpr ⟨Value.same_self v, ih⟩

end Lists

/-! ## 2. Operators -/

namespace Value

/-- The text of one character. -/
def letter (c : Char) : Value := .string (String.singleton c)

/-- Characters are the same when they are equal. -/
theorem same_letter (b c : Char) : (letter b).same (letter c) = (b == c) := by
  rw [Bool.eq_iff_iff]
  simp [letter, Value.same, String.singleton_inj]

end Value

namespace Operator

open Value (letter same_letter)

/-- Joining quoted lists appends their cells. -/
theorem run_join (lists : List (List Value)) :
    join.run (lists.map .qexpr) = .ok (.qexpr lists.flatten) := by
  have htake : Variant.qexpr.takeAll join.name (lists.map .qexpr) = .ok lists :=
    (Variant.takeAll_eq_ok Variant.qexpr_makes).mpr rfl
  rw [run, Lists.join, htake]
  rfl

theorem run_chars (s : String) :
    chars.run [.string s] = .ok (.qexpr (s.toList.map letter)) := rfl

/-- A text is split at the places of a character. -/
theorem split_string (c : Char) (s : String) : split.run [letter c, .string s] =
    .ok (.qexpr ((s.toList.splitOn c).map fun cs => .string (String.ofList cs))) := by
  have hone : (String.singleton c).toList = [c] := String.toList_singleton c
  rw [run, letter, Lists.split, hone]

/-- The characters of a text are split at the same places. -/
theorem split_letters (c : Char) (s : String) : split.run [letter c, .qexpr (s.toList.map letter)] =
    .ok (.qexpr ((s.toList.splitOn c).map fun cs => .qexpr (cs.map letter))) := by
  have hcut : Lists.cut (·.same (letter c)) (s.toList.map letter) =
      (s.toList.splitOn c).map (List.map letter) := by
    rw [Lists.cut_map, Lists.cut_eq_splitOnP]
    simp only [same_letter]
    rfl
  change Except.ok (Value.qexpr ((Lists.cut (·.same (letter c)) (s.toList.map letter)).map .qexpr)) = _
  rw [hcut, List.map_map]
  rfl

end Operator

/-! ## 3. The theorem -/

/-- **Splitting loses nothing.**

1. A quoted list that is split at a value gives quoted lists, one more than there are cells that are
   the same as the value.  None of them has such a cell.  Joined with the value between them they are
   the same as the list, and together they hold the other cells of the list itself, in order.
2. A text that is split at a character gives texts, and their lists of characters are what the list of
   its characters gives when it is split at the same character. -/
theorem splitting_loses_nothing :
    (∀ (d : Value) (cells : List Value), ∃ chunks : List (List Value),
      Operator.split.run [d, .qexpr cells] = .ok (.qexpr (chunks.map .qexpr)) ∧
      chunks.length = cells.countP (·.same d) + 1 ∧
      (∀ chunk ∈ chunks, ∀ v ∈ chunk, v.same d = false) ∧
      (∃ joined, Operator.join.run ((chunks.intersperse [d]).map .qexpr) = .ok (.qexpr joined) ∧
        (Value.qexpr joined).same (.qexpr cells) = true) ∧
      chunks.flatten = cells.filter (fun v => !v.same d)) ∧
    ∀ (c : Char) (s : String), ∃ letters parts chunks : List Value,
      Operator.chars.run [.string s] = .ok (.qexpr letters) ∧
      Operator.split.run [.string (String.singleton c), .string s] = .ok (.qexpr parts) ∧
      Operator.split.run [.string (String.singleton c), .qexpr letters] = .ok (.qexpr chunks) ∧
      List.Forall₂ (fun part chunk => Operator.chars.run [part] = .ok chunk) parts chunks := by
  constructor
  · intro d cells
    refine ⟨Lists.cut (·.same d) cells, rfl, Lists.length_cut _ cells, fun chunk hchunk v hv => ?_,
      ⟨_, Operator.run_join _, Lists.sameCells_flatten_intersperse d cells⟩,
      Lists.flatten_cut _ cells⟩
    exact (Lists.mem_of_mem_cut (p := (·.same d)) hchunk hv).2
  · intro c s
    refine ⟨_, _, _, Operator.run_chars s, Operator.split_string c s, Operator.split_letters c s, ?_⟩
    rw [List.forall₂_map_left_iff, List.forall₂_map_right_iff, List.forall₂_same]
    intro cs _
    rw [Operator.run_chars, String.toList_ofList]

/-- Errors of another kind are cut at all the same, and there are empty pieces at both ends. -/
example : Operator.split.run [.error "m" .user, .qexpr [.error "m" .overflow, .number 1, .error "m" .user]] =
    .ok (.qexpr [.qexpr [], .qexpr [.number 1], .qexpr []]) := by
  rfl

end CurryLisp
