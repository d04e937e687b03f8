/-
# Sorting and choosing

Sorting puts the numbers of a list in ascending order and neither adds nor drops any.  There is only one
such order (`Numbers.ascending_eq`), so it does not matter how the numbers stood before, and sorting
again changes nothing.  The smallest and the largest number, which are chosen one by one from left to
right, are the ends of the sorted list.

* `Numbers.min?_of_ascending`, `Numbers.max?_of_ascending`: the ends of numbers in ascending order;
* `Operator.run_sort`, `Operator.run_min`, `Operator.run_max`: the operators on numbers;
* `Value.exists_numbers_of_perm`: numbers in another order are numbers.

The main statement is `sorting_agrees_with_choosing`.
-/
import CurryLisp.Proofs.Arithmetic
import CurryLisp.Proofs.Calls
import Mathlib.Data.List.Pairwise
import Mathlib.Data.List.Perm.Basic
import Mathlib.Data.Set.List

namespace CurryLisp

/-! ## 1. Ascending numbers -/

namespace Numbers

/-- Numbers in ascending order. -/
def ascending (ns : List Int) : List Int := ns.mergeSort fun a b => decide (a ≤ b)

variable {ns ms : List Int} {n : Int}

/-- No number is added or dropped. -/
theorem ascending_perm (ns : List Int) : (ascending ns).Perm ns := List.mergeSort_perm ns _

/-- No number is larger than one after it. -/
theorem ascending_pairwise (ns : List Int) : (ascending ns).Pairwise (· ≤ ·) := by
  have htrans : ∀ a b c : Int, decide (a ≤ b) = true → decide (b ≤ c) = true →
      decide (a ≤ c) = true := by
    simp only [decide_eq_true_eq]
    exact fun a b c => Int.le_trans
  have htotal : ∀ a b : Int, (decide (a ≤ b) || decide (b ≤ a)) = true := by
    simp only [Bool.or_eq_true, decide_eq_true_eq]
    exact Int.le_total
  exact (List.pairwise_mergeSort htrans htotal ns).imp of_decide_eq_true

/-- **There is one ascending order.** -/
theorem ascending_eq (hperm : ms.Perm ns) (hms : ms.Pairwise (· ≤ ·)) : ascending ns = ms :=
  List.Perm.eq_of_pairwise (fun _ _ _ _ => Int.le_antisymm) (ascending_pairwise ns) hms
    ((ascending_perm ns).trans hperm.symm)

/-- So it does not matter in which order the numbers stood. -/
theorem ascending_of_perm (h : ms.Perm ns) : ascending ms = ascending ns :=
  ascending_eq ((ascending_perm ns).trans h.symm) (ascending_pairwise ns)

/-- **The first of ascending numbers is the smallest**, also when they stand in another order. -/
theorem min?_of_ascending (h : (n :: ns).Pairwise (· ≤ ·)) (hperm : ms.Perm (n :: ns)) :
    ms.min? = some n := by
  rw [List.min?_eq_some_iff]
  refine ⟨hperm.mem_iff.mpr List.mem_cons_self, fun b hb => ?_⟩
  rcases List.mem_cons.mp (hperm.mem_iff.mp hb) with rfl | hb
  · exact Int.le_refl b
  · exact List.rel_of_pairwise_cons h hb

/-- **The last of ascending numbers is the largest**, also when they stand in another order. -/
theorem max?_of_ascending (h : (n :: ns).Pairwise (· ≤ ·)) (hperm : ms.Perm (n :: ns)) :
    ms.max? = some (ns.getLastD n) := by
  have hlast : ns.getLastD n = (n :: ns).getLast (List.cons_ne_nil n ns) :=
    (List.getLast_eq_getLastD _).symm
  rw [List.max?_eq_some_iff]
  refine ⟨hperm.mem_iff.mpr List.getLastD_mem_cons, fun b hb => ?_⟩
  rw [hlast]
  exact h.rel_getLast (hperm.mem_iff.mp hb)

end Numbers

/-- Numbers in another order are numbers. -/
theorem Value.exists_numbers_of_perm {cells : List Value} {ns : List Int}
    (h : cells.Perm (ns.map .number)) : ∃ ms : List Int, cells = ms.map .number ∧ ms.Perm ns := by
  have hnumbers : cells ∈ Set.range (List.map Value.number) := by
    rw [Set.range_list_map]
    intro v hv
    obtain ⟨n, -, hn⟩ := List.mem_map.mp (h.mem_iff.mp hv)
    exact ⟨n, hn⟩
  obtain ⟨ms, rfl⟩ := hnumbers
  exact ⟨ms, rfl, (List.map_perm_map_iff fun _ _ he => Value.number.inj he).mp h⟩

/-! ## 2. The operators -/

namespace Operator

/-- The cells of a list are taken as numbers, and these are put in order. -/
theorem run_sort_cells (cells : List Value) : sort.run [.qexpr cells] =
    (Variant.number.takeAll sort.name cells).bind fun ns =>
      .ok (.qexpr ((Numbers.ascending ns).map .number)) := rfl

/-- Numbers are sorted. -/
theorem run_sort (ns : List Int) :
    sort.run [.qexpr (ns.map .number)] = .ok (.qexpr ((Numbers.ascending ns).map .number)) := by
  have htake : Variant.number.takeAll sort.name (ns.map .number) = .ok ns :=
    (Variant.takeAll_eq_ok Variant.number_makes).mpr rfl
  rw [run_sort_cells, htake]
  rfl

/-- A list with a cell that is no number is refused for the first such cell. -/
theorem run_sort_of_not_number {front rest : List Value} {v : Value}
    (hfront : ∀ w ∈ front, w.shape = .number) (hv : v.shape ≠ .number) :
    sort.run [.qexpr (front ++ v :: rest)] =
      .error (.wrongType "sort" front.length (.shape .number) v.shape) := by
  rw [run_sort_cells, Variant.takeAll_number_eq_error hfront hv]
  rfl

/-- What is chosen from left to right. -/
theorem select_numbers (func : String) (pick : Int → Int → Int) (n : Int) (ns : List Int) :
    Numbers.select func pick ((n :: ns).map .number) = .ok (.number (ns.foldl pick n)) := by
  have htake : Variant.number.takeAll func ((n :: ns).map .number) = .ok (n :: ns) :=
    (Variant.takeAll_eq_ok Variant.number_makes).mpr rfl
  rw [List.map_cons] at htake ⊢
  rw [Numbers.select, htake]
  · rfl
  · nofun

/-- The smallest number is chosen. -/
theorem run_min {ns : List Int} {n : Int} (h : ns.min? = some n) :
    min.run (ns.map .number) = .ok (.number n) := by
  cases ns with
  | nil => cases h
  | cons m ms =>
    rw [List.min?_cons'] at h
    cases h
    exact select_numbers _ _ m ms

/-- The largest number is chosen. -/
theorem run_max {ns : List Int} {n : Int} (h : ns.max? = some n) :
    max.run (ns.map .number) = .ok (.number n) := by
  cases ns with
  | nil => cases h
  | cons m ms =>
    rw [List.max?_cons'] at h
    cases h
    exact select_numbers _ _ m ms

/-- The list of the first cell. -/
theorem run_head (v : Value) (cells : List Value) :
    head.run [.qexpr (v :: cells)] = .ok (.qexpr [v]) := rfl

/-- The list of the last cell. -/
theorem run_last_numbers (n : Int) (ns : List Int) :
    last.run [.qexpr ((n :: ns).map .number)] = .ok (.qexpr [.number (ns.getLastD n)]) := by
  change Except.ok (Value.qexpr [(ns.map Value.number).getLastD (.number n)]) = _
  rw [List.getLastD_map]

end Operator

/-- An operator is called with some numbers, and does not fail. -/
theorem evaluate_on_numbers {host : Host} {depth : Nat} {e : FrameId} {m : Machine} (o : Operator)
    {ns : List Int} {v : Value} (hbound : m.store.get? e o.name = some (.builtin (.operator o)))
    (hne : ns ≠ []) (hrun : o.run (ns.map .number) = .ok v) :
    evaluate host (depth + 2) (.sexpr (.symbol o.name :: ns.map .number)) e m = .ok v m := by
  refine evaluate_operator o hbound ?_ ?_ ?_ (fun _ => o.isFlat_of_mem_walks) ?_ hrun
  · rw [List.forall₂_map_left_iff, List.forall₂_map_right_iff, List.forall₂_same]
    exact fun n _ => evaluate_number host m e depth n
  · exact mt List.map_eq_nil_iff.mp hne
  · intro a ha
    obtain ⟨n, -, rfl⟩ := List.mem_map.mp ha
    rfl
  · cases ns <;> cases o <;> rfl

/-! ## 3. The theorem -/

/-- **Sorting agrees with choosing.**

1. A list of numbers is sorted into a list of the same numbers, each as often as before, in ascending
   order.  Sorting this again changes nothing, and the same cells in any other order are sorted into the
   same list.
2. If there are numbers, the first and the last cell of the sorted list are what `min` and `max` choose
   among the same numbers, in whatever order.
3. So in an environment in which the names stand for the operators, `(head (sort q))` and
   `(last (sort q))` evaluate to the lists of what `(min n ...)` and `(max n ...)` evaluate to.
4. If some cell is no number, the first such cell is reported. -/
theorem sorting_agrees_with_choosing :
    (∀ ns : List Int, ∃ sorted : List Int,
      sorted.Perm ns ∧ sorted.Pairwise (· ≤ ·) ∧
      (∀ cells : List Value, cells.Perm (ns.map .number) →
        Operator.sort.run [.qexpr cells] = .ok (.qexpr (sorted.map .number))) ∧
      Operator.sort.run [.qexpr (sorted.map .number)] = .ok (.qexpr (sorted.map .number)) ∧
      (ns ≠ [] → ∃ lo hi : Value,
        Operator.head.run [.qexpr (sorted.map .number)] = .ok (.qexpr [lo]) ∧
        Operator.last.run [.qexpr (sorted.map .number)] = .ok (.qexpr [hi]) ∧
        ∀ cells : List Value, cells.Perm (ns.map .number) →
          Operator.min.run cells = .ok lo ∧ Operator.max.run cells = .ok hi ∧
          ∀ (host : Host) (depth : Nat) (e : FrameId) (m : Machine),
            (∀ o ∈ [Operator.head, .last, .sort, .min, .max],
              m.store.get? e o.name = some (.builtin (.operator o))) →
            let sort : Value := .sexpr [.symbol "sort", .qexpr cells]
            evaluate host (depth + 3) (.sexpr [.symbol "head", sort]) e m = .ok (.qexpr [lo]) m ∧
            evaluate host (depth + 2) (.sexpr (.symbol "min" :: cells)) e m = .ok lo m ∧
            evaluate host (depth + 3) (.sexpr [.symbol "last", sort]) e m = .ok (.qexpr [hi]) m ∧
            evaluate host (depth + 2) (.sexpr (.symbol "max" :: cells)) e m = .ok hi m)) ∧
    ∀ front v rest, (∀ w ∈ front, w.shape = .number) → v.shape ≠ .number →
      Operator.sort.run [.qexpr (front ++ v :: rest)] =
        .error (.wrongType "sort" front.length (.shape .number) v.shape) := by
  refine ⟨fun ns => ?_, fun front v rest => Operator.run_sort_of_not_number⟩
  have hsort (cells : List Value) (h : cells.Perm (ns.map .number)) :
      Operator.sort.run [.qexpr cells] = .ok (.qexpr ((Numbers.ascending ns).map .number)) := by
    obtain ⟨ms, rfl, hms⟩ := Value.exists_numbers_of_perm h
    rw [Operator.run_sort, Numbers.ascending_of_perm hms]
  have hperm := Numbers.ascending_perm ns
  refine ⟨Numbers.ascending ns, hperm, Numbers.ascending_pairwise ns, hsort,
    hsort _ (hperm.map Value.number), fun hne => ?_⟩
  have hascending := Numbers.ascending_pairwise ns
  cases hsorted : Numbers.ascending ns with
  | nil =>
    rw [hsorted] at hperm
    exact absurd hperm.nil_eq.symm hne
  | cons n rest =>
    rw [hsorted] at hperm hascending hsort
    refine ⟨_, _, Operator.run_head _ _, Operator.run_last_numbers n rest, fun cells hcells => ?_⟩
    obtain ⟨ms, rfl, hms⟩ := Value.exists_numbers_of_perm hcells
    have hmin := Operator.run_min (Numbers.min?_of_ascending hascending (hms.trans hperm.symm))
    have hmax := Operator.run_max (Numbers.max?_of_ascending hascending (hms.trans hperm.symm))
    refine ⟨hmin, hmax, fun host depth e m hbound => ?_⟩
    intro sort
    have hnonempty : ms ≠ [] := by
      rintro rfl
      exact hne hms.nil_eq.symm
    have hsorted : evaluate host (depth + 2) sort e m =
        .ok (.qexpr ((n :: rest).map .number)) m :=
      evaluate_operator .sort (hbound _ (by decide)) (.cons rfl .nil) (List.cons_ne_nil _ _)
        (by simp [Value.isError]) (List.forall_mem_nil _) rfl (hsort _ hcells)
    have hlist : ∀ a ∈ [Value.qexpr ((n :: rest).map .number)], a.isError = false := by
      simp [Value.isError]
    exact ⟨evaluate_operator .head (hbound _ (by decide)) (.cons hsorted .nil)
        (List.cons_ne_nil _ _) hlist (List.forall_mem_nil _) rfl (Operator.run_head _ _),
      evaluate_on_numbers .min (hbound _ (by decide)) hnonempty hmin,
      evaluate_operator .last (hbound _ (by decide)) (.cons hsorted .nil)
        (List.cons_ne_nil _ _) hlist (List.forall_mem_nil _) rfl (Operator.run_last_numbers n rest),
      evaluate_on_numbers .max (hbound _ (by decide)) hnonempty hmax⟩

/-- A number that occurs twice between the largest and the smallest, in two orders, and an error behind a
number. -/
theorem sorting_agrees_with_choosing_ends :
    let ns : List Int := [0, maxNumber, minNumber, 0]
    let cells : List Value := [.number maxNumber, .number 0, .number 0, .number minNumber]
    ns ≠ [] ∧ cells.Perm (ns.map .number) ∧
      (∃ sorted : List Int, sorted.Perm ns ∧
        Operator.sort.run [.qexpr cells] = .ok (.qexpr (sorted.map .number)) ∧
        Operator.head.run [.qexpr (sorted.map .number)] = .ok (.qexpr [.number minNumber]) ∧
        Operator.last.run [.qexpr (sorted.map .number)] = .ok (.qexpr [.number maxNumber])) ∧
      Operator.sort.run [.qexpr [.number 1, .error "m" .user, .string "x"]] =
        .error (.wrongType "sort" 1 (.shape .number) .error) := by
  intro ns cells
  obtain ⟨hsorts, hrefused⟩ := sorting_agrees_with_choosing
  obtain ⟨sorted, hperm, -, hsort, -, hends⟩ := hsorts ns
  have hne : ns ≠ [] := List.cons_ne_nil _ _
  have hcells : cells.Perm (ns.map .number) :=
    (by decide : [maxNumber, 0, 0, minNumber].Perm ns).map Value.number
  obtain ⟨lo, hi, hhead, hlast, hchosen⟩ := hends hne
  obtain ⟨hmin, hmax, -⟩ := hchosen cells hcells
  cases hmin
  cases hmax
  exact ⟨hne, hcells, ⟨sorted, hperm, hsort cells hcells, hhead, hlast⟩,
    hrefused [.number 1] (.error "m" .user) [.string "x"] (by simp [Value.shape]) nofun⟩

end CurryLisp
