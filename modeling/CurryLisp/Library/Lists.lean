/-
# Lists

Building, taking apart, joining, counting, sorting and cutting quoted lists.
-/
import CurryLisp.Library.Arguments
import CurryLisp.Value.Same

namespace CurryLisp.Lists

/-! ## 1. Ends of a list -/

/-- The first cell and the others of the one argument, a quoted list that is not empty. -/
def nonempty (func : String) (args : List Value) : Except Failure (Value × List Value) :=
  match args with
  | [v] => do
    match ← Variant.qexpr.take func 0 v with
    | [] => .error (.emptyList func)
    | c :: cs => return (c, cs)
  | args => .error (arityFailure func 1 args)

/-- The list of the first cell. -/
def head (func : String) (args : List Value) : Except Failure Value := do
  return .qexpr [(← nonempty func args).1]

/-- The list without its first cell. -/
def tail (func : String) (args : List Value) : Except Failure Value := do
  return .qexpr (← nonempty func args).2

/-- The list of the last cell. -/
def last (func : String) (args : List Value) : Except Failure Value := do
  let (c, cs) ← nonempty func args
  return .qexpr [cs.getLastD c]

/-! ## 2. Whole lists -/

/-- One list of the cells of all the lists. -/
def join (func : String) (args : List Value) : Except Failure Value := do
  return .qexpr (← Variant.qexpr.takeAll func args).flatten

/-- How many cells a list has, or how many characters a text. -/
def len (func : String) (args : List Value) : Except Failure Value :=
  match args with
  | [.qexpr cs] => .ok (.number cs.length)
  | [.string s] => .ok (.number s.length)
  | [v] => .error (.wrongType func 0 .listOrText v.shape)
  | args => .error (arityFailure func 1 args)

/-- The numbers from zero up to a bound. -/
def range (func : String) (args : List Value) : Except Failure Value :=
  match args with
  | [v] => do
    let n ← Variant.number.take func 0 v
    if (rangeLimit : Int) < n then throw (.outOfRange func (.listTooLong n))
    return .qexpr ((List.range n.toNat).map (fun i : Nat => .number i))
  | args => .error (arityFailure func 1 args)

/-- The numbers of a list in ascending order. -/
def sort (func : String) (args : List Value) : Except Failure Value :=
  match args with
  | [v] => do
    let ns ← Variant.number.takeAll func (← Variant.qexpr.take func 0 v)
    return .qexpr ((ns.mergeSort (fun a b => decide (a ≤ b))).map .number)
  | args => .error (arityFailure func 1 args)

/-! ## 3. Cutting -/

/-- The pieces of a list that is cut from left to right: those that are finished, and the one that
grows.  What came last is first in both. -/
structure Pieces (α : Type) where
  finished : List (List α) := []
  growing : List α := []

namespace Pieces

variable {α : Type}

/-- One more element: it is dropped and a piece is finished, or the piece grows by it. -/
def add (p : α → Bool) (s : Pieces α) (a : α) : Pieces α :=
  if p a then ⟨s.growing.reverse :: s.finished, []⟩ else ⟨s.finished, a :: s.growing⟩

/-- All pieces, in the order in which they were begun. -/
def all (s : Pieces α) : List (List α) := (s.growing.reverse :: s.finished).reverse

end Pieces

/-- Cuts a list at every element of a class; the elements that it is cut at are dropped. -/
def cut {α : Type} (p : α → Bool) (as : List α) : List (List α) :=
  (as.foldl (Pieces.add p) {}).all

/-- Elements that are added are split off behind the pieces that there are. -/
theorem Pieces.all_foldl {α : Type} (p : α → Bool) (s : Pieces α) (as : List α) :
    (as.foldl (add p) s).all = s.finished.reverse ++ as.splitOnPPrepend p s.growing := by
  induction as generalizing s with
  | nil => simp [all, List.splitOnPPrepend]
  | cons a rest ih =>
    rw [List.foldl_cons, ih, List.splitOnPPrepend_cons_eq_if, add]
    split
    · rw [List.reverse_cons, List.append_assoc]
      rfl
    · rfl

/-- Going from left to right or splitting recursively gives the same pieces. -/
theorem cut_eq_splitOnP {α : Type} (p : α → Bool) (as : List α) : cut p as = as.splitOnP p :=
  Pieces.all_foldl p {} as

/-- Together the pieces hold what the list is not cut at, in order. -/
theorem flatten_cut {α : Type} (p : α → Bool) (as : List α) :
    (cut p as).flatten = as.filter (fun a => !p a) := by
  rw [cut_eq_splitOnP]
  induction as with
  | nil => rfl
  | cons a rest ih =>
    obtain ⟨c, cs, hcut⟩ := List.exists_cons_of_ne_nil (List.splitOnP_ne_nil p rest)
    rw [List.splitOnP_cons_eq_if_modifyHead, List.filter_cons, ← ih, hcut]
    cases p a <;> rfl

/-- Cuts a text at every occurrence of a character, or a list at every cell that is the same as a
value. -/
def split (func : String) (args : List Value) : Except Failure Value :=
  match args with
  | [delimiter, .string s] =>
    match delimiter with
    | .string d =>
      match d.toList with
      | [c] => .ok (.qexpr ((s.toList.splitOn c).map (fun cs => .string (String.ofList cs))))
      | _ => .error (.wrongType func 0 .oneCharacter delimiter.shape)
    | _ => .error (.wrongType func 0 .oneCharacter delimiter.shape)
  | [delimiter, .qexpr cells] => .ok (.qexpr ((cut (·.same delimiter) cells).map .qexpr))
  | [_, v] => .error (.wrongType func 1 .textOrList v.shape)
  | args => .error (arityFailure func 2 args)

end CurryLisp.Lists
