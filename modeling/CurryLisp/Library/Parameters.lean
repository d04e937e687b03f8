/-
# Parameter lists

A parameter list is a quoted list of symbols.  The marker, if it occurs, must be followed by one
symbol that is not the marker, and nothing more; that symbol is the rest parameter.
-/
import CurryLisp.Library.Arguments

namespace CurryLisp

namespace Formals

/-- The parameters that some symbols declare. -/
def ofNames (names : List String) : Except Failure Formals :=
  match names.dropWhile (· != restMarker) with
  | [] => .ok ⟨names, none⟩
  | _ :: tail =>
    match tail with
    | [r] =>
      if r = restMarker then .error .variadicSignature
      else .ok ⟨names.takeWhile (· != restMarker), some r⟩
    | _ => .error .variadicSignature

/-- The parameters that a quoted list declares to a function. -/
def ofCells (func : String) (cells : List Value) : Except Failure Formals := do
  ofNames (← Variant.symbol.takeAll func cells)

/-- Without the marker every symbol is a required parameter. -/
theorem ofNames_of_not_mem {names : List String} (h : restMarker ∉ names) :
    ofNames names = .ok ⟨names, none⟩ := by
  have hd : names.dropWhile (· != restMarker) = [] := by
    induction names with
    | nil => rfl
    | cons x xs ih =>
      simp only [List.mem_cons, not_or] at h
      simp [Ne.symm h.1, ih h.2]
  simp [ofNames, hd]

end Formals

end CurryLisp
