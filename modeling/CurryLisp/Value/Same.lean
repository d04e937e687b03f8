/-
# Equality of values

Not all of a value is compared: errors are compared by their message alone, functions made by a
program by their parameters and body, lists cell by cell.  Values of different variants are never
the same.
-/
import CurryLisp.Value

namespace CurryLisp.Value

mutual

/-- Whether two values are the same. -/
def same : Value → Value → Bool
  | number a, number b => a == b
  | string a, string b => a == b
  | symbol a, symbol b => a == b
  | error m _, error m' _ => m == m'
  | sexpr cs, sexpr ds => sameCells cs ds
  | qexpr cs, qexpr ds => sameCells cs ds
  | builtin a, builtin b => a == b
  | lambda f cs _ _, lambda g ds _ _ => f == g && sameCells cs ds
  | _, _ => false

/-- Whether two lists of values are the same, cell by cell. -/
def sameCells : List Value → List Value → Bool
  | [], [] => true
  | v :: vs, w :: ws => same v w && sameCells vs ws
  | _, _ => false

end

mutual

/-- Every value is the same as itself. -/
theorem same_self : ∀ v : Value, same v v = true
  | number _ | string _ | symbol _ | error _ _ | builtin _ => beq_self_eq_true _
  | sexpr cells | qexpr cells => sameCells_self cells
  | lambda _ body _ _ => Bool.and_eq_true_iff.mpr ⟨beq_self_eq_true _, sameCells_self body⟩

theorem sameCells_self : ∀ vs : List Value, sameCells vs vs = true
  | [] => rfl
  | v :: vs => Bool.and_eq_true_iff.mpr ⟨same_self v, sameCells_self vs⟩

end

/-- Whether a value may serve as a key.  Lists and the functions that programs make may not. -/
def isKey : Value → Bool
  | sexpr _ | qexpr _ | lambda _ _ _ _ => false
  | _ => true

/-- Adds a value to a list of keys unless the list has the same one. -/
def addKey (keys : List Value) (v : Value) : List Value :=
  if keys.any (same v) then keys else keys ++ [v]

/-- The first of each group of equal values, in order, or the first value that is no key. -/
def distinctFrom (keys : List Value) : List Value → Except Value (List Value)
  | [] => .ok keys
  | v :: rest => if v.isKey then distinctFrom (addKey keys v) rest else .error v

/-- The first of each group of equal values, in order, or the first value that is no key. -/
def distinct (vs : List Value) : Except Value (List Value) := distinctFrom [] vs

end CurryLisp.Value
