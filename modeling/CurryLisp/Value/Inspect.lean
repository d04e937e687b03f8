/-
# Values as a debugger shows them

The inspected form of a value names its variant and quotes its printed form, or shows the cells of
a list one by one.  Functions that programs make are shown as they are printed.
-/
import CurryLisp.Value.Printed
import CurryLisp.Text.Quoted

namespace CurryLisp

namespace Value

/-- The word that names the variant of a value in its inspected form. -/
def label : Value → String
  | number _ => "Number"
  | string _ => "String"
  | symbol _ => "Symbol"
  | error _ _ => "Error"
  | sexpr _ => "SExpr"
  | qexpr _ => "QExpr"
  | builtin _ => "Builtin"
  | lambda _ _ _ _ => "Lambda"

mutual

/-- The inspected form of a value. -/
def inspect : Value → String
  | sexpr cells => "SExpr([" ++ inspectCells cells ++ "])"
  | qexpr cells => "QExpr([" ++ inspectCells cells ++ "])"
  | builtin b => "<builtin " ++ b.name ++ ">"
  | lambda f body own scope => (lambda f body own scope).text
  | v => v.label ++ "(" ++ Text.quote v.text ++ ")"

/-- The inspected forms of some values, with a comma and a space between them. -/
def inspectCells : List Value → String
  | [] => ""
  | [v] => v.inspect
  | v :: w :: rest => v.inspect ++ ", " ++ inspectCells (w :: rest)

end

end Value

/-- The inspected form of a parameter list. -/
def Formals.inspect (f : Formals) : String :=
  "Formals([" ++ Value.inspectCells (Value.symbols f.required) ++ "], rest=" ++
    (match f.rest with
      | none => "None"
      | some r => (Value.symbol r).inspect) ++ ")"

end CurryLisp
