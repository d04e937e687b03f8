/-
# What is reported

While a program runs, some events are reported to whoever asked to hear of them.  An event is kept
as what happened; its words are made when it is shown.
-/
import CurryLisp.Host.FileTree
import CurryLisp.Syntax.Fault
import CurryLisp.Value.Printed

namespace CurryLisp

/-- Something that is reported. -/
inductive Event
  | ready (extended : Bool)
  | loading (path : Path)
  | unopened (path : Path) (f : OpenFault)
  | undecodable (path : Path) (f : Text.Utf8Fault)
  | malformed (path : Path) (f : SyntaxFault)
  | lambdaMade (formals : Formals) (body : List Value)
  | partlyApplied (function : Value) (awaiting : Formals)

namespace Event

/-- How much an event matters: troubles with files are warnings, all else is for debugging. -/
def level : Event → Nat
  | unopened _ _ | undecodable _ _ | malformed _ _ => 30
  | _ => 10

/-- The name of an event's level. -/
def levelName (e : Event) : String := if e.level = 30 then "WARNING" else "DEBUG"

/-- The part of the program that an event is reported by. -/
def reporter : Event → String
  | ready _ => "jlisp.interpreter"
  | lambdaMade _ _ => "jlisp.types.lambda_fn"
  | partlyApplied _ _ => "jlisp.evaluation.apply"
  | _ => "jlisp.builtin.env_builtin"

/-- An event in words. -/
def message : Event → String
  | ready extended =>
    "interpreter ready (extended=" ++ (if extended then "True" else "False") ++ ")"
  | loading path => s!"loading {path.text}"
  | unopened path f => s!"could not read {path.text}: {f.message path.text}"
  | undecodable path f => s!"could not decode {path.text}: {f.message}"
  | malformed path f => s!"could not parse {path.text}: {f.message path.text}"
  | lambdaMade formals body => s!"lambda created: formals={formals.text} body={(Value.qexpr body).text}"
  | partlyApplied function awaiting =>
    s!"partial application of {function.text}, awaiting {awaiting.text}"

/-- An event as a line. -/
def line (e : Event) : String := s!"{e.levelName} {e.reporter}: {e.message}\n"

end Event

end CurryLisp
