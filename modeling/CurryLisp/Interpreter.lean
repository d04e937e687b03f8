/-
# The interpreter

An interpreter has a root environment with the builtins bound in it, and evaluates texts there.
Names that one text binds are bound for the next.  A text is evaluated as a whole, as one round
list, or form by form; a text that cannot be read is an error and binds nothing.
-/
import CurryLisp.Eval.Evaluate

namespace CurryLisp

/-- An interpreter: what surrounds it, its root environment, and how deep evaluation may nest. -/
structure Interpreter where
  host : Host
  root : FrameId
  depth : Nat

/-- The name of a text that was given none. -/
def defaultSourceName : String := "<input>"

/-- The builtins of a library with their names. -/
def libraryBindings (library : List Builtin) : List (String × Value) :=
  library.map (fun b => (b.name, .builtin b))

/-- The calls that are left are enough to parse a text, and to read it if it can be parsed. -/
def Evaluator.Takes (ev : Evaluator) (source : String) : Prop :=
  ev.allows (.parsing source) = true ∧
    ∀ nodes, parse source = .ok nodes → ev.allows (.reading nodes) = true

theorem Evaluator.takes_of_parse {ev : Evaluator} {source : String} {nodes : List Node}
    (hparse : parse source = .ok nodes) (hparsing : ev.allows (.parsing source) = true)
    (hreading : ev.allows (.reading nodes) = true) : ev.Takes source := by
  refine ⟨hparsing, fun nodes' hparse' => ?_⟩
  cases hparse.symm.trans hparse'
  exact hreading

/-- A host that counts calls has enough of them for a text that is not nested more deeply than
evaluation may be. -/
theorem Evaluator.takes_of_lex {host : Host} {usual depth : Nat} {source : String} {l : Lexed}
    {nodes : List Node} (hcalls : host.calls = .counted usual) (hlex : lex source = l)
    (hparse : parseLexed l = .ok nodes) (hreach : ({} : Forest).reach 0 l.tokens ≤ 3 * depth)
    (hnest : Node.nestFrom 0 nodes ≤ depth) : (evaluate host depth).Takes source := by
  refine takes_of_parse ((congrArg parseLexed hlex).trans hparse) ?_ ?_
  · rw [evaluate_allows, hcalls]
    change decide (({} : Forest).reach 0 (lex source).tokens ≤ 3 * depth) = true
    rw [hlex]
    exact decide_eq_true hreach
  · rw [evaluate_allows, hcalls]
    exact decide_eq_true (Nat.mul_le_mul_left 3 hnest)

/-- What is to be done with the forms of a text that can be parsed is done, if there are calls
enough to come to it. -/
theorem Evaluator.Takes.then {α : Type} {ev : Evaluator} {source : String} {nodes : List Node}
    (h : ev.Takes source) (hparse : parse source = .ok nodes) (next : List Value → EvalM α) :
    (do ev.walk [.parsing source]; next (← Form.formsOf ev nodes)) =
      Form.valuesOf nodes >>= next := by
  rw [walk_single h.1, Form.formsOf, walk_single (h.2 nodes hparse)]
  rfl

/-- It is done, or there are not calls enough. -/
theorem Evaluator.takes_cases {α : Type} (ev : Evaluator) {source : String} {nodes : List Node}
    (hparse : parse source = .ok nodes) (next : List Value → EvalM α) :
    (ev.Takes source ∧ (do ev.walk [.parsing source]; next (← Form.formsOf ev nodes)) =
      Form.valuesOf nodes >>= next) ∨
    (do ev.walk [.parsing source]; next (← Form.formsOf ev nodes)) = Machine.stop .tooDeep := by
  rcases ev.walk_cases [.parsing source] with ⟨hparsing, hwalk⟩ | hwalk
  · rw [hwalk, Form.formsOf]
    rcases ev.walk_cases [.reading nodes] with ⟨hreading, hwalk'⟩ | hwalk'
    · refine Or.inl ⟨⟨hparsing _ List.mem_cons_self, fun ns hns => ?_⟩, by rw [hwalk']; rfl⟩
      cases hparse.symm.trans hns
      exact hreading _ List.mem_cons_self
    · rw [hwalk']
      exact Or.inr rfl
  · rw [hwalk]
    exact Or.inr rfl

namespace Interpreter

/-- What evaluates the values of an interpreter. -/
def evaluator (i : Interpreter) : Evaluator := CurryLisp.evaluate i.host i.depth

/-- Evaluates a value in the root environment. -/
def evaluate (i : Interpreter) (v : Value) : EvalM Value := i.evaluator v i.root

/-- Applies a value to arguments, called from the root environment. -/
def apply (i : Interpreter) (head : Value) (args : List Value) : EvalM Value :=
  CurryLisp.apply i.host i.evaluator head args i.root

/-- Evaluates a text as one round list. -/
def evalText (i : Interpreter) (source name : String) : EvalM Value := do
  i.evaluator.walk [.parsing source]
  match parse source with
  | .error f => return (Failure.malformedSource name f).toValue
  | .ok nodes => i.evaluate (.sexpr (← Form.formsOf i.evaluator nodes))

/-- Evaluates a text form by form. -/
def runText (i : Interpreter) (source name : String) : EvalM (List Value) := do
  i.evaluator.walk [.parsing source]
  match parse source with
  | .error f => return [(Failure.malformedSource name f).toValue]
  | .ok nodes => (← Form.formsOf i.evaluator nodes).mapM i.evaluate

section Texts

variable (i : Interpreter) {source : String} {nodes : List Node}

/-- A text that can be parsed is evaluated as the round list of its forms, or there are not calls
enough to do so. -/
theorem evalText_cases (hparse : parse source = .ok nodes) (name : String) :
    (i.evaluator.Takes source ∧ i.evalText source name =
      Form.valuesOf nodes >>= fun forms => i.evaluate (.sexpr forms)) ∨
    i.evalText source name = Machine.stop .tooDeep := by
  rw [evalText, hparse]
  exact i.evaluator.takes_cases hparse _

theorem evalText_of_takes (htakes : i.evaluator.Takes source) (hparse : parse source = .ok nodes)
    (name : String) : i.evalText source name =
      Form.valuesOf nodes >>= fun forms => i.evaluate (.sexpr forms) := by
  rw [evalText, hparse]
  exact htakes.then hparse _

theorem evalText_of_not_takes (htakes : ¬ i.evaluator.Takes source)
    (hparse : parse source = .ok nodes) (name : String) :
    i.evalText source name = Machine.stop .tooDeep :=
  (i.evalText_cases hparse name).resolve_left fun h => htakes h.1

/-- A text that can be parsed is run form by form, or there are not calls enough to do so. -/
theorem runText_cases (hparse : parse source = .ok nodes) (name : String) :
    (i.evaluator.Takes source ∧ i.runText source name =
      Form.valuesOf nodes >>= fun forms => forms.mapM i.evaluate) ∨
    i.runText source name = Machine.stop .tooDeep := by
  rw [runText, hparse]
  exact i.evaluator.takes_cases hparse _

theorem runText_of_takes (htakes : i.evaluator.Takes source) (hparse : parse source = .ok nodes)
    (name : String) : i.runText source name =
      Form.valuesOf nodes >>= fun forms => forms.mapM i.evaluate := by
  rw [runText, hparse]
  exact htakes.then hparse _

theorem runText_of_not_takes (htakes : ¬ i.evaluator.Takes source)
    (hparse : parse source = .ok nodes) (name : String) :
    i.runText source name = Machine.stop .tooDeep :=
  (i.runText_cases hparse name).resolve_left fun h => htakes h.1

/-- A text that is refused is answered with the error, or there are not calls enough to parse it. -/
theorem runText_of_refused {f : SyntaxFault} (hparse : parse source = .error f) (name : String) :
    i.evaluator.allows (.parsing source) = true ∧
      i.runText source name = pure [(Failure.malformedSource name f).toValue] ∨
    i.runText source name = Machine.stop .tooDeep := by
  rw [runText, hparse]
  rcases i.evaluator.walk_cases [.parsing source] with ⟨hparsing, hwalk⟩ | hwalk
  · rw [hwalk]
    exact Or.inl ⟨hparsing _ List.mem_cons_self, rfl⟩
  · rw [hwalk]
    exact Or.inr rfl

end Texts

/-- Evaluates the forms of a file. -/
def load (i : Interpreter) (name : String) : EvalM Value :=
  Form.loadFile i.host i.evaluator i.root name

/-- Prints each error among some results. -/
def printErrors : List Value → EvalM Unit
  | [] => pure ()
  | v :: rest => do
    if v.isError then Machine.print v.text
    printErrors rest

/-- Evaluates a text form by form, and then prints each error among the results. -/
def runPrelude (i : Interpreter) (source : String) : EvalM Unit := do
  printErrors (← i.runText source "<prelude>")

/-- Makes the root frame. -/
def makeRoot (extended : Bool) : EvalM FrameId := do
  let root ← Machine.allocate [] none
  Machine.bind root (libraryBindings Builtin.core)
  if extended then Machine.bind root (libraryBindings Builtin.extended)
  return root

/-- Settles how deep evaluation may nest. -/
def settleDepth (host : Host) : EvalM Nat :=
  match host.recursionLimit with
  | .error f => Machine.stop (.badDepth f)
  | .ok asked =>
    match host.effectiveLimit asked with
    | none => Machine.stop .unsettableDepth
    | some limit => return host.calls.nesting limit

/-- Makes an interpreter.  Unless it is said whether the extended library is bound, the settings
decide; the prelude is evaluated last, and an empty one not at all. -/
def make (host : Host) (extended : Option Bool) (prelude : String) : EvalM Interpreter := do
  let more := extended.getD host.extendedByDefault
  let root ← makeRoot more
  let depth ← settleDepth host
  Machine.note (.ready more)
  let i : Interpreter := ⟨host, root, depth⟩
  if prelude ≠ "" then i.runPrelude prelude
  return i

end Interpreter

end CurryLisp
