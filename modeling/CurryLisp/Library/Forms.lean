/-
# The forms

The builtins that evaluate, bind, print or read files.  Each checks all its arguments before it
does anything, so that a call that is refused changes nothing.
-/
import CurryLisp.Eval.Apply
import CurryLisp.Host.Settings
import CurryLisp.Library.Parameters
import CurryLisp.Syntax.Forest

namespace CurryLisp.Form

/-! ## 1. Checks -/

/-- The one argument of a call, a quoted list. -/
def quoted (func : String) (args : List Value) : Except Failure (List Value) :=
  match args with
  | [v] => Variant.qexpr.take func 0 v
  | args => .error (arityFailure func 1 args)

/-- The one argument of a call, a text. -/
def fileName (func : String) (args : List Value) : Except Failure String :=
  match args with
  | [v] => Variant.string.take func 0 v
  | args => .error (arityFailure func 1 args)

/-- The branch that a condition selects: zero selects the second. -/
def chosen (func : String) (args : List Value) : Except Failure (List Value) :=
  match args with
  | [c, yes, no] => do
    let n ← Variant.number.take func 0 c
    let first ← Variant.qexpr.take func 1 yes
    let second ← Variant.qexpr.take func 2 no
    return if n = 0 then second else first
  | args => .error (arityFailure func 3 args)

/-- The names of a definition with their values. -/
def definitions (func : String) (args : List Value) : Except Failure (List (String × Value)) :=
  match args with
  | [] => .error (noArguments func)
  | spec :: values => do
    let names ← Variant.symbol.takeAll func (← Variant.qexpr.take func 0 spec)
    if names.length = values.length then return names.zip values
    else throw (arityFailure func (names.length + 1) args)

/-- The parameters and the body of a function. -/
def signature (func : String) (args : List Value) : Except Failure (Formals × List Value) :=
  match args with
  | [spec, code] => do
    let cells ← Variant.qexpr.take func 0 spec
    let body ← Variant.qexpr.take func 1 code
    return (← Formals.ofCells func cells, body)
  | args => .error (arityFailure func 2 args)

/-- The name, the parameters and the body of a function with a name. -/
def namedSignature (func : String) (args : List Value) :
    Except Failure (String × Formals × List Value) :=
  match args with
  | [spec, code] => do
    let cells ← Variant.qexpr.take func 0 spec
    let body ← Variant.qexpr.take func 1 code
    match cells with
    | [] => throw (.arity func .aName 0)
    | v :: rest =>
      let name ← Variant.symbol.take func 0 v
      return (name, ← Formals.ofCells func rest, body)
  | args => .error (arityFailure func 2 args)

/-! ## 2. Functions -/

/-- Makes a function in an environment. -/
def close (env : FrameId) (formals : Formals) (body : List Value) : EvalM Value := do
  Machine.note (.lambdaMade formals body)
  return .lambda formals body [] (some env)

/-! ## 3. Texts of programs -/

/-- The values of trees, if they have values. -/
def valuesOf (nodes : List Node) : EvalM (List Value) :=
  match Value.ofNodes nodes with
  | .ok vs => pure vs
  | .error f => Machine.stop (.node f)

/-- The forms of a text that has been parsed, as values. -/
def formsOf (ev : Evaluator) (nodes : List Node) : EvalM (List Value) := do
  ev.walk [.reading nodes]
  valuesOf nodes

theorem valuesOf_eq_pure {nodes : List Node} {vs : List Value} (h : Value.ofNodes nodes = .ok vs) :
    valuesOf nodes = pure vs := by
  rw [valuesOf, h]

theorem valuesOf_eq_stop {nodes : List Node} {f : NodeFault} (h : Value.ofNodes nodes = .error f) :
    valuesOf nodes = Machine.stop (.node f) := by
  rw [valuesOf, h]

/-! ## 4. Files -/

/-- Evaluates values one after the other and prints each error among their results. -/
def runPrinting (ev : Evaluator) (env : FrameId) : List Value → EvalM Unit
  | [] => pure ()
  | v :: rest => do
    let r ← ev v env
    if r.isError then Machine.print r.text
    runPrinting ev env rest

/-- Evaluates the forms of a text that is read from a path.  An error of syntax is answered with an
error, but a text that is nested too deeply to be parsed is not. -/
def loadText (ev : Evaluator) (env : FrameId) (name : String) (path : Path) (source : String) :
    EvalM Value := do
  ev.walk [.parsing source]
  match parse source with
  | .error f => do
    Machine.note (.malformed path f)
    return (Failure.notLoaded name (.malformed path.text f)).toValue
  | .ok nodes => do
    Machine.note (.loading path)
    runPrinting ev env (← formsOf ev nodes)
    return .unit

/-- Evaluates the forms of a file. -/
def loadFile (host : Host) (ev : Evaluator) (env : FrameId) (name : String) : EvalM Value :=
  match host.resolve name with
  | .error (f, path) => Machine.stop (.unopened f path)
  | .ok path =>
    match host.files.text path with
    | .error .embeddedNull => Machine.stop .embeddedNull
    | .error (.unopened f) => do
      Machine.note (.unopened path f)
      return (Failure.notLoaded name (.unopened f)).toValue
    | .error (.undecodable f) => do
      Machine.note (.undecodable path f)
      return (Failure.notLoaded name (.undecodable f)).toValue
    | .ok source => loadText ev env name path source

/-- The text of a file. -/
def readFile (host : Host) (name : String) : EvalM Value :=
  match host.resolve name with
  | .error (f, _) => return (Failure.notLoaded name (.unopened f)).toValue
  | .ok path =>
    match host.files.text path with
    | .error .embeddedNull => Machine.stop .embeddedNull
    | .error (.unopened f) => return (Failure.notLoaded name (.unopened f)).toValue
    | .error (.undecodable f) => return (Failure.notLoaded name (.undecodable f)).toValue
    | .ok source => return .string source

/-! ## 5. What each form does -/

/-- The line that shows some values. -/
def printedLine (args : List Value) : String := String.ofList (Value.cellsChars args)

/-- What a form goes through before it does anything: values that are copied to be bound or kept,
and values that are printed.  A call that is refused goes through nothing. -/
def walks (f : Form) (env : FrameId) (args : List Value) : List Walk :=
  match f with
  | define | assign =>
    match definitions f.name args with
    | .ok more => more.map fun q => .copying q.2
    | .error _ => []
  | lambda =>
    match signature f.name args with
    | .ok (_, body) => [.copying (.qexpr body)]
    | .error _ => []
  | function =>
    match namedSignature f.name args with
    | .ok (_, formals, body) =>
      [.copying (.qexpr body), .copying (.lambda formals body [] (some env))]
    | .error _ => []
  | print => args.map .printing
  | eval | branch | load | read => []

/-- What a form does when it is called from an environment. -/
def run (host : Host) (ev : Evaluator) (f : Form) (env : FrameId) (args : List Value) :
    EvalM Value :=
  match f with
  | eval => Value.orElseFail (quoted f.name args) fun cells => ev (.sexpr cells) env
  | branch => Value.orElseFail (chosen f.name args) fun cells => ev (.sexpr cells) env
  | define => Value.orElseFail (definitions f.name args) fun more => do
    Machine.bindGlobal env more
    return .unit
  | assign => Value.orElseFail (definitions f.name args) fun more => do
    Machine.bind env more
    return .unit
  | lambda => Value.orElseFail (signature f.name args) fun (formals, body) =>
    close env formals body
  | function => Value.orElseFail (namedSignature f.name args) fun (name, formals, body) => do
    Machine.bindGlobal env [(name, ← close env formals body)]
    return .unit
  | print => do
    Machine.print (printedLine args)
    return .unit
  | load => Value.orElseFail (fileName f.name args) fun name => loadFile host ev env name
  | read => Value.orElseFail (fileName f.name args) fun name => readFile host name

end CurryLisp.Form
