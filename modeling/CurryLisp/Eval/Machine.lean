/-
# Running

Evaluation reads and changes a machine: the store of frames, what has been printed, and what has
been reported.  It ends with a value or with a fault.  Errors of the language are values; a fault
is what no program can catch.  What had been bound and printed before a fault stays.
-/
import CurryLisp.Env.Store
import CurryLisp.Eval.Event
import CurryLisp.Value.OfNode

namespace CurryLisp

/-! ## 1. Faults -/

/-- What ends an evaluation without a value. -/
inductive Fault
  /-- calls are nested too deeply -/
  | tooDeep
  /-- a file name holds the null character -/
  | embeddedNull
  /-- looking for a file fails -/
  | unopened (f : OpenFault) (path : Path)
  /-- a syntax tree has no value -/
  | node (f : NodeFault)
  /-- the host does not read a numeral that a program holds as a text -/
  | numeral (f : Text.NumeralFault)
  /-- the depth that is asked for is written with digits, and the host does not read it -/
  | badDepth (f : Text.NumeralFault)
  /-- the depth that is asked for cannot be set -/
  | unsettableDepth
  deriving DecidableEq

/-- A fault in words.  Nesting too deeply is named by its kind alone. -/
def Fault.message? : Fault → Option String
  | tooDeep => none
  | embeddedNull => some "embedded null byte"
  | unopened f path => some (f.message path.text)
  | node (.unreadable tag) => some ("cannot read syntax node tagged " ++ Text.quote tag.name)
  | node (.badNumeral f) => some f.message
  | numeral f => some f.message
  | badDepth f => some f.message
  | unsettableDepth => some "recursion limit too high"

/-! ## 2. The machine -/

/-- What evaluation reads and changes. -/
structure Machine where
  store : Store := .empty
  /-- the lines printed, in order -/
  printed : Array String := #[]
  /-- the events reported, in order -/
  events : Array Event := #[]

/-- A computation on a machine that gives a result or a fault. -/
abbrev EvalM := EStateM Fault Machine

/-- The printed text: every line with its end. -/
def Machine.output (m : Machine) : String :=
  m.printed.foldl (fun text line => text ++ line ++ "\n") ""

/-- The events that matter enough, as lines. -/
def Machine.report (m : Machine) (level : Nat) : String :=
  m.events.foldl (fun text e => if level ≤ e.level then text ++ e.line else text) ""

namespace Machine

/-! ## 3. Steps -/

/-- What a name is bound to in an environment, or the error that it is not bound. -/
def lookup (e : FrameId) (x : String) : EvalM Value := fun m =>
  .ok ((m.store.get? e x).getD (Failure.unboundSymbol x).toValue) m

/-- Changes the store. -/
def modifyStore (change : Store → Store) : EvalM Unit := fun m =>
  .ok () { m with store := change m.store }

/-- Binds names in the innermost frame of an environment. -/
def bind (e : FrameId) (more : List (String × Value)) : EvalM Unit :=
  modifyStore (fun s => s.putAll e more)

/-- Binds names in the root of an environment. -/
def bindGlobal (e : FrameId) (more : List (String × Value)) : EvalM Unit :=
  modifyStore (fun s => s.putAll (s.root e) more)

/-- Makes a frame. -/
def allocate (b : Bindings) (parent : Option FrameId) : EvalM FrameId := fun m =>
  .ok m.store.size { m with store := m.store.alloc b parent }

/-- Prints a line. -/
def print (line : String) : EvalM Unit := fun m =>
  .ok () { m with printed := m.printed.push line }

/-- Reports an event. -/
def note (e : Event) : EvalM Unit := fun m =>
  .ok () { m with events := m.events.push e }

/-- Stops with a fault. -/
def stop {α : Type} (f : Fault) : EvalM α := fun m => .error f m

end Machine

/-- Goes on with the result of a check, or answers with the error that it failed with. -/
def Value.orElseFail {α : Type} (r : Except Failure α) (next : α → EvalM Value) : EvalM Value :=
  match r with
  | .ok a => next a
  | .error f => pure f.toValue

end CurryLisp
