/-
# Failures of programs

Why a builtin, an application or the reader answers with an error.  Each cause has a kind and a
message; `Failure.toValue` makes the error that a program sees.
-/
import CurryLisp.Host.FileTree
import CurryLisp.Syntax.Fault
import CurryLisp.Value.Printed

namespace CurryLisp

/-! ## 1. The causes -/

/-- How many arguments were expected. -/
inductive Expected
  | exactly (n : Nat)
  | atLeastOne
  | aName
  deriving DecidableEq, Repr

/-- What an argument was expected to be. -/
inductive Wanted
  | shape (s : Shape)
  | listOrText
  | textOrList
  | oneCharacter
  deriving DecidableEq, Repr

/-- Why a file was not loaded or read. -/
inductive LoadFault
  | unopened (f : OpenFault)
  | undecodable (f : Text.Utf8Fault)
  | malformed (path : String) (f : SyntaxFault)
  deriving DecidableEq

/-- What is out of range. -/
inductive RangeFault
  | negativeExponent (e : Int)
  | shiftAmount (n : Int)
  | listTooLong (n : Int)
  | negativeIndex (i : Int)
  | startAfterEnd (start stop : Int)
  | endBeyondLength (stop : Int) (length : Nat)
  deriving DecidableEq

/-- Why there is an error instead of a value. -/
inductive Failure
  | unboundSymbol (name : String)
  | arity (func : String) (expected : Expected) (got : Nat)
  | wrongType (func : String) (index : Nat) (wanted : Wanted) (got : Shape)
  | emptyList (func : String)
  | divisionByZero (dividend : Int)
  | overflow (func : String)
  | notAFunction (got : Shape)
  | tooManyArguments (got expected : Nat)
  | variadicSignature
  | malformedSource (source : String) (f : SyntaxFault)
  | invalidNumber (text : String)
  | notLoaded (name : String) (reason : LoadFault)
  | outOfRange (func : String) (reason : RangeFault)
  | user (message : String)
  deriving DecidableEq

/-! ## 2. Their words -/

/-- The longest list that `range` makes. -/
def rangeLimit : Nat := 1000000

/-- How many arguments were expected, in words. -/
def Expected.text : Expected → String
  | exactly n => toString n
  | atLeastOne => "at least 1"
  | aName => "a name"

/-- What an argument was expected to be, in words. -/
def Wanted.text : Wanted → String
  | shape s => s.name
  | listOrText => "Q-Expression or String"
  | textOrList => "String or Q-Expression"
  | oneCharacter => "single-character String"

/-- Why a file was not loaded or read, in words. -/
def LoadFault.text : LoadFault → String
  | unopened f => f.text
  | undecodable f => s!"not valid UTF-8 text ({f.reason.text} at byte {f.offset})"
  | malformed path f => f.message path

/-- What is out of range, in words. -/
def RangeFault.text : RangeFault → String
  | negativeExponent e => s!"negative exponent {e}"
  | shiftAmount n => s!"shift amount {n}, expected 0 to 63"
  | listTooLong n => s!"{n}, expected at most {rangeLimit}"
  | negativeIndex i => s!"negative index {i}"
  | startAfterEnd start stop => s!"start {start} after end {stop}"
  | endBeyondLength stop length => s!"end {stop} beyond length {length}"

namespace Failure

/-- The kind of the error. -/
def kind : Failure → ErrorKind
  | unboundSymbol _ => .unboundSymbol
  | arity _ _ _ => .arityMismatch
  | wrongType _ _ _ _ => .typeMismatch
  | emptyList _ => .typeMismatch
  | divisionByZero _ => .divisionByZero
  | overflow _ => .overflow
  | notAFunction _ => .notAFunction
  | tooManyArguments _ _ => .tooManyArguments
  | variadicSignature => .invalidVariadicSignature
  | malformedSource _ _ => .parseFailure
  | invalidNumber _ => .parseFailure
  | notLoaded _ _ => .loadFailure
  | outOfRange _ _ => .outOfRange
  | user _ => .user

/-- The message of the error. -/
def message : Failure → String
  | unboundSymbol name => s!"unbound symbol: {name}"
  | arity func expected got =>
    s!"function '{func}' passed incorrect number of arguments: got {got}, expected {expected.text}"
  | wrongType func index wanted got =>
    s!"function '{func}' passed incorrect type for argument {index}: got {got.name}, expected {wanted.text}"
  | emptyList func => s!"function '{func}' passed \x7b\x7d"
  | divisionByZero dividend => s!"division by zero: {dividend} / 0"
  | overflow func => s!"integer overflow in '{func}'"
  | notAFunction got => s!"S-expression does not start with a function: got {got.name}"
  | tooManyArguments got expected =>
    s!"function passed too many arguments: got {got}, expected {expected}"
  | variadicSignature => "function format invalid: symbol '&' not followed by single symbol"
  | malformedSource source f => s!"parse error: {f.message source}"
  | invalidNumber text => s!"invalid number: {text}"
  | notLoaded name reason => s!"could not load library '{name}': {reason.text}"
  | outOfRange func reason => s!"function '{func}' passed {reason.text}"
  | user message => message

/-- The error that a program sees. -/
def toValue (f : Failure) : Value := .error f.message f.kind

@[simp] theorem isError_toValue (f : Failure) : f.toValue.isError = true := rfl

end Failure

/-- The value of a computation that may fail. -/
def Value.ofExcept : Except Failure Value → Value
  | .ok v => v
  | .error f => f.toValue

@[simp] theorem Value.ofExcept_ok (v : Value) : Value.ofExcept (.ok v) = v := rfl
@[simp] theorem Value.ofExcept_error (f : Failure) : Value.ofExcept (.error f) = f.toValue := rfl

end CurryLisp
