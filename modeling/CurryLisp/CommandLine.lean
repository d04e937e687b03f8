/-
# The command line

Files and options may be mixed, but the files must stand together.  All files are loaded first, in
order; then each expression is evaluated and printed.  Long options may be shortened as long as
one option remains that they can mean; a value is the next word or follows an equals sign, and may
follow a short option at once.  Help takes no value: what follows its short spelling in the same
word are more short options, and help is shown only if they are in order too.  A word that looks
like a negative number or holds a space is not an option.  After two dashes nothing is.  Two dashes
are never a value: where they are joined to an option, its value is the empty text.

* `Word.ofText` says what a single word is;
* `Request.ofWords` says what all words ask for;
* `runCommand` does it.
-/
import CurryLisp.Interpreter

namespace CurryLisp

/-! ## 1. Words -/

/-- The options. -/
inductive CommandOption
  | help
  | eval
  | extended
  | version
  deriving DecidableEq, Repr

/-- The spellings of the options, in the order in which they are listed. -/
def CommandOption.spellings : List (String × CommandOption) :=
  [("-h", help), ("--help", help), ("-e", eval), ("--eval", eval), ("--extended", extended),
   ("--version", version)]

/-- A word of the command line. -/
inductive Word
  /-- not an option -/
  | plain (text : String)
  /-- the two dashes after which there are no options -/
  | separator
  | option (o : CommandOption) (value : Option String)
  /-- help, and in the same word the option whose value is the expression in the next word -/
  | helpThenEval
  /-- looks like an option and is none -/
  | unknown (text : String)
  deriving DecidableEq

/-- Whether a list of characters looks like a negative number: a minus, and digits that may have a
point before or among them.  A line feed may stand at the end. -/
def looksNegative (cs : List Char) : Bool :=
  match cs with
  | '-' :: rest =>
    let number := if rest.getLast? = some '\n' then rest.dropLast else rest
    let whole := number.takeWhile Text.isDecimal
    match number.dropWhile Text.isDecimal with
    | [] => !whole.isEmpty
    | '.' :: part => !part.isEmpty && part.all Text.isDecimal
    | _ => false
  | _ => false

/-- Cuts a list of characters at its first equals sign. -/
def cutAtEquals (cs : List Char) : List Char × Option (List Char) :=
  (cs.takeWhile (· != '='),
    match cs.dropWhile (· != '=') with
    | [] => none
    | _ :: value => some value)

namespace Word

/-- The options that a shortened long spelling can mean. -/
def meanings (short : List Char) : List CommandOption :=
  (CommandOption.spellings.filter (fun s => short.isPrefixOf s.1.toList)).map Prod.snd

/-- What a word is that starts with two dashes and is no full spelling; `none` if it can mean more
than one option. -/
def ofShortened (cs : List Char) : Option (Option Word) :=
  let (short, value) := cutAtEquals cs
  match meanings short with
  | [] => some none
  | [o] => some (some (.option o (value.map String.ofList)))
  | _ => none

/-- The value that a text joined to an option gives: two dashes are dropped. -/
def joinedValue (text : String) : String := if text = "--" then "" else text

/-- What the short help option is with the letters of more short options after it.  Text after the
letter of an expression is that expression, and help comes before it.  A letter that is no option
is left over as a value, which help does not take. -/
def ofHelpAnd : List Char → Word
  | [] => .option .help none
  | 'h' :: rest => ofHelpAnd rest
  | ['e'] => .helpThenEval
  | 'e' :: _ :: _ => .option .help none
  | rest => .option .help (some (String.ofList rest))

/-- What a short option is with text after it in its word: its value, or for help more options. -/
def ofShortAnd (o : CommandOption) (text : List Char) : Word :=
  match o, text with
  | .help, c :: rest => ofHelpAnd (c :: rest)
  | o, text => .option o (some (String.ofList text))

/-- What a word is that starts with one dash and is no full spelling. -/
def ofShort (cs : List Char) : Option Word :=
  (CommandOption.spellings.find? (fun s => s.1.toList == cs.take 2)).map
    (fun s => ofShortAnd s.2 (cs.drop 2))

/-- What a word is that starts with a dash and that no option is spelled like. -/
def ofOther (cs : List Char) : Word :=
  if looksNegative cs || cs.contains ' ' then .plain (String.ofList cs)
  else .unknown (String.ofList cs)

/-- What a word is; `none` if it can mean more than one option. -/
def ofText (text : String) : Option Word :=
  match text.toList with
  | '-' :: c :: rest =>
    match CommandOption.spellings.lookup text with
    | some o => some (.option o none)
    | none =>
      let cs := '-' :: c :: rest
      let (spelling, value) := cutAtEquals cs
      match value, CommandOption.spellings.lookup (String.ofList spelling) with
      | some v, some o =>
        some (if c = '-' then .option o (some (String.ofList v)) else ofShortAnd o v)
      | _, _ =>
        if c = '-' then (ofShortened cs).map (·.getD (ofOther cs))
        else some ((ofShort cs).getD (ofOther cs))
  | _ => some (.plain text)

/-- The words of a command line; `none` if one of them can mean more than one option. -/
def ofTexts : List String → Option (List Word)
  | [] => some []
  | text :: rest =>
    if text = "--" then some (.separator :: rest.map .plain)
    else match ofText text, ofTexts rest with
      | some w, some ws => some (w :: ws)
      | _, _ => none

end Word

/-! ## 2. Requests -/

/-- What is to be run. -/
structure Job where
  files : List String := []
  expressions : List String := []
  extended : Bool := false
  deriving DecidableEq, Repr

/-- What a command line asks for. -/
inductive Request
  | run (j : Job)
  | help
  | version
  | misuse
  deriving DecidableEq, Repr

/-- Where the group of files is. -/
inductive Group
  | ahead
  | here
  | behind
  deriving DecidableEq, Repr

/-- What has been gathered from the words so far. -/
structure Gathered where
  job : Job := {}
  group : Group := .ahead
  /-- whether a word was met that has no place -/
  surplus : Bool := false

namespace Gathered

/-- An option ends the group of files. -/
def endGroup (g : Gathered) : Gathered :=
  match g.group with
  | .here => { g with group := .behind }
  | _ => g

/-- Files join the group, unless it has ended. -/
def addFiles (g : Gathered) (files : List String) : Gathered :=
  match g.group with
  | .behind => { g with surplus := true }
  | _ => { g with group := .here, job := { g.job with files := g.job.files ++ files } }

/-- An expression is evaluated after the others. -/
def addExpression (g : Gathered) (text : String) : Gathered :=
  { g.endGroup with job := { g.job with expressions := g.job.expressions ++ [text] } }

/-- The extended library is asked for. -/
def extend (g : Gathered) : Gathered := { g.endGroup with job := { g.job with extended := true } }

/-- A word that has no place. -/
def refuse (g : Gathered) : Gathered := { g.endGroup with surplus := true }

end Gathered

/-- What the words from here on ask for. -/
def Request.ofWords (g : Gathered) : List Word → Request
  | [] => if g.surplus then .misuse else .run g.job
  | .plain text :: rest => ofWords (g.addFiles [text]) rest
  | .separator :: rest => ofWords (g.addFiles []) rest
  | .unknown _ :: rest => ofWords g.refuse rest
  | .option .help none :: _ => .help
  | .option .help (some _) :: _ => .misuse
  | .helpThenEval :: .plain _ :: _ => .help
  | .helpThenEval :: _ => .misuse
  | .option .version none :: _ => .version
  | .option .version (some _) :: _ => .misuse
  | .option .extended none :: rest => ofWords g.extend rest
  | .option .extended (some _) :: _ => .misuse
  | .option .eval (some text) :: rest => ofWords (g.addExpression (Word.joinedValue text)) rest
  | .option .eval none :: .plain text :: rest => ofWords (g.addExpression text) rest
  | .option .eval none :: _ => .misuse

/-- What a command line asks for. -/
def Request.ofTexts (args : List String) : Request :=
  match Word.ofTexts args with
  | none => .misuse
  | some ws => .ofWords {} ws

/-! ## 3. Running -/

/-- The line that shows the version. -/
def versionLine : String := "jlisp 0.2.0\n"

/-- What help shows: how the program is used, its files and options, and examples. -/
def helpText : String := String.join [
  "usage: jlisp [-h] [-e EXPR] [--extended] [--version] [files ...]\n\n",
  "Run jlisp programs\n\n",
  "positional arguments:\n",
  "  files                 source files to load, in order\n\n",
  "options:\n",
  "  -h, --help            show this help message and exit\n",
  "  -e EXPR, --eval EXPR  evaluate EXPR and print the result\n",
  "  --extended            bind the extended builtin library\n",
  "  --version             show program's version number and exit\n\n",
  "Examples:\n",
  "  jlisp prelude.jl program.jl       Load files in order\n",
  "  jlisp -e \"(+ 1 2)\"                Evaluate an expression and print it\n",
  "  jlisp --extended -e \"(range 3)\"   Enable the extended builtin library\n",
  "        \n"]

/-- The line that ends a run that is nested too deeply. -/
def tooDeepLine : String := "error: maximum recursion depth exceeded\n"

/-- The name that expressions of the command line go by. -/
def expressionSource : String := "<eval>"

/-- Loads files in order and prints each error; tells whether there was one. -/
def loadAll (i : Interpreter) : List String → EvalM Bool
  | [] => pure false
  | f :: rest => do
    let r ← i.load f
    if r.isError then Machine.print r.text
    return (← loadAll i rest) || r.isError

/-- Evaluates expressions in order and prints each result; tells whether one was an error. -/
def evalAll (i : Interpreter) : List String → EvalM Bool
  | [] => pure false
  | e :: rest => do
    let r ← i.evalText e expressionSource
    Machine.print r.text
    return (← evalAll i rest) || r.isError

/-- Runs a job; tells whether there was an error. -/
def runJob (host : Host) (j : Job) : EvalM Bool := do
  let i ← Interpreter.make host (if j.extended then some true else none) ""
  let failed ← loadAll i j.files
  return (← evalAll i j.expressions) || failed

/-- How a command ends. -/
inductive Outcome
  /-- answered without running anything -/
  | answered (exit : Nat) (output : String)
  | finished (exit : Nat) (output diagnostics : String)
  /-- ended by a fault that is not about depth -/
  | broken (f : Fault) (output diagnostics : String)

/-- Does what a command line asks for. -/
def runCommand (host : Host) (args : List String) : Outcome :=
  match Request.ofTexts args with
  | .help => .answered 0 helpText
  | .version => .answered 0 versionLine
  | .misuse => .answered 2 ""
  | .run j =>
    match (runJob host j).run {} with
    | .ok failed m => .finished (if failed then 1 else 0) m.output (m.report host.logLevel)
    | .error .tooDeep m => .finished 2 m.output (m.report host.logLevel ++ tooDeepLine)
    | .error f m => .broken f m.output (m.report host.logLevel)

end CurryLisp
