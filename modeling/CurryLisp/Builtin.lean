/-
# Builtins

The functions that a program finds bound when it starts.  An operator answers from its arguments
alone.  A form does more: it evaluates, binds names, prints or reads files.

The core library is always bound.  The extended library is bound on request.  Both are listed in
the order in which they are bound, which is the order in which an environment shows them.
-/

namespace CurryLisp

/-! ## 1. Operators -/

/-- A builtin that answers from its arguments alone. -/
inductive Operator
  | list | head | tail | last | join
  | add | sub | mul | div
  | eq | ne | gt | ge | lt | le
  | error
  | rem | pow
  | bitAnd | bitOr | bitXor | shiftLeft | shiftRight
  | len | range | sort | min | max | abs
  | and | or | not
  | chars | int | substring | split
  deriving DecidableEq, Repr

/-- The name that an operator is bound to. -/
def Operator.name : Operator → String
  | list => "list"
  | head => "head"
  | tail => "tail"
  | last => "last"
  | join => "join"
  | add => "+"
  | sub => "-"
  | mul => "*"
  | div => "/"
  | eq => "=="
  | ne => "!="
  | gt => ">"
  | ge => ">="
  | lt => "<"
  | le => "<="
  | error => "error"
  | rem => "%"
  | pow => "**"
  | bitAnd => "&"
  | bitOr => "|"
  | bitXor => "^"
  | shiftLeft => "<<"
  | shiftRight => ">>"
  | len => "len"
  | range => "range"
  | sort => "sort"
  | min => "min"
  | max => "max"
  | abs => "abs"
  | and => "and"
  | or => "or"
  | not => "not"
  | chars => "chars"
  | int => "int"
  | substring => "str-sub"
  | split => "split"

/-! ## 2. Forms -/

/-- A builtin that evaluates, binds, prints or reads files. -/
inductive Form
  /-- evaluates a quoted list -/
  | eval
  /-- evaluates one of two quoted lists -/
  | branch
  /-- binds names in the root environment -/
  | define
  /-- binds names in the calling environment -/
  | assign
  /-- makes a function that closes over the calling environment -/
  | lambda
  /-- evaluates the forms of a file -/
  | load
  /-- writes a line -/
  | print
  /-- gives the text of a file -/
  | read
  /-- makes a function and binds it in the root environment -/
  | function
  deriving DecidableEq, Repr

/-- The name that a form is bound to. -/
def Form.name : Form → String
  | eval => "eval"
  | branch => "if"
  | define => "def"
  | assign => "="
  | lambda => "\\"
  | load => "load"
  | print => "print"
  | read => "read"
  | function => "fun"

/-! ## 3. The two libraries -/

/-- A builtin. -/
inductive Builtin
  | operator (o : Operator)
  | form (f : Form)
  deriving DecidableEq, Repr

namespace Builtin

/-- The name that a builtin is bound to. -/
def name : Builtin → String
  | operator o => o.name
  | form f => f.name

/-- The core library, in binding order. -/
def core : List Builtin :=
  [operator .list, operator .head, operator .last, operator .tail, form .eval, operator .join,
   operator .add, operator .sub, operator .mul, operator .div,
   form .define, form .lambda, form .assign, form .branch,
   operator .eq, operator .ne, operator .gt, operator .ge, operator .lt, operator .le,
   form .load, operator .error, form .print]

/-- The extended library, in binding order. -/
def extended : List Builtin :=
  [operator .rem, operator .pow, operator .bitAnd, operator .bitOr, operator .bitXor,
   operator .shiftLeft, operator .shiftRight, operator .len, operator .range, operator .sort,
   operator .min, operator .max, operator .abs, operator .and, operator .or, operator .not,
   form .read, operator .chars, operator .int, operator .substring, operator .split,
   form .function]

/-- The builtin with a given name. -/
def ofName? (n : String) : Option Builtin := (core ++ extended).find? (fun b => b.name == n)

/-- Every builtin belongs to one of the libraries. -/
theorem mem_libraries (b : Builtin) : b ∈ core ++ extended := by
  rcases b with o | f
  · cases o <;> simp [core, extended]
  · cases f <;> simp [core, extended]

/-- Every builtin is found by its name. -/
theorem ofName?_name (b : Builtin) : ofName? b.name = some b := by
  have all : ∀ x ∈ core ++ extended, ofName? x.name = some x := by decide +kernel
  exact all b (mem_libraries b)

/-- **Names tell builtins apart.** -/
theorem name_injective {a b : Builtin} (h : a.name = b.name) : a = b := by
  have ha := ofName?_name a
  rw [h, ofName?_name b] at ha
  exact (Option.some.inj ha).symm

end Builtin

end CurryLisp
