/-
# Settings

The surroundings of a program: the file tree, the variables that are set, and the calls that may be
nested.  Four variables are looked at.  A setting that cannot be understood falls back to its
default, with one exception: a limit on calls that is written with digits and that the host does not
read, because some of them stand in no numeral or because they are too many.
-/
import CurryLisp.Host.Calls
import CurryLisp.Host.FileTree
import CurryLisp.Text.Blank
import CurryLisp.Text.Numeral

namespace CurryLisp

/-- What surrounds a program. -/
structure Host where
  files : FileTree
  settings : List (String × String) := []
  calls : CallStack

namespace Host

/-- The text of a variable, empty if it is not set. -/
def setting? (h : Host) (name : String) : Option String := h.settings.lookup name

/-- The text of a variable without blanks around it, empty if it is not set. -/
def trimmed (h : Host) (name : String) : String := Text.trim ((h.setting? name).getD "")

/-! ## 1. Where files are looked for -/

/-- Cuts a list of characters at every colon. -/
def splitColons : List Char → List (List Char)
  | [] => [[]]
  | c :: rest =>
    if c = ':' then [] :: splitColons rest
    else match splitColons rest with
      | [] => [[c]]
      | w :: ws => (c :: w) :: ws

/-- The paths that a variable lists between colons, or the defaults if it is not set or empty. -/
def pathsFrom (h : Host) (name : String) (defaults : List Path) : List Path :=
  match h.setting? name with
  | none => defaults
  | some s =>
    if s = "" then defaults
    else ((splitColons s.toList).map Text.trimChars).filterMap fun cs =>
      if cs = [] then none else some (Path.ofString (String.ofList cs))

/-- The directories that are searched for a file. -/
def loadPath (h : Host) : List Path := h.pathsFrom "JLISP_PATH" [{}]

/-- The first of some directories that holds a path, with the path under it. -/
def firstHolding (h : Host) (p : Path) : List Path → Except (OpenFault × Path) (Option Path)
  | [] => .ok none
  | dir :: rest =>
    match h.files.holds (dir.under p) with
    | .error f => .error (f, dir.under p)
    | .ok true => .ok (some (dir.under p))
    | .ok false => h.firstHolding p rest

/-- The file that a name stands for: an absolute path as it is; otherwise the first place, of the
working directory and the directories that are searched, that holds it; otherwise the name. -/
def resolve (h : Host) (name : String) : Except (OpenFault × Path) Path :=
  let p := Path.ofString name
  if p.isAbsolute then .ok p
  else match h.files.holds p with
    | .error f => .error (f, p)
    | .ok true => .ok p
    | .ok false =>
      match h.firstHolding p h.loadPath with
      | .error e => .error e
      | .ok found => .ok (found.getD p)

/-! ## 2. What is reported -/

/-- The levels of what is reported, by name. -/
def levels : List (String × Nat) :=
  [("CRITICAL", 50), ("FATAL", 50), ("ERROR", 40), ("WARNING", 30), ("WARN", 30), ("INFO", 20),
   ("DEBUG", 10), ("NOTSET", 0)]

/-- The level of warnings. -/
def warningLevel : Nat := 30

/-- A letter of a level's name in upper case.  Two letters outside ASCII have a capital in it. -/
def levelLetter (c : Char) : Char :=
  if c.toNat = 0x131 then 'I' else if c.toNat = 0x17F then 'S' else c.toUpper

/-- The lowest level that is reported. -/
def logLevel (h : Host) : Nat :=
  let word := match h.setting? "JLISP_LOG_LEVEL" with
    | none => "WARNING"
    | some s => String.ofList ((Text.trimChars s.toList).map levelLetter)
  (levels.lookup word).getD warningLevel

/-! ## 3. The extended library and the limit on calls -/

/-- Whether the extended library is bound when nobody says so. -/
def extendedByDefault (h : Host) : Bool :=
  ["1", "true", "yes", "on"].contains
    (String.ofList ((h.trimmed "JLISP_EXTENDED").toList.map Char.toLower))

/-- The limit that is asked for: `none` for a text that is not all digits, and a fault for one that
is all digits and that the host does not read. -/
def recursionLimit (h : Host) : Except Text.NumeralFault (Option Nat) :=
  let raw := h.trimmed "JLISP_RECURSION_LIMIT"
  if raw.toList.isEmpty || !raw.toList.all Text.isAnyDigit then .ok none
  else match Text.readNumeral raw with
    | .ok n => .ok (some n.toNat)
    | .error f => .error f

/-- The greatest limit that can be set. -/
def greatestRecursionLimit : Nat := 2147483647

/-- The limit that holds: asking can only raise it.  No limit holds if more is asked for than can
be set. -/
def effectiveLimit (h : Host) (asked : Option Nat) : Option Nat :=
  if asked.getD 0 ≤ greatestRecursionLimit then some (max h.calls.usual (asked.getD 0)) else none

end Host

end CurryLisp
