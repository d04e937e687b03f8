/-
# File paths

A path is a list of names, starting from the working directory or from the top of the tree.  Empty
names and single dots say nothing and are dropped when a path is read; two dots are kept, because
what they mean depends on the tree.  A path that starts with exactly two slashes keeps both.
-/

namespace CurryLisp

/-- Where a path starts. -/
inductive Path.Start
  | here
  | top
  | doubleTop
  deriving DecidableEq, Repr

/-- A path. -/
structure Path where
  start : Path.Start := .here
  names : List String := []
  deriving DecidableEq, Repr

namespace Path

/-- Cuts a list of characters at every slash. -/
def splitSlashes : List Char → List (List Char)
  | [] => [[]]
  | c :: rest =>
    if c = '/' then [] :: splitSlashes rest
    else match splitSlashes rest with
      | [] => [[c]]
      | w :: ws => (c :: w) :: ws

/-- Where a path starts, by the slashes at its front. -/
def Start.ofChars (cs : List Char) : Start :=
  match (cs.takeWhile (· == '/')).length with
  | 0 => .here
  | 2 => .doubleTop
  | _ => .top

/-- Whether a piece between slashes is a name: not empty, and not a single dot. -/
def isName (w : List Char) : Bool := !(w == [] || w == ['.'])

/-- Reads a path. -/
def ofString (s : String) : Path :=
  ⟨Start.ofChars s.toList, ((splitSlashes s.toList).filter isName).map String.ofList⟩

/-- What a path is written with in front of its names. -/
def Start.text : Start → String
  | here => ""
  | top => "/"
  | doubleTop => "//"

/-- The written form of a path; the path without names that starts here is a single dot. -/
def text (p : Path) : String :=
  if p.start = .here ∧ p.names = [] then "."
  else p.start.text ++ String.intercalate "/" p.names

/-- Whether a path starts from the top of the tree. -/
def isAbsolute (p : Path) : Bool := p.start != .here

/-- A path read from a directory: an absolute one stays as it is. -/
def under (dir p : Path) : Path :=
  if p.isAbsolute then p else { dir with names := dir.names ++ p.names }

/-- Whether a path holds the null character, which no file name can. -/
def holdsNull (p : Path) : Bool := p.names.any (fun n => n.toList.contains '\x00')

end Path

end CurryLisp
