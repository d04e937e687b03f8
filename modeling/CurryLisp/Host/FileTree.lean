/-
# The file tree

The files that a program can read: a working directory, and the entries of a tree by their names
from the top.  A directory is there if it is listed, holds something that is listed, or is on the
way to the working directory.

Opening a path walks it name by name.  The walk fails where a name leads to nothing, where
something that is not a directory is entered, where a directory may not be entered, and where a
name is too long; the first of these that is met is the one that is reported.
-/
import CurryLisp.Host.Path
import CurryLisp.Text.Quoted
import CurryLisp.Text.Utf8

namespace CurryLisp

/-! ## 1. Trees -/

/-- An entry of the tree. -/
inductive FileEntry
  | file (bytes : List UInt8)
  | directory
  /-- a file that may not be read -/
  | lockedFile
  /-- a directory that may neither be entered nor be read -/
  | lockedDirectory

/-- A tree of files and a working directory in it. -/
structure FileTree where
  workdir : List String
  entries : List (List String × FileEntry)

namespace FileTree

/-- What stands at a place of the tree, if anything does. -/
def at? (t : FileTree) (place : List String) : Option FileEntry :=
  match t.entries.find? (fun e => e.1 == place) with
  | some e => some e.2
  | none =>
    if place.isPrefixOf t.workdir || t.entries.any (fun e => place.isPrefixOf e.1) then
      some .directory
    else none

/-- Puts an entry at a place, instead of what stood there. -/
def put (t : FileTree) (place : List String) (e : FileEntry) : FileTree :=
  { t with entries := (place, e) :: t.entries.filter (fun x => x.1 != place) }

end FileTree

/-! ## 2. Opening -/

/-- Why something cannot be opened. -/
inductive OpenFault
  | missing
  | forbidden
  | notDirectory
  | isDirectory
  | nameTooLong
  deriving DecidableEq, Repr

namespace OpenFault

/-- The number of a reason. -/
def number : OpenFault → Nat
  | missing => 2
  | forbidden => 13
  | notDirectory => 20
  | isDirectory => 21
  | nameTooLong => 36

/-- A reason in words. -/
def text : OpenFault → String
  | missing => "No such file or directory"
  | forbidden => "Permission denied"
  | notDirectory => "Not a directory"
  | isDirectory => "Is a directory"
  | nameTooLong => "File name too long"

/-- A reason in full, with the path. -/
def message (f : OpenFault) (path : String) : String :=
  s!"[Errno {f.number}] {f.text}: " ++ Text.quote path

/-- Whether a reason says that there is nothing.  The others leave open whether there is. -/
def saysAbsent : OpenFault → Bool
  | missing | notDirectory => true
  | forbidden | isDirectory | nameTooLong => false

end OpenFault

/-- The greatest length of a name, in bytes. -/
def maxNameBytes : Nat := 255

/-- The greatest length of a written path, in bytes. -/
def maxPathBytes : Nat := 4095

namespace FileTree

/-- Follows names from a place of the tree. -/
def walk (t : FileTree) (place : List String) : List String → Except OpenFault FileEntry
  | [] =>
    match t.at? place with
    | some e => .ok e
    | none => .error .missing
  | name :: rest =>
    match t.at? place with
    | none => .error .missing
    | some (.file _) => .error .notDirectory
    | some .lockedFile => .error .notDirectory
    | some .lockedDirectory => .error .forbidden
    | some .directory =>
      if maxNameBytes < name.utf8ByteSize then .error .nameTooLong
      else if name = ".." then t.walk place.dropLast rest
      else t.walk (place ++ [name]) rest

/-- What a path leads to. -/
def find (t : FileTree) (p : Path) : Except OpenFault FileEntry :=
  if maxPathBytes < p.text.utf8ByteSize then .error .nameTooLong
  else t.walk (if p.isAbsolute then [] else t.workdir) p.names

/-- The bytes of the file that a path leads to. -/
def bytes (t : FileTree) (p : Path) : Except OpenFault (List UInt8) :=
  match t.find p with
  | .error f => .error f
  | .ok .directory => .error .isDirectory
  | .ok .lockedFile => .error .forbidden
  | .ok .lockedDirectory => .error .forbidden
  | .ok (.file b) => .ok b

end FileTree

/-! ## 3. Texts of files -/

/-- Why a file gives no text. -/
inductive TextFault
  /-- a name holds the null character -/
  | embeddedNull
  | unopened (f : OpenFault)
  | undecodable (f : Text.Utf8Fault)
  deriving DecidableEq

/-- The text of the file that a path leads to. -/
def FileTree.text (t : FileTree) (p : Path) : Except TextFault String :=
  if p.holdsNull then .error .embeddedNull
  else match t.bytes p with
    | .error f => .error (.unopened f)
    | .ok b =>
      match Text.textOfBytes b with
      | .error f => .error (.undecodable f)
      | .ok s => .ok s

/-- Whether a path leads to anything.  A reason that leaves this open is reported. -/
def FileTree.holds (t : FileTree) (p : Path) : Except OpenFault Bool :=
  if p.holdsNull then .ok false
  else match t.find p with
    | .ok _ => .ok true
    | .error f => if f.saysAbsent then .ok false else .error f

end CurryLisp
