/-
# The program

Reads what surrounds the program, does what the command line asks for, and shows the outcome.  The
files that can be read are those under the working directory, under the directories that are
searched, and those named on the command line.
-/
import CurryLisp.CommandLine

namespace CurryLisp

/-- The variables that are looked at. -/
def variableNames : List String :=
  ["JLISP_PATH", "JLISP_LOG_LEVEL", "JLISP_EXTENDED", "JLISP_RECURSION_LIMIT"]

/-- The variables that are looked at and set. -/
def readVariables : IO (List (String × String)) := do
  let mut found := []
  for name in variableNames do
    if let some value ← IO.getEnv name then
      found := (name, value) :: found
  return found

/-- What is read at a place, or a lock if it cannot be read. -/
def readOrLocked (place : List String) (lock : FileEntry)
    (read : IO (List (List String × FileEntry))) : IO (List (List String × FileEntry)) := do
  try read
  catch _ => return [(place, lock)]

/-- The entries of directories, with everything below them. -/
partial def readEntries (place : List String) (listed : Array IO.FS.DirEntry) :
    IO (List (List String × FileEntry)) := do
  let mut found := []
  for entry in listed do
    let here := place ++ [entry.fileName]
    let more ← if ← entry.path.isDir then
        readOrLocked here .lockedDirectory do
          return (here, .directory) :: (← readEntries here (← entry.path.readDir))
      else
        readOrLocked here .lockedFile do
          return [(here, .file (← IO.FS.readBinFile entry.path).toList)]
    found := more ++ found
  return found

/-- The place of a path, when two dots lead out of a directory. -/
def placeFrom (workdir : List String) (p : Path) : List String :=
  p.names.foldl (fun place name => if name = ".." then place.dropLast else place ++ [name])
    (if p.isAbsolute then [] else workdir)

/-- What a path leads to, with everything below it. -/
def readPath (workdir : List String) (p : Path) : IO (List (List String × FileEntry)) := do
  let place := placeFrom workdir p
  try
    let real ← IO.FS.realPath p.text
    if ← real.isDir then
      readOrLocked place .lockedDirectory do
        return (place, .directory) :: (← readEntries place (← real.readDir))
    else
      readOrLocked place .lockedFile do
        return [(place, .file (← IO.FS.readBinFile real).toList)]
  catch _ => return []

/-- The limit on calls that holds when nobody asks for another. -/
def usualLimit : Nat := 1000

/-- What surrounds a job. -/
def readHost (j : Job) : IO Host := do
  let workdir := (Path.ofString (← IO.currentDir).toString).names
  let bare : Host := ⟨⟨workdir, []⟩, ← readVariables, .counted usualLimit⟩
  let mut found := []
  for p in ({} : Path) :: (bare.loadPath ++ j.files.map Path.ofString) do
    found := (← readPath workdir p) ++ found
  return { bare with files := ⟨workdir, found⟩ }

/-- What surrounds a command line. -/
def hostOf (args : List String) : IO Host :=
  match Request.ofTexts args with
  | .run j => readHost j
  | _ => return ⟨⟨[], []⟩, [], .counted usualLimit⟩

/-- Shows an outcome and gives the status to end with. -/
def showOutcome : Outcome → IO UInt32
  | .answered exit output => do
    IO.print output
    return exit.toUInt32
  | .finished exit output diagnostics => do
    IO.print output
    IO.eprint diagnostics
    return exit.toUInt32
  | .broken f output diagnostics => do
    IO.print output
    IO.eprint diagnostics
    IO.eprintln ((f.message?).getD "")
    return 1

end CurryLisp

/-- Does what the command line asks for. -/
def main (args : List String) : IO UInt32 := do
  let host ← CurryLisp.hostOf args
  CurryLisp.showOutcome (CurryLisp.runCommand host args)
