import CycleWatch.Fault.Io
import CycleWatch.Text.Pieces
/-!
# Files by their paths

A tree of files below a working directory, as a program meets it through paths: how a path leads to a
file or a directory, and what the system reports when it leads nowhere.
-/
namespace CycleWatch

/-- What a tree has at a path. -/
inductive Files.Entry where
  /-- A file with its contents. -/
  | file (bytes : ByteArray)
  /-- A directory. -/
  | directory

/-- A tree of files: what stands below the working directory, by the names on the way to it. The
directories on the way to an entry are there too. -/
structure Files where
  /-- The entries. -/
  entries : List (List String × Files.Entry)

namespace Files

/-- Where a path has led so far. -/
inductive Place where
  /-- To a directory of the tree. -/
  | directory (names : List String)
  /-- To a file. -/
  | file (bytes : ByteArray)
  /-- To a directory outside the tree, of which nothing else is known. -/
  | outside

/-- The failure that a path leads to nothing. -/
def missing : IoFailure := .ofNumber 2

/-- The failure that a path goes on after a file. -/
def notDirectory : IoFailure := .ofNumber 20

/-- The failure that a directory is read. -/
def isDirectory : IoFailure := .ofNumber 21

/-- The failure that a path or a name on it is too long. -/
def tooLong : IoFailure := .ofNumber 36

/-- The failure that a path holds the character that ends names. -/
def nulInName : IoFailure := ⟨.invalidInput, "file name contained an unexpected NUL byte"⟩

/-- The failure that a file does not hold text. -/
def notText : IoFailure := ⟨.invalidData, "stream did not contain valid UTF-8"⟩

/-- How many bytes a name has at most. -/
def longestName : Nat := 255

/-- How many bytes a path has at most. -/
def longestPath : Nat := 4095

/-- What stands at the end of the names. -/
def at? (t : Files) (names : List String) : Option Place :=
  match t.entries.lookup names with
  | some (.file bytes) => some (.file bytes)
  | some .directory => some (.directory names)
  | none => if t.entries.any (fun e => names.isPrefixOf e.1) then some (.directory names) else none

/-- Follows one more name from a place. -/
def follow (t : Files) : Place → String → Except IoFailure Place
  | .file _, _ => .error notDirectory
  | place, "" => .ok place
  | place, "." => .ok place
  | .directory names, ".." =>
    .ok (if names.isEmpty then .outside else .directory names.dropLast)
  | .outside, ".." => .ok .outside
  | .directory names, name =>
    if longestName < name.utf8ByteSize then .error tooLong
    else
      match t.at? (names ++ [name]) with
      | some place => .ok place
      | none => .error missing
  | .outside, name => .error (if longestName < name.utf8ByteSize then tooLong else missing)

/-- Follows a path to its end. -/
def locate (t : Files) (path : String) : Except IoFailure Place :=
  if path.toList.contains '\x00' then .error nulInName
  else if path = "" then .error missing
  else if longestPath < path.utf8ByteSize then .error tooLong
  else
    let names := (Text.pieces '/' path.toList).map String.ofList
    let start : Place := if path.toList.head? = some '/' then .outside else .directory []
    names.foldlM t.follow start

/-- Bytes as text. -/
def decode (bytes : ByteArray) : Except IoFailure String :=
  match String.fromUTF8? bytes with
  | some s => .ok s
  | none => .error notText

/-- The text of the file at a path. -/
def readText (t : Files) (path : String) : Except IoFailure String := do
  match ← t.locate path with
  | .file bytes => decode bytes
  | _ => .error isDirectory

/-- The name of the operation in the context of its faults. -/
def operation : String := "fs.read_file_text"

/-- Reads the sink at a path, unless called off: the text of the file, or nothing when there is none.
What is no file or has more bytes than allowed is refused. -/
def readSink (t : Files) (cancelled : Bool) (maxBytes : Option Nat) (path : String) :
    Except Fault (Option String) :=
  if cancelled then .error (Fault.calledOff operation)
  else
    match t.locate path with
    | .error e =>
      if e.kind = .notFound then .ok none else .error (e.toFault.withContext "path" path)
    | .ok (.file bytes) =>
      match maxBytes.filter (· < bytes.size) with
      | some limit =>
        .error (((Fault.expected .invalidInput "file exceeds max size").withContext
          "path" path).withContext "maxBytes" (Text.natText limit))
      | none =>
        ((decode bytes).mapError fun e => e.toFault.withContext "path" path).map some
    | .ok _ =>
      .error ((Fault.expected .invalidInput "path is not a file").withContext "path" path)

/-- The last name on a path. Empty names and single dots lead nowhere and are left out. -/
def lastName (path : String) : List Char :=
  let names := (Text.pieces '/' path.toList).filter fun name => name ≠ [] && name ≠ ['.']
  names.getLast?.getD []

/-- What follows the last dot in the last name of a path, if a dot is in it and not at its start. -/
def extension? (path : String) : Option String :=
  if lastName path = ['.', '.'] then none
  else
    match Text.cutAtLast '.' (lastName path) with
    | some (stem, extension) => if stem.isEmpty then none else some (String.ofList extension)
    | none => none

end Files

end CycleWatch
