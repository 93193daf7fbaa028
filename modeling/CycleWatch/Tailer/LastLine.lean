import CycleWatch.Text.Blank
/-!
# The last line of a text

A line counts once it is ended by a new-line character; what follows the last such character is a
record still being written. The last line that counts is found in one pass over the text.
-/
namespace CycleWatch.Tailer

/-- What a pass over a text has come upon. -/
structure LineScan where
  /-- The last ended line that is not blank, without its trailing blanks. -/
  last : Option (List Char)
  /-- The characters since the last end of a line, latest first. -/
  unfinished : List Char
deriving DecidableEq, Repr

namespace LineScan

/-- Nothing has been read. -/
def start : LineScan := ⟨none, []⟩

/-- Reads one more character. -/
def push (s : LineScan) (c : Char) : LineScan :=
  if c = '\n' then
    match s.unfinished.dropWhile Text.isBlank with
    | [] => ⟨s.last, []⟩
    | line => ⟨some line.reverse, []⟩
  else ⟨s.last, c :: s.unfinished⟩

/-- Reads a text. -/
def pushAll (s : LineScan) (cs : List Char) : LineScan :=
  cs.foldl push s

theorem pushAll_append (s : LineScan) (cs ds : List Char) :
    s.pushAll (cs ++ ds) = (s.pushAll cs).pushAll ds :=
  List.foldl_append

end LineScan

/-- The last ended line of the text that is not blank, without its trailing blanks. -/
def lastLine (contents : String) : Option String :=
  (LineScan.start.pushAll contents.toList).last.map String.ofList

end CycleWatch.Tailer
