import CycleWatch.Text.Decimal
import CycleWatch.Text.Letter
import CycleWatch.Toml.Literal
/-!
# Writing TOML

A document of one level of tables is written with an assignment on a line and a blank line before each
table. A string is written in the first of its four forms that needs no escape; where all need one it
stands between double quotes.
-/
namespace CycleWatch.Toml

/-- A value to be written. -/
inductive Value where
  /-- A truth value. -/
  | bool (b : Bool)
  /-- A natural number. -/
  | nat (n : Nat)
  /-- A text. -/
  | text (s : String)
  /-- A list of texts. -/
  | texts (items : List String)
deriving DecidableEq, Repr

/-- A control character that no form but the escaping ones can hold. -/
def isControl (c : Char) : Bool :=
  !isPrintable c && c != '\n'

/-- The form of a string. -/
inductive Form where
  /-- Between double quotes, on one line. -/
  | quoted
  /-- Between single quotes, on one line. -/
  | raw
  /-- Between three double quotes. -/
  | longQuoted
  /-- Between three single quotes. -/
  | longRaw
deriving DecidableEq, Repr

/-- The form in which a text is written. -/
def formOf (cs : List Char) : Form :=
  let lacks (c : Char) : Bool := !cs.contains c
  let lacksThree (c : Char) : Bool := !Text.hasRun [c, c, c] cs
  let plain := !cs.any isControl
  if plain && lacks '\\' && lacks '"' && lacks '\n' then .quoted
  else if plain && lacks apostrophe && lacks '\n' then .raw
  else if plain && lacks '\\' && lacksThree '"' then .longQuoted
  else if plain && lacksThree apostrophe then .longRaw
  else if lacks '\n' then .quoted
  else .longQuoted

/-- The upper-case hexadecimal digit of value `d`, for `d` below sixteen. -/
def hexDigit (d : Nat) : Char :=
  if d < 10 then Char.ofNat (48 + d) else Char.ofNat (55 + d)

/-- The escape of a character that cannot stand between double quotes by itself; quote and new line
are left to the forms. -/
def escape? (c : Char) : Option (List Char) :=
  match c.toNat with
  | 0x08 => some ['\\', 'b']
  | 0x09 => some ['\\', 't']
  | 0x0C => some ['\\', 'f']
  | 0x0D => some ['\\', 'r']
  | 0x5C => some ['\\', '\\']
  | n =>
    if isControl c then some ['\\', 'u', '0', '0', hexDigit (n / 16), hexDigit (n % 16)] else none

/-- A character between double quotes on one line. -/
def quotedChar (c : Char) : List Char :=
  if c = '"' then ['\\', '"']
  else if c = '\n' then ['\\', 'n']
  else (escape? c).getD [c]

/-- A text between three double quotes, after `run` quotes that stand by themselves: the third in a row
is escaped. -/
def longQuotedFrom (run : Nat) : List Char → List Char
  | [] => []
  | c :: rest =>
    if c = '"' then
      if run = 2 then '\\' :: '"' :: longQuotedFrom 0 rest else '"' :: longQuotedFrom (run + 1) rest
    else (escape? c).getD [c] ++ longQuotedFrom 0 rest

/-- The new line that opens a text of several lines and does not belong to it. -/
def opening (cs : List Char) : List Char :=
  if cs.contains '\n' then ['\n'] else []

/-- A text as a string literal. -/
def writeText (s : String) : List Char :=
  let cs := s.toList
  let threeQuotes := ['"', '"', '"']
  let threeApostrophes := [apostrophe, apostrophe, apostrophe]
  match formOf cs with
  | .quoted => '"' :: cs.flatMap quotedChar ++ ['"']
  | .raw => apostrophe :: cs ++ [apostrophe]
  | .longQuoted => threeQuotes ++ opening cs ++ longQuotedFrom 0 cs ++ threeQuotes
  | .longRaw => threeApostrophes ++ opening cs ++ cs ++ threeApostrophes

/-- A value; a list of two texts or more has one on a line. -/
def writeValue : Value → List Char
  | .bool true => "true".toList
  | .bool false => "false".toList
  | .nat n => Text.writeNat n
  | .text s => writeText s
  | .texts [] => ['[', ']']
  | .texts [s] => '[' :: writeText s ++ [']']
  | .texts items =>
    "[\n".toList ++ (items.flatMap fun s => "    ".toList ++ writeText s ++ ",\n".toList) ++ [']']

/-- Assignments to bare keys, one on a line. -/
def writeAssignments (assignments : List (String × Value)) : List Char :=
  assignments.flatMap fun a => a.1.toList ++ " = ".toList ++ writeValue a.2 ++ ['\n']

/-- The assignments of the root and of tables with bare keys, and a blank line at the end. -/
def writeDocument (root : List (String × Value)) (tables : List (String × List (String × Value))) :
    List Char :=
  writeAssignments root ++
    (tables.flatMap fun t => "\n[".toList ++ t.1.toList ++ "]\n".toList ++ writeAssignments t.2) ++
    ['\n']

end CycleWatch.Toml
