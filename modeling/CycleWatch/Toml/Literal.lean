import CycleWatch.Json.Reader
/-!
# String literals of TOML

A string stands between double quotes, with escapes, or between single quotes, as it is; between three
of either it may run over several lines. Each of the four forms is read character by character by a
machine with a few states.
-/
namespace CycleWatch.Toml

/-- The single quote. -/
def apostrophe : Char := '\x27'

/-- A character that may stand in a string or a comment: no control character but the tab. -/
def isPrintable (c : Char) : Bool :=
  c == '\t' || (0x20 ≤ c.toNat && c.toNat != 0x7F)

/-- What a machine does on a character. -/
inductive Move (σ : Type) where
  /-- It yields some text and goes on. -/
  | go (out : List Char) (next : σ)
  /-- The literal ends with this character. -/
  | endAfter
  /-- The literal has ended before this character. -/
  | endBefore
  /-- The character cannot stand here. -/
  | refuse

/-- Runs a machine over the text and yields what it yields, and what follows the literal. At the end
of the text the literal has to be at an end too. -/
def scan {σ : Type} (step : σ → Char → Move σ) (atEnd : σ → Bool) :
    σ → List Char → Option (List Char × List Char)
  | s, [] => if atEnd s then some ([], []) else none
  | s, c :: rest =>
    match step s c with
    | .go out s => (scan step atEnd s rest).map fun (text, rest) => (out ++ text, rest)
    | .endAfter => some ([], rest)
    | .endBefore => some ([], c :: rest)
    | .refuse => none

/-- The machine between single quotes. -/
def rawStep (_ : Unit) (c : Char) : Move Unit :=
  if c == apostrophe then .endAfter else if isPrintable c then .go [c] () else .refuse

/-- Where a machine stands that reads escapes. -/
inductive Escape where
  /-- Not inside an escape. -/
  | plain
  /-- After the backslash. -/
  | backslash
  /-- Inside a numbered escape: the digits still to come and the value of those before them. -/
  | hex (left value : Nat)
deriving DecidableEq

/-- The character of a number, if it is that of one. -/
def scalar? (n : Nat) : Option Char :=
  if n < 0xD800 ∨ 0xE000 ≤ n ∧ n < 0x110000 then some (Char.ofNat n) else none

/-- The machine after a backslash. -/
def afterBackslash (c : Char) : Move Escape :=
  match c with
  | 'b' => .go ['\x08'] .plain
  | 't' => .go ['\t'] .plain
  | 'n' => .go ['\n'] .plain
  | 'f' => .go ['\x0c'] .plain
  | 'r' => .go ['\r'] .plain
  | 'e' => .go ['\x1b'] .plain
  | '"' => .go ['"'] .plain
  | '\\' => .go ['\\'] .plain
  | 'x' => .go [] (.hex 2 0)
  | 'u' => .go [] (.hex 4 0)
  | 'U' => .go [] (.hex 8 0)
  | _ => .refuse

/-- The machine inside a numbered escape. -/
def inHex (left value : Nat) (c : Char) : Move Escape :=
  match Json.hexValue? c with
  | none => .refuse
  | some d =>
    if left ≤ 1 then
      match scalar? (16 * value + d) with
      | some c => .go [c] .plain
      | none => .refuse
    else .go [] (.hex (left - 1) (16 * value + d))

/-- The machine between double quotes. -/
def quotedStep : Escape → Char → Move Escape
  | .plain, c =>
    if c == '"' then .endAfter
    else if c == '\\' then .go [] .backslash
    else if isPrintable c then .go [c] .plain
    else .refuse
  | .backslash, c => afterBackslash c
  | .hex left value, c => inHex left value c

/-- Where a machine stands in a literal of several lines. -/
inductive Lines where
  /-- Just after the opening quotes, where a new line does not count. -/
  | opening
  /-- After a carriage return just after the opening quotes. -/
  | openingReturn
  /-- In the text. -/
  | text
  /-- After a carriage return. -/
  | return
  /-- After so many quotes in a row. -/
  | quotes (count : Nat)
  /-- After three quotes and so many more. -/
  | closing (more : Nat)
  /-- Inside an escape. -/
  | escape (e : Escape)
  /-- In the blanks after a backslash; whether a new line was among them. -/
  | gap (crossed : Bool)
  /-- After a carriage return in such blanks. -/
  | gapReturn
deriving DecidableEq

/-- A literal of several lines has ended once its closing quotes are there. -/
def Lines.closed : Lines → Bool
  | .closing _ => true
  | _ => false

/-- The same move with text put in front of what it yields. -/
def Move.after {σ : Type} (text : List Char) : Move σ → Move σ
  | .go out next => .go (text ++ out) next
  | m => m

/-- The move of an escape inside a literal of several lines. -/
def Move.escaped : Move Escape → Move Lines
  | .go out .plain => .go out .text
  | .go out e => .go out (.escape e)
  | .endAfter => .endAfter
  | .endBefore => .endBefore
  | .refuse => .refuse

/-- The machine in the text of several lines, where `quote` is the quote of the literal and
`escapes` tells whether there are escapes. -/
def linesText (quote : Char) (escapes : Bool) (c : Char) : Move Lines :=
  if c == quote then .go [] (.quotes 1)
  else if escapes && c == '\\' then .go [] (.escape .backslash)
  else if c == '\n' then .go ['\n'] .text
  else if c == '\r' then .go [] .return
  else if isPrintable c then .go [c] .text
  else .refuse

/-- The machine in the blanks after a backslash. -/
def linesGap (quote : Char) (escapes crossed : Bool) (c : Char) : Move Lines :=
  if c == ' ' || c == '\t' then .go [] (.gap crossed)
  else if c == '\n' then .go [] (.gap true)
  else if c == '\r' then .go [] .gapReturn
  else if crossed then linesText quote escapes c
  else .refuse

/-- The machine between three quotes. -/
def linesStep (quote : Char) (escapes : Bool) : Lines → Char → Move Lines
  | .opening, c =>
    if c == '\n' then .go [] .text
    else if c == '\r' then .go [] .openingReturn
    else linesText quote escapes c
  | .openingReturn, c => if c == '\n' then .go [] .text else .refuse
  | .text, c => linesText quote escapes c
  | .return, c => if c == '\n' then .go ['\r', '\n'] .text else .refuse
  | .quotes count, c =>
    if c == quote then
      if 2 ≤ count then .go [] (.closing 0) else .go [] (.quotes (count + 1))
    else (linesText quote escapes c).after (List.replicate count quote)
  | .closing more, c =>
    if c == quote && more < 2 then .go [quote] (.closing (more + 1)) else .endBefore
  | .escape .backslash, c =>
    if c == ' ' || c == '\t' || c == '\n' || c == '\r' then linesGap quote escapes false c
    else (afterBackslash c).escaped
  | .escape (.hex left value), c => (inHex left value c).escaped
  | .escape .plain, c => linesText quote escapes c
  | .gap crossed, c => linesGap quote escapes crossed c
  | .gapReturn, c => if c == '\n' then .go [] (.gap true) else .refuse

/-- A string of one line after its opening quote. -/
def readShort (quote : Char) (cs : List Char) : Option (List Char × List Char) :=
  if quote == '"' then scan quotedStep (fun _ => false) .plain cs
  else scan rawStep (fun _ => false) () cs

/-- A string of several lines after its opening quotes. -/
def readLong (quote : Char) (cs : List Char) : Option (List Char × List Char) :=
  scan (linesStep quote (quote == '"')) Lines.closed .opening cs

/-- A string after its first quote: two more quotes make it one of several lines. -/
def readString (quote : Char) (cs : List Char) : Option (List Char × List Char) :=
  match cs with
  | a :: b :: rest => if a == quote && b == quote then readLong quote rest else readShort quote cs
  | cs => readShort quote cs

end CycleWatch.Toml
