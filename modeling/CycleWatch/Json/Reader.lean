import CycleWatch.Text.Decimal
import CycleWatch.Tree
/-!
# Reading JSON

`read?` yields the tree of a JSON text, if the whole text is one value with nothing but space around
it. A number is whole when it is written without fraction and exponent and is not `-0`. A text whose
escapes give half of a surrogate pair is well formed but stands for no text.
-/
namespace CycleWatch.Json

/-- The white space of JSON. -/
def isSpace (c : Char) : Bool :=
  c == ' ' || c == '\t' || c == '\n' || c == '\r'

/-- The text from its first character that is no white space. -/
def skipSpace (cs : List Char) : List Char :=
  cs.dropWhile isSpace

/-- A decimal digit. -/
def isDigit (c : Char) : Bool :=
  (Text.digitValue? c).isSome

/-- The value of a hexadecimal digit in either case. -/
def hexValue? (c : Char) : Option Nat :=
  if '0' ≤ c ∧ c ≤ '9' then some (c.toNat - 48)
  else if 'a' ≤ c ∧ c ≤ 'f' then some (c.toNat - 87)
  else if 'A' ≤ c ∧ c ≤ 'F' then some (c.toNat - 55)
  else none

/-- A part of a written text. -/
inductive Piece where
  /-- A character, as itself or by a short escape. -/
  | char (c : Char)
  /-- A numbered escape: a code point of the basic plane or half of a surrogate pair. -/
  | unit (n : Nat)

/-- The character that the letter of a short escape stands for. -/
def shortEscaped? : Char → Option Char
  | '"' => some '"'
  | '\\' => some '\\'
  | '/' => some '/'
  | 'b' => some '\x08'
  | 'f' => some '\x0c'
  | 'n' => some '\n'
  | 'r' => some '\r'
  | 't' => some '\t'
  | _ => none

/-- The number of four hexadecimal digits. -/
def fourHex? (a b c d : Char) : Option Nat :=
  match hexValue? a, hexValue? b, hexValue? c, hexValue? d with
  | some a, some b, some c, some d => some (((a * 16 + b) * 16 + c) * 16 + d)
  | _, _, _, _ => none

/-- The parts of a text up to its closing quote, and what follows the quote. -/
def readPieces : List Char → Option (List Piece × List Char)
  | [] => none
  | '"' :: rest => some ([], rest)
  | '\\' :: 'u' :: a :: b :: c :: d :: rest =>
    match fourHex? a b c d with
    | some n => (readPieces rest).map fun (ps, rest) => (.unit n :: ps, rest)
    | none => none
  | '\\' :: letter :: rest =>
    match shortEscaped? letter with
    | some c => (readPieces rest).map fun (ps, rest) => (.char c :: ps, rest)
    | none => none
  | c :: rest =>
    if c.toNat < 0x20 ∨ c = '\\' then none
    else (readPieces rest).map fun (ps, rest) => (.char c :: ps, rest)

/-- The characters that the parts stand for: the two halves of a surrogate pair, high one first, make
one character, and a half by itself none. -/
def joinPieces : List Piece → Option (List Char)
  | [] => some []
  | .char c :: rest => (joinPieces rest).map (c :: ·)
  | .unit high :: .unit low :: rest =>
    if 0xD800 ≤ high ∧ high < 0xDC00 ∧ 0xDC00 ≤ low ∧ low < 0xE000 then
      (joinPieces rest).map (Char.ofNat (0x10000 + (high - 0xD800) * 0x400 + (low - 0xDC00)) :: ·)
    else if 0xD800 ≤ high ∧ high < 0xE000 then none
    else (joinPieces (.unit low :: rest)).map (Char.ofNat high :: ·)
  | .unit n :: rest =>
    if 0xD800 ≤ n ∧ n < 0xE000 then none else (joinPieces rest).map (Char.ofNat n :: ·)

/-- The text that follows its opening quote, and what follows its closing one. -/
def readText (cs : List Char) : Option (Option String × List Char) :=
  (readPieces cs).map fun (ps, rest) => ((joinPieces ps).map String.ofList, rest)

/-- A run of digits and what follows it. -/
def takeDigits (cs : List Char) : List Char × List Char :=
  (cs.takeWhile isDigit, cs.dropWhile isDigit)

/-- The digits before fraction and exponent: no zero leads another digit. -/
def readWhole (cs : List Char) : Option (List Char × List Char) :=
  match cs with
  | '0' :: rest => some (['0'], rest)
  | cs =>
    match takeDigits cs with
    | ([], _) => none
    | (digits, rest) => some (digits, rest)

/-- What follows a fraction, if there is one; whether there was one. -/
def skipFraction : List Char → Option (Bool × List Char)
  | '.' :: rest =>
    match takeDigits rest with
    | ([], _) => none
    | (_, rest) => some (true, rest)
  | cs => some (false, cs)

/-- What follows the sign of an exponent, if it has one. -/
def skipSign : List Char → List Char
  | '+' :: rest => rest
  | '-' :: rest => rest
  | cs => cs

/-- What follows an exponent, if there is one; whether there was one. -/
def skipExponent : List Char → Option (Bool × List Char)
  | c :: rest =>
    if c = 'e' ∨ c = 'E' then
      match takeDigits (skipSign rest) with
      | ([], _) => none
      | (_, rest) => some (true, rest)
    else some (false, c :: rest)
  | [] => some (false, [])

/-- A number without its minus sign, `negative` telling whether it had one, and what follows it. -/
def readMagnitude (negative : Bool) (cs : List Char) : Option (Tree × List Char) := do
  let (digits, rest) ← readWhole cs
  let (fraction, rest) ← skipFraction rest
  let (exponent, rest) ← skipExponent rest
  let n ← Text.readDigits digits
  if fraction || exponent || (negative && n == 0) then some (.other, rest)
  else some (.int (if negative then -(n : Int) else n), rest)

/-- A number and what follows it. -/
def readNumber : List Char → Option (Tree × List Char)
  | '-' :: rest => readMagnitude true rest
  | cs => readMagnitude false cs

mutual

/-- The value at the start of the text and what follows it, for values of at most `fuel` parts. -/
def readValue : (fuel : Nat) → List Char → Option (Tree × List Char)
  | 0, _ => none
  | fuel + 1, cs =>
    match skipSpace cs with
    | 'n' :: 'u' :: 'l' :: 'l' :: rest => some (.null, rest)
    | 't' :: 'r' :: 'u' :: 'e' :: rest => some (.bool true, rest)
    | 'f' :: 'a' :: 'l' :: 's' :: 'e' :: rest => some (.bool false, rest)
    | '"' :: rest => (readText rest).map fun (s, rest) => (.text s, rest)
    | '[' :: rest =>
      match skipSpace rest with
      | ']' :: rest => some (.list [], rest)
      | rest => (readItems fuel rest).map fun (items, rest) => (.list items, rest)
    | '\x7b' :: rest =>
      match skipSpace rest with
      | '\x7d' :: rest => some (.table [], rest)
      | rest => (readMembers fuel rest).map fun (members, rest) => (.table members, rest)
    | cs => readNumber cs

/-- The items of a list up to its closing bracket, and what follows it. -/
def readItems : (fuel : Nat) → List Char → Option (List Tree × List Char)
  | 0, _ => none
  | fuel + 1, cs =>
    match readValue fuel cs with
    | none => none
    | some (item, rest) =>
      match skipSpace rest with
      | ']' :: rest => some ([item], rest)
      | ',' :: rest => (readItems fuel rest).map fun (items, rest) => (item :: items, rest)
      | _ => none

/-- The members of an object up to its closing brace, and what follows it. -/
def readMembers : (fuel : Nat) → List Char → Option (List (Option String × Tree) × List Char)
  | 0, _ => none
  | fuel + 1, cs =>
    match skipSpace cs with
    | '"' :: rest =>
      match readText rest with
      | none => none
      | some (key, rest) =>
        match skipSpace rest with
        | ':' :: rest =>
          match readValue fuel rest with
          | none => none
          | some (value, rest) =>
            match skipSpace rest with
            | '\x7d' :: rest => some ([(key, value)], rest)
            | ',' :: rest =>
              (readMembers fuel rest).map fun (members, rest) => ((key, value) :: members, rest)
            | _ => none
        | _ => none
    | _ => none

end

/-- The tree of a text that is one JSON value. Each level of reading uses up a character, so twice
the length of the text bounds the levels. -/
def read? (s : String) : Option Tree :=
  match readValue (2 * s.length + 1) s.toList with
  | some (tree, rest) => if (skipSpace rest).isEmpty then some tree else none
  | none => none

end CycleWatch.Json
