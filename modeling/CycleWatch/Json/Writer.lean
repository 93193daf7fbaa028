import CycleWatch.Json
import CycleWatch.Text.Decimal
/-!
# Writing JSON

`compact` writes a value without any space, `pretty` with one item or member on a line, two spaces
deeper for each level. In a text the quote, the backslash and the control characters below U+0020 are
escaped, with the short escapes where JSON has one; every other character stands for itself.
-/
namespace CycleWatch.Json

/-- The lower-case hexadecimal digit of value `d`, for `d` below sixteen. -/
def hexDigit (d : Nat) : Char :=
  if d < 10 then Char.ofNat (48 + d) else Char.ofNat (87 + d)

/-- The letter of the short escape of `c`, if it has one. -/
def shortEscape? (c : Char) : Option Char :=
  match c.toNat with
  | 0x22 => some '"'
  | 0x5C => some '\\'
  | 0x08 => some 'b'
  | 0x09 => some 't'
  | 0x0A => some 'n'
  | 0x0C => some 'f'
  | 0x0D => some 'r'
  | _ => none

/-- A character as it stands inside a written text. -/
def writeChar (c : Char) : List Char :=
  match shortEscape? c with
  | some letter => ['\\', letter]
  | none =>
    if c.toNat < 0x20 then
      ['\\', 'u', '0', '0', hexDigit (c.toNat / 16), hexDigit (c.toNat % 16)]
    else [c]

/-- A text between quotes. -/
def writeText (s : String) : List Char :=
  '"' :: s.toList.flatMap writeChar ++ ['"']

/-- A fraction behind its point, if there is one. -/
def writeFraction : List (Fin 10) → List Char
  | [] => []
  | d :: ds => '.' :: (d :: ds).map fun d => Text.digitChar d.val

/-- An exponent behind its letter, if there is one. -/
def writeExponent : Option Int → List Char
  | none => []
  | some n => 'e' :: Text.writeInt n

/-- A number. -/
def writeNumber : Number → List Char
  | .whole n => Text.writeInt n
  | .decimal d =>
    (if d.negative then ['-'] else []) ++
      (Text.writeNat d.whole ++ (writeFraction d.fraction ++ writeExponent d.exponent))

mutual

/-- The value without any space. -/
def compact : Json → List Char
  | .null => "null".toList
  | .bool true => "true".toList
  | .bool false => "false".toList
  | .num n => writeNumber n
  | .str s => writeText s
  | .arr [] => ['[', ']']
  | .arr (x :: xs) => '[' :: compact x ++ compactItems xs
  | .obj [] => ['\x7b', '\x7d']
  | .obj ((k, x) :: ms) => '\x7b' :: writeText k ++ ':' :: compact x ++ compactMembers ms

/-- The items after the first one, and the closing bracket. -/
def compactItems : List Json → List Char
  | [] => [']']
  | x :: xs => ',' :: compact x ++ compactItems xs

/-- The members after the first one, and the closing brace. -/
def compactMembers : List (String × Json) → List Char
  | [] => ['\x7d']
  | (k, x) :: ms => ',' :: writeText k ++ ':' :: compact x ++ compactMembers ms

end

/-- A new line, `depth` levels deep. -/
def newLine (depth : Nat) : List Char :=
  '\n' :: List.replicate (2 * depth) ' '

mutual

/-- The value that starts `depth` levels deep, one item or member on a line. -/
def pretty (depth : Nat) : Json → List Char
  | .null => "null".toList
  | .bool true => "true".toList
  | .bool false => "false".toList
  | .num n => writeNumber n
  | .str s => writeText s
  | .arr [] => ['[', ']']
  | .arr (x :: xs) =>
    '[' :: newLine (depth + 1) ++ pretty (depth + 1) x ++ prettyItems depth xs
  | .obj [] => ['\x7b', '\x7d']
  | .obj ((k, x) :: ms) =>
    '\x7b' :: newLine (depth + 1) ++ writeText k ++ ':' :: ' ' :: pretty (depth + 1) x ++
      prettyMembers depth ms

/-- The items after the first one of a list `depth` levels deep, and the closing bracket. -/
def prettyItems (depth : Nat) : List Json → List Char
  | [] => newLine depth ++ [']']
  | x :: xs => ',' :: newLine (depth + 1) ++ pretty (depth + 1) x ++ prettyItems depth xs

/-- The members after the first one of an object `depth` levels deep, and the closing brace. -/
def prettyMembers (depth : Nat) : List (String × Json) → List Char
  | [] => newLine depth ++ ['\x7d']
  | (k, x) :: ms =>
    ',' :: newLine (depth + 1) ++ writeText k ++ ':' :: ' ' :: pretty (depth + 1) x ++
      prettyMembers depth ms

end

/-- `compact` as a string. -/
def toCompactText (j : Json) : String :=
  String.ofList (compact j)

/-- `pretty` as a string, ended by a new line. -/
def toPrettyText (j : Json) : String :=
  String.ofList (pretty 0 j ++ ['\n'])

end CycleWatch.Json
