import CycleWatch.Json.Reader
import CycleWatch.Text.Pieces
import CycleWatch.Toml.Moment
import CycleWatch.Tree
/-!
# Scalars of TOML

A word stands for a truth value, a whole number, or a scalar of another kind: a number with a fraction
or an exponent, infinity, what is not a number, or a moment. Whole numbers may be of any size, and some
words pass for whole numbers without having a value: they are well formed, but nothing can take them.
-/
namespace CycleWatch.Toml

/-- The value of digits in a base, with underscores between some of them. -/
def readGrouped (base : Nat) (digit? : Char → Option Nat) : (value : Nat) → List Char → Option Nat
  | value, [] => some value
  | value, '_' :: c :: rest =>
    match digit? c with
    | some d => readGrouped base digit? (base * value + d) rest
    | none => none
  | value, c :: rest =>
    match digit? c with
    | some d => readGrouped base digit? (base * value + d) rest
    | none => none

/-- The value of a numeral in a base, which starts with a digit. -/
def readBased (base : Nat) : List Char → Option Nat
  | [] => none
  | c :: rest =>
    let digit? (c : Char) : Option Nat := (Json.hexValue? c).filter (· < base)
    (digit? c).bind fun d => readGrouped base digit? d rest

/-- The value of a decimal numeral without a sign; no zero leads another digit. -/
def readUnsigned : List Char → Option Nat
  | ['0'] => some 0
  | '0' :: _ => none
  | cs => readBased 10 cs

/-- A whole number: decimal with or without a sign, or in base sixteen, eight or two without one. -/
def readInteger : List Char → Option Int
  | '0' :: 'x' :: digits => (readBased 16 digits).map Int.ofNat
  | '0' :: 'o' :: digits => (readBased 8 digits).map Int.ofNat
  | '0' :: 'b' :: digits => (readBased 2 digits).map Int.ofNat
  | '+' :: digits => (readUnsigned digits).map Int.ofNat
  | '-' :: digits => (readUnsigned digits).map fun n => -(n : Int)
  | digits => (readUnsigned digits).map Int.ofNat

/-- The text after the sign at its start, if there is one. -/
def dropSign : List Char → List Char
  | '+' :: rest | '-' :: rest => rest
  | cs => cs

/-- A character within a decimal numeral. -/
def isGrouped (c : Char) : Bool :=
  c.isDigit || c == '_'

/-- Whether the text is an exponent, which may be missing. -/
def isExponent : List Char → Bool
  | [] => true
  | c :: rest => (c == 'e' || c == 'E') && (readBased 10 (dropSign rest)).isSome

/-- Whether the text is a fraction and an exponent, which may both be missing. -/
def isFraction : List Char → Bool
  | '.' :: rest =>
    (readBased 10 (rest.takeWhile isGrouped)).isSome && isExponent (rest.dropWhile isGrouped)
  | cs => isExponent cs

/-- Whether the text is a number that is not written as a whole one. -/
def isReal (cs : List Char) : Bool :=
  match dropSign cs with
  | ['i', 'n', 'f'] | ['n', 'a', 'n'] => true
  | cs =>
    (readUnsigned (cs.takeWhile isGrouped)).isSome && isFraction (cs.dropWhile isGrouped)

/-- A digit in base sixteen. -/
def isHexDigit (c : Char) : Bool :=
  (Json.hexValue? c).isSome

/-- Whether every underscore in a word stands between digits in base sixteen. -/
def isJoinedByDigits (cs : List Char) : Bool :=
  let pieces := Text.pieces '_' cs
  (pieces.drop 1).all (fun piece => piece.head?.any isHexDigit) &&
    pieces.dropLast.all fun piece => piece.getLast?.any isHexDigit

/-- Whether a word passes for a whole number, though it may have no value: digits in base ten, not led
by zero, and then an underscore and anything without a space, a point and the letter of an exponent. -/
def isLooseInteger (cs : List Char) : Bool :=
  let rest := cs.dropWhile Char.isDigit
  cs.head?.any (fun c => c.isDigit && c != '0') && rest.head? == some '_' &&
    !rest.any [' ', '.', 'e', 'E'].contains && isJoinedByDigits cs

/-- Whether a word is the mark of a base without any digits, which has no value either. -/
def isBaseMark (cs : List Char) : Bool :=
  [['0', 'x'], ['0', 'o'], ['0', 'b']].contains cs

/-- The scalar that a word stands for. -/
def treeOfWord? : List Char → Option Tree
  | ['t', 'r', 'u', 'e'] => some (.bool true)
  | ['f', 'a', 'l', 's', 'e'] => some (.bool false)
  | word =>
    match readInteger word with
    | some n => some (.int n)
    | none =>
      if isReal word || isMoment word || isLooseInteger (dropSign word) || isBaseMark word then
        some .other
      else none

end CycleWatch.Toml
