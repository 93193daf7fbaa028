import CycleWatch.Toml.Document
import CycleWatch.Toml.Literal
import CycleWatch.Toml.Scalar
/-!
# Reading TOML

`read?` yields the tree of a TOML text, version 1.1, if it is well formed and not nested too deeply.
-/
namespace CycleWatch.Toml

/-- The text after its leading spaces and tabs. -/
def skipBlanks (cs : List Char) : List Char :=
  cs.dropWhile fun c => c == ' ' || c == '\t'

/-- The text after the comment at its start, if there is one. -/
def skipComment : List Char → List Char
  | '#' :: rest => rest.dropWhile isPrintable
  | cs => cs

/-- The text after the new line at its start. -/
def newLine? : List Char → Option (List Char)
  | '\n' :: rest => some rest
  | '\r' :: '\n' :: rest => some rest
  | _ => none

/-- The text after the end of a line, before which blanks and a comment may stand. The end of the text
ends its last line. -/
def endLine? (cs : List Char) : Option (List Char) :=
  match skipComment (skipBlanks cs) with
  | [] => some []
  | cs => newLine? cs

/-- The text after blanks, comments and new lines, of at most `fuel` lines. -/
def skipLines : (fuel : Nat) → List Char → List Char
  | 0, cs => cs
  | fuel + 1, cs =>
    match newLine? (skipComment (skipBlanks cs)) with
    | some rest => skipLines fuel rest
    | none => skipBlanks cs

/-- A character of a bare key. -/
def isBare (c : Char) : Bool :=
  c.isAlphanum || c == '_' || c == '-'

/-- A key without dots, bare or quoted, and what follows it. -/
def readPart : List Char → Option (String × List Char)
  | [] => none
  | c :: rest =>
    if c == '"' || c == apostrophe then
      (readShort c rest).map fun (key, rest) => (String.ofList key, rest)
    else
      match (c :: rest).takeWhile isBare with
      | [] => none
      | key => some (String.ofList key, (c :: rest).dropWhile isBare)

/-- How many arrays and inline tables may contain each other, and how many parts a key may have. -/
def maxDepth : Nat := 80

/-- A key of at most `fuel` parts between dots: its path, its last part, and what follows it. -/
def readParts : (fuel : Nat) → List Char → Option (List String × String × List Char)
  | 0, _ => none
  | fuel + 1, cs =>
    match readPart (skipBlanks cs) with
    | none => none
    | some (part, rest) =>
      match skipBlanks rest with
      | '.' :: rest => (readParts fuel rest).map fun (path, key, rest) => (part :: path, key, rest)
      | rest => some ([], part, rest)

/-- A key: its path, its last part, and what follows it. -/
def readKey (cs : List Char) : Option (List String × String × List Char) :=
  (readParts cs.length cs).filter fun (path, _, _) => path.length < maxDepth

/-- A character that ends a word. -/
def endsWord (c : Char) : Bool :=
  [' ', '\t', '\n', '\r', ',', '=', '[', ']', '\x7b', '\x7d', '#'].contains c

/-- The word at the start of the text, and what follows it. A day and a time of day with a space
between them are one word. -/
def takeWord (cs : List Char) : List Char × List Char :=
  let word := cs.takeWhile fun c => !endsWord c
  match cs.dropWhile fun c => !endsWord c with
  | ' ' :: c :: rest =>
    if skipDate word == some [] && c.isDigit then
      (word ++ ' ' :: (c :: rest).takeWhile fun c => !endsWord c,
        (c :: rest).dropWhile fun c => !endsWord c)
    else (word, ' ' :: c :: rest)
  | rest => (word, rest)

/-- A scalar without quotes, and what follows it. -/
def readScalar (cs : List Char) : Option (Tree × List Char) :=
  (treeOfWord? (takeWord cs).1).map fun scalar => (scalar, (takeWord cs).2)

/-- The tree of an inline table. -/
def inlineTable? (assignments : List (List String × String × Tree)) : Option Tree :=
  (assignments.foldlM (fun members (path, key, value) =>
    Members.assign path key value .explicit members) []).map fun members =>
      .table (membersToTrees members)

mutual

/-- The value at the start of the text and what follows it, for values of at most `fuel` parts and
arrays and inline tables of at most `depth` levels. -/
def readValue : (fuel depth : Nat) → List Char → Option (Tree × List Char)
  | 0, _, _ => none
  | fuel + 1, depth, cs =>
    match cs, depth with
    | [], _ => none
    | '[' :: _, 0 => none
    | '\x7b' :: _, 0 => none
    | '[' :: rest, depth + 1 =>
      (readItems fuel depth rest).map fun (items, rest) => (.list items, rest)
    | '\x7b' :: rest, depth + 1 => do
      let (assignments, rest) ← readAssignments fuel depth rest
      return (← inlineTable? assignments, rest)
    | c :: rest, _ =>
      if c == '"' || c == apostrophe then
        (readString c rest).map fun (text, rest) => (.text (some (String.ofList text)), rest)
      else readScalar (c :: rest)

/-- The items of an array up to its closing bracket, and what follows it. -/
def readItems : (fuel depth : Nat) → List Char → Option (List Tree × List Char)
  | 0, _, _ => none
  | fuel + 1, depth, cs =>
    match skipLines cs.length cs with
    | ']' :: rest => some ([], rest)
    | cs =>
      match readValue fuel depth cs with
      | none => none
      | some (item, rest) =>
        match skipLines rest.length rest with
        | ']' :: rest => some ([item], rest)
        | ',' :: rest =>
          (readItems fuel depth rest).map fun (items, rest) => (item :: items, rest)
        | _ => none

/-- The assignments of an inline table up to its closing brace, and what follows it. -/
def readAssignments :
    (fuel depth : Nat) → List Char → Option (List (List String × String × Tree) × List Char)
  | 0, _, _ => none
  | fuel + 1, depth, cs =>
    match skipLines cs.length cs with
    | '\x7d' :: rest => some ([], rest)
    | cs =>
      match readAssignment fuel depth cs with
      | none => none
      | some (assignment, rest) =>
        match skipLines rest.length rest with
        | '\x7d' :: rest => some ([assignment], rest)
        | ',' :: rest =>
          (readAssignments fuel depth rest).map fun (others, rest) => (assignment :: others, rest)
        | _ => none

/-- An assignment of an inline table, and what follows it. New lines may stand on either side of the
sign of equality. -/
def readAssignment :
    (fuel depth : Nat) → List Char → Option ((List String × String × Tree) × List Char)
  | 0, _, _ => none
  | fuel + 1, depth, cs =>
    match readKey cs with
    | none => none
    | some (path, key, rest) =>
      match skipLines rest.length rest with
      | '=' :: rest =>
        (readValue fuel depth (skipLines rest.length rest)).map fun (value, rest) =>
          ((path, key, value), rest)
      | _ => none

end

/-- A value outside of other values, and what follows it. Two levels of reading at most go on before a
character is used up, so twice the length of the text bounds the levels. -/
def readOuterValue (cs : List Char) : Option (Tree × List Char) :=
  readValue (2 * cs.length + 2) maxDepth cs

/-- A statement, and what follows its line. -/
def readStatement (cs : List Char) : Option (Statement × List Char) :=
  match cs with
  | '[' :: '[' :: rest =>
    match readKey rest with
    | some (path, key, ']' :: ']' :: rest) =>
      (endLine? rest).map fun rest => (.arrayHeader path key, rest)
    | _ => none
  | '[' :: rest =>
    match readKey rest with
    | some (path, key, ']' :: rest) => (endLine? rest).map fun rest => (.header path key, rest)
    | _ => none
  | cs =>
    match readKey cs with
    | some (path, key, '=' :: rest) => do
      let (value, rest) ← readOuterValue (skipBlanks rest)
      return (.assign path key value, ← endLine? rest)
    | _ => none

/-- The statements of a text of at most `fuel` lines. -/
def readStatements : (fuel : Nat) → List Char → Option (List Statement)
  | 0, _ => none
  | fuel + 1, cs =>
    match skipLines cs.length cs with
    | [] => some []
    | cs =>
      match skipComment cs with
      | [] => some []
      | _ =>
        match readStatement cs with
        | none => none
        | some (statement, rest) => (readStatements fuel rest).map (statement :: ·)

/-- The text without a byte-order mark at its start. -/
def dropMark : List Char → List Char
  | '\ufeff' :: rest => rest
  | cs => cs

/-- The tree of a text. Every statement takes a line, so the length of the text bounds their number. -/
def read? (s : String) : Option Tree :=
  let cs := dropMark s.toList
  (readStatements (cs.length + 1) cs).bind treeOf?

end CycleWatch.Toml
