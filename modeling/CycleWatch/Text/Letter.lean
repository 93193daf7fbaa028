/-!
# Letters of the basic Latin alphabet

Case is folded for the letters A to Z alone; every other character stays as it is.
-/
namespace CycleWatch.Text

/-- The text with `A` to `Z` in lower case. -/
def lowerChars (cs : List Char) : List Char :=
  cs.map Char.toLower

/-- The text with `a` to `z` in upper case. -/
def upperChars (cs : List Char) : List Char :=
  cs.map Char.toUpper

/-- Whether `part` occurs in the text as a run of neighbouring characters. -/
def hasRun (part : List Char) : List Char → Bool
  | [] => part.isEmpty
  | c :: rest => part.isPrefixOf (c :: rest) || hasRun part rest

/-- Whether the string `s` starts with the string `start`. -/
def startsWith (s start : String) : Bool :=
  start.toList.isPrefixOf s.toList

end CycleWatch.Text
