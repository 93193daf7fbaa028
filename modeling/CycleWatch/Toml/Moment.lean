import CycleWatch.Text.Decimal
/-!
# Dates and times of TOML

A moment is a day, a time of day, or both, and with both it may have an offset from universal time.
Only whether a text is one matters here: nothing takes its value.
-/
namespace CycleWatch.Toml

/-- The number that exactly so many digits continue, and what follows them. -/
def readPlaces (value : Nat) : (count : Nat) → List Char → Option (Nat × List Char)
  | 0, cs => some (value, cs)
  | count + 1, c :: rest => (Text.digitValue? c).bind fun d => readPlaces (10 * value + d) count rest
  | _ + 1, [] => none

/-- What follows a character at the start of the text. -/
def skipMark (mark : Char) : List Char → Option (List Char)
  | [] => none
  | c :: rest => if c = mark then some rest else none

/-- Whether a year has a day more than others. -/
def isLeapYear (year : Nat) : Bool :=
  year % 4 == 0 && (year % 100 != 0 || year % 400 == 0)

/-- How many days a month has, January being the first. -/
def daysOf (year month : Nat) : Nat :=
  if month = 2 then if isLeapYear year then 29 else 28
  else if [4, 6, 9, 11].contains month then 30
  else 31

/-- What follows a day of a year. -/
def skipDate (cs : List Char) : Option (List Char) := do
  let (year, cs) ← readPlaces 0 4 cs
  let (month, cs) ← readPlaces 0 2 (← skipMark '-' cs)
  let (day, cs) ← readPlaces 0 2 (← skipMark '-' cs)
  if 1 ≤ month ∧ month ≤ 12 ∧ 1 ≤ day ∧ day ≤ daysOf year month then some cs else none

/-- What follows an hour and a minute. -/
def skipClock (cs : List Char) : Option (List Char) := do
  let (hour, cs) ← readPlaces 0 2 cs
  let (minute, cs) ← readPlaces 0 2 (← skipMark ':' cs)
  if hour ≤ 23 ∧ minute ≤ 59 then some cs else none

/-- What follows the fraction of a second, if there is one. -/
def skipFraction : List Char → Option (List Char)
  | '.' :: d :: rest => if d.isDigit then some (rest.dropWhile Char.isDigit) else none
  | cs => some cs

/-- What follows the seconds, if there are any. The second after the 59th is one too. -/
def skipSeconds : List Char → Option (List Char)
  | ':' :: cs => do
    let (second, cs) ← readPlaces 0 2 cs
    if second ≤ 60 then skipFraction cs else none
  | cs => some cs

/-- What follows a time of day. -/
def skipTime (cs : List Char) : Option (List Char) :=
  (skipClock cs).bind skipSeconds

/-- Whether the text is an offset from universal time, which may be missing. -/
def isOffset : List Char → Bool
  | [] => true
  | ['Z'] | ['z'] => true
  | '+' :: cs | '-' :: cs => skipClock cs == some []
  | _ => false

/-- Whether the text is a moment. -/
def isMoment (cs : List Char) : Bool :=
  match skipDate cs with
  | some [] => true
  | some (c :: rest) => ['T', 't', ' '].contains c && (skipTime rest).any isOffset
  | none => skipTime cs == some []

end CycleWatch.Toml
