import CycleWatch.Dict
import CycleWatch.Fault
import CycleWatch.Text.Blank
import CycleWatch.Text.Decimal
import CycleWatch.Text.Letter
import CycleWatch.Text.Pieces
import CycleWatch.Word
/-!
# Metric lines

A report is one line of tokens `name=value` between commas. A token counts when it starts with the
family of the metrics looked for; every other token is passed over. A token that counts has to be
readable, or the whole line is refused for the first one that is not.
-/
namespace CycleWatch

/-- A report: at most one value for each metric name. -/
abbrev Sample := Dict Int64

/-- What is wrong with a token that counts. -/
inductive LineFault where
  /-- The token has no `=`. -/
  | missingSeparator (token : String)
  /-- Nothing but blanks stands before the `=`. -/
  | emptyKey (token : String)
  /-- What stands after the `=` is not a signed 64-bit number. -/
  | invalidValue (key value : String)
deriving DecidableEq, Repr

namespace LineFault

/-- The fault in words. -/
def message : LineFault → String
  | .missingSeparator token => "metric token `" ++ token ++ "` has no `=` separator"
  | .emptyKey token => "metric token `" ++ token ++ "` has no key"
  | .invalidValue key value => "metric `" ++ key ++ "` has non-integer value `" ++ value ++ "`"

/-- The fault with its classification. -/
def toFault (e : LineFault) : Fault :=
  let fault := Fault.expected .parseError e.message
  match e with
  | .missingSeparator token | .emptyKey token => fault.withContext "token" token
  | .invalidValue key value => (fault.withContext "key" key).withContext "value" value

end LineFault

namespace Metric

/-- Whether a trimmed token counts: it is not empty and starts with the family. -/
def counts (family token : List Char) : Bool :=
  !token.isEmpty && family.isPrefixOf token

/-- The name and the value of a trimmed token. -/
def readToken (token : List Char) : Except LineFault (String × Int64) :=
  match Text.cutAtFirst '=' token with
  | none => .error (.missingSeparator (String.ofList token))
  | some (before, after) =>
    let key := Text.trimChars before
    let value := Text.trimChars after
    if key.isEmpty then .error (.emptyKey (String.ofList token))
    else
      match (Text.readInt value).bind Word.int64? with
      | some n => .ok (String.ofList key, n)
      | none => .error (.invalidValue (String.ofList key) (String.ofList value))

/-- The trimmed tokens of a line, those included that do not count. -/
def tokens (line : List Char) : List (List Char) :=
  (Text.pieces ',' line).map Text.trimChars

/-- Puts the tokens that count into the sample, one after the other. -/
def readTokens (family : List Char) : List (List Char) → Sample → Except LineFault Sample
  | [], sample => .ok sample
  | token :: rest, sample =>
    if counts family token then
      match readToken token with
      | .ok (key, value) => readTokens family rest (sample.insert key value)
      | .error e => .error e
    else readTokens family rest sample

/-- The sample of a line; where a name occurs twice its last value counts. Without a line there is
nothing in the sample. -/
def readLine (family : String) : Option String → Except LineFault Sample
  | none => .ok Dict.empty
  | some line => readTokens family.toList (tokens line.toList) Dict.empty

end Metric

end CycleWatch
