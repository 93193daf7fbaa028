import CycleWatch.Config.Admission
import CycleWatch.Secret
/-!
# Overrides from the environment

Eight environment variables override settings of the configuration. A variable that is set has to be
readable, or it is refused; a variable that is not set leaves its setting alone.
-/
namespace CycleWatch.Config

/-- The variable of the sink's path. -/
def sinkFileVar : String := "GCM_SINK_FILE"

/-- The variable of the time between two readings. -/
def pollIntervalVar : String := "GCM_TAILER_POLL_INTERVAL_MS"

/-- The variable of the number of attempts. -/
def maxAttemptsVar : String := "GCM_WAITER_MAX_ATTEMPTS"

/-- The variable of the delay between attempts. -/
def delayVar : String := "GCM_WAITER_DELAY_MS"

/-- The variable of the metrics' family. -/
def familyVar : String := "GCM_METRIC_PREFIX"

/-- The variable of the expected metrics. -/
def expectedKeysVar : String := "GCM_EXPECTED_KEYS"

/-- The variable that tells whether the first report is passed over. -/
def skipStaleFirstVar : String := "GCM_SKIP_STALE_FIRST"

/-- The variable of the least level logged. -/
def levelVar : String := "GCM_LOG_LEVEL"

/-- All eight variables, in the order in which they are read. -/
def overrideVars : List String :=
  [sinkFileVar, pollIntervalVar, maxAttemptsVar, delayVar, familyVar, expectedKeysVar,
    skipStaleFirstVar, levelVar]

/-- What is wrong with a variable. -/
inductive VarFault where
  /-- It is set, but blank. -/
  | emptyValue (var : String)
  /-- It is not a truth value. -/
  | invalidBool (var value : String)
  /-- It is not a number of its width. -/
  | invalidInt (var value : String)
  /-- It is not one of the words allowed. -/
  | invalidEnum (var value : String)
  /-- It is a list that is too long. -/
  | csvTooLarge (var : String) (size greatest : Nat)
deriving DecidableEq, Repr

namespace VarFault

/-- The code of a fault. -/
def code : VarFault → Fault.Code
  | .emptyValue _ => .config "empty_env_var"
  | .invalidBool .. => .config "invalid_env_bool"
  | .invalidInt .. => .config "invalid_env_int"
  | .invalidEnum .. => .config "invalid_env_enum"
  | .csvTooLarge .. => .config "invalid_env_csv"

/-- The fault in words, which do not repeat the value. -/
def message : VarFault → String
  | .emptyValue var => var ++ " must be non-empty"
  | .invalidBool var _ => var ++ " must be a boolean"
  | .invalidInt var _ => var ++ " must be a non-negative integer"
  | .invalidEnum var _ => var ++ " has an unsupported value"
  | .csvTooLarge var size greatest =>
    var ++ " is too large (" ++ Text.natText size ++ " items, max " ++ Text.natText greatest ++ ")"

/-- What is known about the circumstances; the value is concealed if the name is that of a secret. -/
def context : VarFault → List (String × String)
  | .emptyValue var => [("env_var", var)]
  | .invalidBool var value | .invalidInt var value | .invalidEnum var value =>
    [("env_var", var), ("value", Secret.conceal var value)]
  | .csvTooLarge var size greatest =>
    [("env_var", var), ("len", Text.natText size), ("max", Text.natText greatest)]

/-- The fault with its classification. -/
def toFault (e : VarFault) : Fault :=
  e.context.foldl (fun f entry => f.withContext entry.1 entry.2) (Fault.expected e.code e.message)

end VarFault

/-- The settings that override those of a configuration. -/
structure Overrides where
  /-- The path of the sink. -/
  sinkFile : Option String
  /-- The time in milliseconds between two readings. -/
  pollIntervalMs : Option UInt64
  /-- How many snapshots to look at. -/
  maxAttempts : Option UInt32
  /-- The delay in milliseconds after each one without news. -/
  delayMs : Option UInt64
  /-- The text that the names of the metrics start with. -/
  family : Option String
  /-- The metrics that a report has to contain. -/
  expectedKeys : Option (List String)
  /-- Whether the first report is passed over. -/
  skipStaleFirst : Option Bool
  /-- The least level logged. -/
  level : Option Log.Level
deriving DecidableEq, Repr

/-- A level by its word or, for `warn`, by the long word; case and surrounding blanks do not count. -/
def level? (s : String) : Option Log.Level :=
  match String.ofList (Text.lowerChars (Text.trimChars s.toList)) with
  | "debug" => some .debug
  | "info" => some .info
  | "warn" => some .warn
  | "warning" => some .warn
  | "error" => some .error
  | _ => none

/-- A truth value by one of its words, in any case. -/
def truth? (s : String) : Option Bool :=
  let word := String.ofList (Text.lowerChars s.toList)
  if ["true", "1", "yes", "on"].contains word then some true
  else if ["false", "0", "no", "off"].contains word then some false
  else none

/-- The texts between commas. -/
def commaTexts (s : String) : List String :=
  (Text.pieces ',' s.toList).map String.ofList

/-- A variable as it stands and trimmed, if it is set. -/
def value? (vars : Dict String) (var : String) : Except VarFault (Option (String × String)) :=
  match vars.get? var with
  | none => .ok none
  | some raw =>
    let trimmed := Text.trim raw
    if trimmed = "" then .error (.emptyValue var) else .ok (some (raw, trimmed))

/-- A variable read by `read`, if it is set; `refuse` tells what is wrong with a value that cannot be
read. -/
def setting? {α : Type} (vars : Dict String) (var : String) (read : String → Option α)
    (refuse : String → String → VarFault) : Except VarFault (Option α) := do
  match ← value? vars var with
  | none => return none
  | some (raw, trimmed) =>
    match read trimmed with
    | some a => return some a
    | none => throw (refuse var raw)

/-- A variable trimmed, if it is set: any text will do. -/
def text? (vars : Dict String) (var : String) : Except VarFault (Option String) := do
  return (← value? vars var).map Prod.snd

/-- An unsigned number of 64 bits. -/
def uint64Text? (s : String) : Option UInt64 :=
  (Text.readNat s.toList).bind fun n => Word.uint64? n

/-- An unsigned number of 32 bits. -/
def uint32Text? (s : String) : Option UInt32 :=
  (Text.readNat s.toList).bind fun n => Word.uint32? n

/-- A list of metric names between commas, in normal form. -/
def keys? (vars : Dict String) (var : String) : Except VarFault (Option (List String)) := do
  match ← value? vars var with
  | none => return none
  | some (_, trimmed) =>
    let keys := Metric.normalKeys (commaTexts trimmed)
    if keys = [] then throw (.emptyValue var)
    else if expectedKeysMax < keys.length then
      throw (.csvTooLarge var keys.length expectedKeysMax)
    else return some keys

namespace Overrides

/-- No setting is overridden. -/
def empty : Overrides := ⟨none, none, none, none, none, none, none, none⟩

/-- The overrides of an environment, or the first variable that is refused. -/
def ofVars (vars : Dict String) : Except VarFault Overrides := do
  let sinkFile ← text? vars sinkFileVar
  let pollIntervalMs ← setting? vars pollIntervalVar uint64Text? .invalidInt
  let maxAttempts ← setting? vars maxAttemptsVar uint32Text? .invalidInt
  let delayMs ← setting? vars delayVar uint64Text? .invalidInt
  let family ← text? vars familyVar
  let expectedKeys ← keys? vars expectedKeysVar
  let skipStaleFirst ← setting? vars skipStaleFirstVar truth? .invalidBool
  let level ← setting? vars levelVar level? .invalidEnum
  return ⟨sinkFile, pollIntervalMs, maxAttempts, delayMs, family, expectedKeys, skipStaleFirst,
    level⟩

/-- The configuration with its overridden settings. -/
def override (o : Overrides) (c : Config) : Config where
  version := c.version
  tailer := ⟨o.sinkFile.getD c.tailer.sinkFile, o.pollIntervalMs.getD c.tailer.pollIntervalMs⟩
  waiter := ⟨o.maxAttempts.getD c.waiter.maxAttempts, o.delayMs.getD c.waiter.delayMs⟩
  metrics := ⟨o.family.getD c.metrics.family, o.expectedKeys.getD c.metrics.expectedKeys,
    o.skipStaleFirst.getD c.metrics.skipStaleFirst⟩
  logging := ⟨o.level.getD c.logging.level⟩

/-- The configuration with its overridden settings, if it is admitted. -/
def apply (o : Overrides) (c : Config) : Except Fault Admitted :=
  (toAdmitted (o.override c)).mapError Defect.toFault

end Overrides

end CycleWatch.Config
