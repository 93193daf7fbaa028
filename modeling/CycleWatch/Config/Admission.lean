import CycleWatch.Bounded
import CycleWatch.Config.Basic
import CycleWatch.Cycle.Check
/-!
# Admitting a configuration

A configuration is admitted when its version is supported, its texts are not blank, its numbers lie in
their ranges, and the expected metrics belong to the family. What is admitted is in normal form: the
texts trimmed, the metrics trimmed and ascending, without blanks and repetitions. Otherwise the first
setting that is wrong is reported.
-/
namespace CycleWatch.Config

/-- What is wrong with a configuration. -/
inductive Defect where
  /-- The version is not supported. -/
  | unsupportedVersion (found supported : UInt32)
  /-- A time is out of its range. -/
  | timeOutOfRange (part field : String) (range : OutOfRange)
  /-- A number is out of its range. -/
  | limitOutOfRange (part field : String) (range : OutOfRange)
  /-- A list is too long. -/
  | listTooLarge (part field : String) (size greatest : Nat)
  /-- A setting is blank. -/
  | emptyValue (part field : String)
  /-- An expected metric is not of the family. -/
  | keyOutsideFamily (key family : String)
deriving DecidableEq

namespace Defect

/-- The code of a defect. -/
def code : Defect → Fault.Code
  | .unsupportedVersion .. => .config "unsupported_version"
  | .timeOutOfRange .. => .config "invalid_timeout"
  | .limitOutOfRange .. => .config "invalid_limit"
  | .listTooLarge .. => .config "list_too_large"
  | .emptyValue .. => .config "empty_value"
  | .keyOutsideFamily .. => .config "invalid_expected_key"

/-- The range in brackets. -/
def rangeText (r : OutOfRange) : String :=
  "[" ++ Text.natText r.least ++ ", " ++ Text.natText r.greatest ++ "]"

/-- The defect in words. -/
def message : Defect → String
  | .unsupportedVersion found supported =>
    "unsupported config version: " ++ Text.natText found.toNat ++ " (supported: " ++
      Text.natText supported.toNat ++ ")"
  | .timeOutOfRange part field range =>
    part ++ "." ++ field ++ " must be within " ++ rangeText range ++ " ms (got " ++
      Text.natText range.value ++ ")"
  | .limitOutOfRange part field range =>
    part ++ "." ++ field ++ " must be within " ++ rangeText range ++ " (got " ++
      Text.natText range.value ++ ")"
  | .listTooLarge part field size greatest =>
    part ++ "." ++ field ++ " must have at most " ++ Text.natText greatest ++ " entries (got " ++
      Text.natText size ++ ")"
  | .emptyValue part field => part ++ "." ++ field ++ " must be non-empty"
  | .keyOutsideFamily key family =>
    "expected key " ++ key ++ " does not start with " ++ family

/-- What is known about the circumstances of a defect. -/
def context : Defect → List (String × String)
  | .unsupportedVersion found supported =>
    [("found", Text.natText found.toNat), ("supported", Text.natText supported.toNat)]
  | .timeOutOfRange part field range =>
    [("section", part), ("field", field), ("value_ms", Text.natText range.value),
      ("min_ms", Text.natText range.least), ("max_ms", Text.natText range.greatest)]
  | .limitOutOfRange part field range =>
    [("section", part), ("field", field), ("value", Text.natText range.value),
      ("min", Text.natText range.least), ("max", Text.natText range.greatest)]
  | .listTooLarge part field size greatest =>
    [("section", part), ("field", field), ("len", Text.natText size),
      ("max", Text.natText greatest)]
  | .emptyValue part field => [("section", part), ("field", field)]
  | .keyOutsideFamily key family => [("key", key), ("prefix", family)]

/-- The defect with its classification. -/
def toFault (d : Defect) : Fault :=
  d.context.foldl (fun f entry => f.withContext entry.1 entry.2) (Fault.expected d.code d.message)

end Defect

/-- The numbers of an admitted configuration, each within its range. -/
structure Limits where
  /-- The time in milliseconds between two readings of the sink. -/
  pollIntervalMs : Bounded 10 60000
  /-- How many snapshots a wait looks at. -/
  maxAttempts : Bounded 1 1000
  /-- The delay in milliseconds after a snapshot without news. -/
  delayMs : Bounded 1 600000
deriving DecidableEq

namespace Limits

/-- The time between two readings of the sink. -/
def pollInterval (l : Limits) : Duration :=
  UInt64.ofNat l.pollIntervalMs.val

/-- The delay after a snapshot without news. -/
def waiterDelay (l : Limits) : Duration :=
  UInt64.ofNat l.delayMs.val

end Limits

/-- A configuration that has been admitted, in normal form. -/
structure Admitted where
  /-- The configuration. -/
  config : Config
  /-- Its numbers. -/
  limits : Limits
deriving DecidableEq

/-- The texts of the settings trimmed, and the expected metrics in normal form. -/
def normalize (c : Config) : Config :=
  { c with
    tailer := { c.tailer with sinkFile := Text.trim c.tailer.sinkFile }
    metrics := { c.metrics with
      family := Text.trim c.metrics.family
      expectedKeys := Metric.normalKeys c.metrics.expectedKeys } }

/-- Refuses a version that is not supported. -/
def checkVersion (c : Config) : Except Defect Unit :=
  if c.version = currentVersion then .ok ()
  else .error (.unsupportedVersion c.version currentVersion)

/-- Refuses a blank text. -/
def checkText (part field value : String) : Except Defect Unit :=
  if value = "" then .error (.emptyValue part field) else .ok ()

/-- Refuses a number out of its range. -/
def checkRange (refuse : OutOfRange → Defect) (least greatest value : Nat) : Except Defect Unit :=
  if value < least ∨ greatest < value then .error (refuse ⟨value, least, greatest⟩) else .ok ()

/-- Refuses a list of expected metrics that is empty or too long, or that has one outside the
family. -/
def checkKeys (m : Metrics) : Except Defect Unit :=
  if m.expectedKeys = [] then .error (.emptyValue "metrics" "expectedKeys")
  else if expectedKeysMax < m.expectedKeys.length then
    .error (.listTooLarge "metrics" "expectedKeys" m.expectedKeys.length expectedKeysMax)
  else
    match m.expectedKeys.find? fun key => !Text.startsWith key m.family with
    | some key => .error (.keyOutsideFamily key m.family)
    | none => .ok ()

/-- The configuration in normal form, or the first setting that is wrong. -/
def validate (c : Config) : Except Defect Config := do
  checkVersion c
  let c := normalize c
  checkText "tailer" "sinkFile" c.tailer.sinkFile
  checkRange (.timeOutOfRange "tailer" "pollIntervalMs") 10 60000 c.tailer.pollIntervalMs.toNat
  checkRange (.limitOutOfRange "waiter" "maxAttempts") 1 1000 c.waiter.maxAttempts.toNat
  checkRange (.timeOutOfRange "waiter" "delayMs") 1 600000 c.waiter.delayMs.toNat
  checkText "metrics" "prefix" c.metrics.family
  checkKeys c.metrics
  return c

/-- The numbers of a configuration, or the first one that is out of its range. -/
def Limits.of (c : Config) : Except Defect Limits := do
  let pollIntervalMs ← (Bounded.of 10 60000 c.tailer.pollIntervalMs.toNat).mapError
    (.timeOutOfRange "tailer" "pollIntervalMs")
  let maxAttempts ← (Bounded.of 1 1000 c.waiter.maxAttempts.toNat).mapError
    (.limitOutOfRange "waiter" "maxAttempts")
  let delayMs ← (Bounded.of 1 600000 c.waiter.delayMs.toNat).mapError
    (.timeOutOfRange "waiter" "delayMs")
  return ⟨pollIntervalMs, maxAttempts, delayMs⟩

/-- The configuration in normal form with its numbers, if it is admitted. -/
def toAdmitted (c : Config) : Except Defect Admitted := do
  let c ← validate c
  return ⟨c, ← Limits.of c⟩

namespace Admitted

/-- The expected metrics as a key set. -/
def expectedKeys (a : Admitted) : KeySet :=
  .ofTexts a.config.metrics.expectedKeys

/-- The settings of the check. -/
def checkSettings (a : Admitted) : Cycle.Settings :=
  ⟨.of a.config.waiter.maxAttempts a.limits.waiterDelay, a.config.metrics.family, a.expectedKeys,
    a.config.metrics.skipStaleFirst⟩

end Admitted

end CycleWatch.Config
