import CycleWatch.Metric.KeySet
import CycleWatch.Metric.Line
/-!
# Checks on samples

A sample is complete when it has every name of a key set. Its times are sound when each pass that
reports them started no sooner than the test and finished no sooner than it started. One sample
follows another when the three counters of a cycle have all grown. The first thing that is wrong is
reported as a `Violation`.
-/
namespace CycleWatch

/-- The two times that a pass of the collector reports. -/
structure Metric.Pass where
  /-- A short name for the pass. -/
  name : String
  /-- The metric of its start. -/
  started : String
  /-- The metric of its end. -/
  finished : String
deriving DecidableEq, Repr

/-- What is wrong with a sample, or with one sample after another. -/
inductive Violation where
  /-- Names that have to be there are not. -/
  | missingKeys (keys : List String)
  /-- A counter that a check needs is not there. -/
  | missingCounter (key : String)
  /-- A pass started before the test did. -/
  | startedBeforeTest (pass : String) (started : Int64) (testStart : UInt64)
  /-- A pass finished before it started. -/
  | finishedBeforeStarted (pass : String) (started finished : Int64)
  /-- A counter has not grown. -/
  | notIncreasing (counter : String) (earlier later : Int64)
deriving DecidableEq, Repr

namespace Violation

/-- The word for the kind of violation. -/
def word : Violation → String
  | .missingKeys _ => "missing_keys"
  | .missingCounter _ => "missing_counter"
  | .startedBeforeTest .. => "started_before_test_start"
  | .finishedBeforeStarted .. => "finished_before_started"
  | .notIncreasing .. => "not_increasing"

/-- A signed 64-bit number in decimal digits. -/
def numeral (n : Int64) : String :=
  Text.intText n.toInt

/-- The violation in words. -/
def message : Violation → String
  | .missingKeys keys => "sample is missing metrics: " ++ ", ".intercalate keys
  | .missingCounter key => "sample is missing counter " ++ key
  | .startedBeforeTest pass started testStart =>
    pass ++ " pass started at " ++ numeral started ++ ", before the test started at " ++
      Text.natText testStart.toNat
  | .finishedBeforeStarted pass started finished =>
    pass ++ " pass finished at " ++ numeral finished ++ ", before it started at " ++
      numeral started
  | .notIncreasing counter earlier later =>
    counter ++ " did not increase between cycles (" ++ numeral earlier ++ " -> " ++
      numeral later ++ ")"

/-- The violation with its classification. -/
def toFault (v : Violation) : Fault :=
  let fault := (Fault.invariant .invariantViolation v.message).withContext "violation" v.word
  match v with
  | .missingKeys keys => fault.withContext "keys" (",".intercalate keys)
  | .missingCounter key => fault.withContext "key" key
  | .startedBeforeTest pass started testStart =>
    ((fault.withContext "pair" pass).withContext "started" (numeral started)).withContext
      "testStart" (Text.natText testStart.toNat)
  | .finishedBeforeStarted pass started finished =>
    ((fault.withContext "pair" pass).withContext "started" (numeral started)).withContext
      "finished" (numeral finished)
  | .notIncreasing counter earlier later =>
    ((fault.withContext "counter" counter).withContext "earlier" (numeral earlier)).withContext
      "later" (numeral later)

end Violation

namespace Metric

/-- The primary pass. -/
def Pass.primary : Pass := ⟨"primary", Metric.started, Metric.finished⟩

/-- The pass over the write-ahead log. -/
def Pass.wal : Pass := ⟨"wal", Metric.walStarted, Metric.walFinished⟩

/-- The passes, in the order in which they are checked. -/
def Pass.all : List Pass := [.primary, .wal]

/-- The counters that grow from cycle to cycle, in the order in which they are checked. -/
def cycleCounters : List String := [started, finished, runCycleCount]

/-- Whether every name of the set is in the sample; other names may be there too. -/
def hasKeys (sample : Sample) (expected : KeySet) : Bool :=
  expected.keys.all sample.contains

/-- The names of the set that are not in the sample, in the order of the set. -/
def missingKeys (sample : Sample) (expected : KeySet) : List String :=
  expected.keys.filter fun k => !sample.contains k

/-- Refuses a sample without all names of the set. -/
def requireKeys (sample : Sample) (expected : KeySet) : Except Violation Unit :=
  match missingKeys sample expected with
  | [] => .ok ()
  | keys => .error (.missingKeys keys)

/-- Refuses a sample with one time of a pass but not the other, or with unsound times of the pass. A
pass without any time is passed over. A negative start has no counterpart among the times of a test, so
it comes before all of them. -/
def checkPass (sample : Sample) (testStart : UInt64) (pass : Pass) : Except Violation Unit :=
  match sample.get? pass.started, sample.get? pass.finished with
  | none, none => .ok ()
  | none, some _ => .error (.missingCounter pass.started)
  | some _, none => .error (.missingCounter pass.finished)
  | some s, some f =>
    if !(Word.uint64? s.toInt).any (testStart ≤ ·) then
      .error (.startedBeforeTest pass.name s testStart)
    else if f < s then .error (.finishedBeforeStarted pass.name s f)
    else .ok ()

/-- Refuses a sample whose passes report unsound times. -/
def checkTimes (sample : Sample) (testStart : UInt64) : Except Violation Unit :=
  Pass.all.forM (checkPass sample testStart)

/-- The value of a counter that has to be there. -/
def requireCounter (sample : Sample) (key : String) : Except Violation Int64 :=
  match sample.get? key with
  | some n => .ok n
  | none => .error (.missingCounter key)

/-- Refuses two samples between which a counter has not grown. -/
def checkCounter (earlier later : Sample) (counter : String) : Except Violation Unit := do
  let before ← requireCounter earlier counter
  let after ← requireCounter later counter
  if after ≤ before then .error (.notIncreasing counter before after) else .ok ()

/-- Refuses two samples that are not those of an earlier and a later cycle. -/
def checkGrowth (earlier later : Sample) : Except Violation Unit :=
  cycleCounters.forM (checkCounter earlier later)

variable {sample : Sample} {expected : KeySet}

theorem missingKeys_eq_nil_iff :
    missingKeys sample expected = [] ↔ ∀ k ∈ expected.keys, sample.contains k = true := by
  simp [missingKeys, List.filter_eq_nil_iff]

theorem requireKeys_eq_ok_iff :
    requireKeys sample expected = .ok () ↔ ∀ k ∈ expected.keys, sample.contains k = true := by
  rw [← missingKeys_eq_nil_iff, requireKeys]
  cases missingKeys sample expected with
  | nil => simp
  | cons k rest => simp

theorem requireKeys_eq_error_iff {v : Violation} :
    requireKeys sample expected = .error v ↔
      missingKeys sample expected ≠ [] ∧ v = .missingKeys (missingKeys sample expected) := by
  rw [requireKeys]
  cases missingKeys sample expected with
  | nil => simp
  | cons k rest => simp [eq_comm]

end Metric

end CycleWatch
