import CycleWatch.Text.Decimal
import CycleWatch.Word
/-!
# Published lines and what counts as new

The tailer publishes the last line of the sink as a snapshot with a version that counts up from one.
Who waits for news compares the version with the one seen before: any other one is new.
-/
namespace CycleWatch

/-- The place of a snapshot among those published; zero before the first one. -/
structure Version where
  /-- The count of snapshots published up to this one. -/
  number : UInt64
deriving DecidableEq, Repr

namespace Version

/-- Nothing is published yet. -/
def none : Version := ⟨0⟩

/-- Whether nothing is published yet. -/
def isNone (v : Version) : Bool :=
  v.number == 0

/-- The version after `v`; the greatest number is followed by itself. -/
def next (v : Version) : Version :=
  ⟨Word.succ64 v.number⟩

/-- The number after the letter `v`. -/
def text (v : Version) : String :=
  "v" ++ Text.natText v.number.toNat

end Version

/-- A line as it was published. -/
structure Snapshot where
  /-- Its place among those published. -/
  version : Version
  /-- The line, once there was one. -/
  line : Option String
  /-- The time in milliseconds at which it was published. -/
  observedAtMs : UInt64
deriving DecidableEq, Repr

namespace Snapshot

/-- What is there before anything is published. -/
def empty : Snapshot := ⟨Version.none, .none, 0⟩

/-- Whether there is a line. -/
def hasLine (s : Snapshot) : Bool :=
  s.line.isSome

end Snapshot

/-- What a waiter has seen already. -/
inductive Baseline where
  /-- Nothing: any line is new. -/
  | none
  /-- The snapshot of this version: a line of any other version is new. -/
  | version (seen : Version)
deriving DecidableEq, Repr

namespace Baseline

/-- The baseline of a waiter that has seen `s`. -/
def after (s : Snapshot) : Baseline :=
  .version s.version

/-- Whether a snapshot of version `v` is new. -/
def accepts : Baseline → Version → Bool
  | .none, _ => true
  | .version seen, v => v ≠ seen

/-- The version seen, in words. -/
def text : Baseline → String
  | .none => "none"
  | .version seen => seen.text

end Baseline

end CycleWatch
