import CycleWatch.Fault
import CycleWatch.Text.Blank
/-!
# Correlation ids

A correlation id marks everything that belongs to one run. It is any text that is not blank, trimmed.
-/
namespace CycleWatch

/-- The mark of one run. -/
structure CorrelationId where
  /-- The mark as text. -/
  text : String
deriving DecidableEq, Repr

/-- The trimmed text as an id, unless it is blank. -/
def CorrelationId.of (s : String) : Except Fault CorrelationId :=
  let trimmed := Text.trim s
  if trimmed = "" then .error (Fault.expected .invalidInput "correlationId must be non-empty")
  else .ok ⟨trimmed⟩

end CycleWatch
