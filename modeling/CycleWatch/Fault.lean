import CycleWatch.Dict
/-!
# Faults

Every operation that can fail ends in a `Fault`: a stable code in a namespace, the kind of its cause,
whether trying again may help, a message for people, and entries of context that can be looked up
without reading the message.
-/
namespace CycleWatch

/-- Where a fault comes from. -/
inductive Fault.Kind where
  /-- Something a caller has to reckon with: bad input, a timeout, a cancellation. -/
  | expected
  /-- Reported numbers that contradict each other. -/
  | invariant
  /-- A failure of the surroundings. -/
  | unexpected
deriving DecidableEq, Repr

/-- Whether trying again may help. -/
inductive Fault.Retry where
  /-- It may. -/
  | retriable
  /-- It will fail the same way. -/
  | nonRetriable
deriving DecidableEq, Repr

/-- A stable name for a fault within a namespace. -/
structure Fault.Code where
  /-- The family of names. -/
  space : String
  /-- The name in its family. -/
  name : String
deriving DecidableEq, Repr

/-- A failure with its classification and context. -/
structure Fault where
  /-- Where it comes from. -/
  kind : Fault.Kind
  /-- Whether trying again may help. -/
  retry : Fault.Retry
  /-- Its stable name. -/
  code : Fault.Code
  /-- What happened, for people. -/
  message : String
  /-- What is known about the circumstances. -/
  context : Dict String
deriving DecidableEq

@[simp] theorem mapError_ok {α ε ε' : Type} (f : ε → ε') (a : α) :
    (Except.ok a).mapError f = .ok a := rfl

@[simp] theorem mapError_error {α ε ε' : Type} (f : ε → ε') (e : ε) :
    (Except.error e : Except ε α).mapError f = .error (f e) := rfl

namespace Fault

/-- The word for a kind. -/
def Kind.word : Kind → String
  | .expected => "expected"
  | .invariant => "invariant"
  | .unexpected => "unexpected"

/-- The word for a retry class. -/
def Retry.word : Retry → String
  | .retriable => "retriable"
  | .nonRetriable => "non-retriable"

/-- Namespace and name, parted by a colon. -/
def Code.text (c : Code) : String :=
  c.space ++ ":" ++ c.name

/-- The operation was called off. -/
def Code.cancelled : Code := ⟨"core", "cancelled"⟩

/-- An argument is unusable. -/
def Code.invalidInput : Code := ⟨"core", "invalid_input"⟩

/-- Something looked for is not there. -/
def Code.notFound : Code := ⟨"core", "not_found"⟩

/-- Access was refused. -/
def Code.permissionDenied : Code := ⟨"core", "permission_denied"⟩

/-- Nothing happened in the time allowed. -/
def Code.timeout : Code := ⟨"core", "timeout"⟩

/-- Input or output failed. -/
def Code.io : Code := ⟨"core", "io"⟩

/-- The program itself is at fault. -/
def Code.internal : Code := ⟨"core", "internal"⟩

/-- A metric on a line cannot be read. -/
def Code.parseError : Code := ⟨"metrics", "parse_error"⟩

/-- Reported metrics contradict each other. -/
def Code.invariantViolation : Code := ⟨"metrics", "invariant_violation"⟩

/-- A code of the configuration. -/
def Code.config (name : String) : Code := ⟨"config", name⟩

/-- An expected fault that trying again does not mend. -/
def expected (code : Code) (message : String) : Fault :=
  ⟨.expected, .nonRetriable, code, message, Dict.empty⟩

/-- An expected fault of a given retry class. -/
def expectedOf (code : Code) (message : String) (retry : Retry) : Fault :=
  ⟨.expected, retry, code, message, Dict.empty⟩

/-- A contradiction, which trying again does not mend. -/
def invariant (code : Code) (message : String) : Fault :=
  ⟨.invariant, .nonRetriable, code, message, Dict.empty⟩

/-- A failure of the surroundings. -/
def unexpected (code : Code) (message : String) (retry : Retry) : Fault :=
  ⟨.unexpected, retry, code, message, Dict.empty⟩

/-- An operation was called off. -/
def cancelled (message : String) : Fault :=
  expected .cancelled message

/-- Nothing happened in the time allowed. -/
def timedOut (message : String) : Fault :=
  expected .timeout message

/-- Whether the fault stands for a cancellation. -/
def isCancelled (f : Fault) : Bool :=
  f.code = .cancelled

/-- Whether the fault stands for a timeout. -/
def isTimeout (f : Fault) : Bool :=
  f.code = .timeout

/-- The fault with one more entry of context; an entry of that key is replaced. -/
def withContext (f : Fault) (key value : String) : Fault :=
  { f with context := f.context.insert key value }

@[simp] theorem isCancelled_withContext (f : Fault) (key value : String) :
    (f.withContext key value).isCancelled = f.isCancelled := rfl

/-- The fault on one line: kind, retry class, code and message. -/
def text (f : Fault) : String :=
  f.kind.word ++ " " ++ f.retry.word ++ " " ++ f.code.text ++ ": " ++ f.message

/-- An operation finds itself called off. -/
def calledOff (operation : String) : Fault :=
  (cancelled "operation cancelled").withContext "operation" operation

/-- The result, its fault, if it is one, with one more entry of context. -/
def annotate {α : Type} (key value : String) (r : Except Fault α) : Except Fault α :=
  r.mapError (·.withContext key value)

@[simp] theorem annotate_ok {α : Type} (key value : String) (a : α) :
    annotate key value (.ok a) = .ok a := rfl

@[simp] theorem annotate_error {α : Type} (key value : String) (f : Fault) :
    annotate key value (.error f : Except Fault α) = .error (f.withContext key value) := rfl

/-- The result, its fault, if it is one, with one more entry of context made from that fault. -/
def annotateFrom {α : Type} (key : String) (value : Fault → String) (r : Except Fault α) :
    Except Fault α :=
  r.mapError fun f => f.withContext key (value f)

end Fault

end CycleWatch
