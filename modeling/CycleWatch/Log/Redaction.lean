import CycleWatch.Log.Event
import CycleWatch.Secret
/-!
# Keeping secrets out of the log

The value of every member with a secret key gives way to the placeholder, at any depth and inside
lists too; everything else stays as it is.
-/
namespace CycleWatch.Log

mutual

/-- The value with the secrets inside it concealed. -/
def redact : Json → Json
  | .arr items => .arr (redactItems items)
  | .obj members => .obj (redactMembers members)
  | j => j

/-- `redact` on each item. -/
def redactItems : List Json → List Json
  | [] => []
  | x :: xs => redact x :: redactItems xs

/-- The members with the secret ones concealed and the others redacted. -/
def redactMembers : List (String × Json) → List (String × Json)
  | [] => []
  | (k, x) :: ms =>
    (k, if Secret.isSecretKey k then .str Secret.placeholder else redact x) :: redactMembers ms

end

/-- The fields with the secret ones concealed and the others redacted. -/
def redactFields (fields : Fields) : Fields :=
  fields.mapValues fun k x => if Secret.isSecretKey k then .str Secret.placeholder else redact x

end CycleWatch.Log
