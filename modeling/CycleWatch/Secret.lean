import CycleWatch.Text.Letter
/-!
# Secrets

A name is taken for that of a secret when it contains one of a few marker words in any case, unless
it ends like the plural of `KEY`.
-/
namespace CycleWatch.Secret

/-- What stands in place of a secret value. -/
def placeholder : String := "[REDACTED]"

/-- The words that mark the name of a secret. -/
def markers : List String := ["KEY", "TOKEN", "SECRET", "PASSWORD", "CREDENTIAL", "AUTH"]

/-- Whether `key` reads like the name of a secret. -/
def isSecretKey (key : String) : Bool :=
  let upper := Text.upperChars key.toList
  markers.any (fun marker => Text.hasRun marker.toList upper) && !"KEYS".toList.isSuffixOf upper

/-- The value, or the placeholder when `key` reads like the name of a secret. -/
def conceal (key value : String) : String :=
  if isSecretKey key then placeholder else value

end CycleWatch.Secret
