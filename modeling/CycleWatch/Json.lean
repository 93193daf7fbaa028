/-!
# JSON values

The values that are written as JSON: a number with a fraction or an exponent is kept as it is written,
and an object lists its members in the order in which they are written.
-/
namespace CycleWatch

/-- A number with a fraction, an exponent or both. -/
structure Json.Decimal where
  /-- Whether it has a minus sign. -/
  negative : Bool
  /-- The whole number before the point. -/
  whole : Nat
  /-- The digits after the point. -/
  fraction : List (Fin 10)
  /-- The exponent. -/
  exponent : Option Int
  /-- It has a fraction or an exponent. -/
  marked : fraction ≠ [] ∨ exponent ≠ none
deriving DecidableEq, Repr

/-- A number. -/
inductive Json.Number where
  /-- A whole number. -/
  | whole (n : Int)
  /-- A number with a fraction or an exponent. -/
  | decimal (d : Json.Decimal)
deriving DecidableEq, Repr

/-- A value to be written as JSON. -/
inductive Json where
  /-- The value `null`. -/
  | null
  /-- A truth value. -/
  | bool (b : Bool)
  /-- A number. -/
  | num (n : Json.Number)
  /-- A text. -/
  | str (s : String)
  /-- A list of values. -/
  | arr (items : List Json)
  /-- Named values, in the order of writing. -/
  | obj (members : List (String × Json))
deriving Inhabited

namespace Json

instance : Coe Int Number := ⟨.whole⟩

/-- A whole number as a value. -/
abbrev int (n : Int) : Json :=
  .num n

/-- The whole number that is written before the point. -/
def Number.beforePoint : Number → Int
  | .whole n => n
  | .decimal d => if d.negative then -(d.whole : Int) else d.whole

/-- Where a whole number is asked for, a number stands for the one before its point. -/
instance : Coe Number Int := ⟨Number.beforePoint⟩

/-- The value found under the key `k` of an object. -/
def member? (k : String) : Json → Option Json
  | .obj members => members.lookup k
  | _ => none

/-- The value reached by following the keys one after the other. -/
def follow? (keys : List String) (j : Json) : Option Json :=
  keys.foldlM (fun j k => j.member? k) j

end Json

end CycleWatch
