import CycleWatch.Metric.Name
import CycleWatch.Text.Blank
/-!
# Sets of metric names

A key set made from texts is normal: trimmed, without blank names, strictly ascending
(`pairwise_normalKeys`). A set that was read as it stands keeps the names as they were given.
-/
namespace CycleWatch

namespace Metric

/-- The ascending names with `k` put in at its place, unless it is there already. -/
def insertKey (k : String) : List String → List String
  | [] => [k]
  | j :: rest => if k < j then k :: j :: rest else if k = j then j :: rest else j :: insertKey k rest

/-- The distinct texts of a list, ascending. -/
def distinctAscending (texts : List String) : List String :=
  texts.foldr insertKey []

/-- The distinct trimmed texts of a list that are not blank, ascending. -/
def normalKeys (texts : List String) : List String :=
  distinctAscending ((texts.map Text.trim).filter (· ≠ ""))

/-- Whether a search by halving meets `k`: as long as more than one name is left, it goes on with the
half that starts at the middle name, or with the names before that half when the middle one is
greater than `k`. -/
def halvingSearch (k : String) (keys : List String) : Bool :=
  match keys with
  | [] => false
  | [j] => j = k
  | i :: j :: rest =>
    let half := (i :: j :: rest).length / 2
    match (i :: j :: rest).drop half with
    | [] => false
    | middle :: _ =>
      if k < middle then halvingSearch k ((i :: j :: rest).take ((i :: j :: rest).length - half))
      else halvingSearch k ((i :: j :: rest).drop half)
termination_by keys.length
decreasing_by
  all_goals
    simp only [List.length_take, List.length_drop, List.length_cons]
    omega

end Metric

/-- The metric names that a report has to contain. -/
structure KeySet where
  /-- The names, in their order. -/
  keys : List String
deriving DecidableEq

namespace KeySet

/-- The set of the listed texts, in normal form. -/
def ofTexts (texts : List String) : KeySet :=
  ⟨Metric.normalKeys texts⟩

/-- The collector's fourteen names. -/
def collector : KeySet :=
  ofTexts Metric.collectorNames

/-- Whether a search by halving finds `k`; in an ascending set it finds exactly the members. -/
def contains (s : KeySet) (k : String) : Bool :=
  Metric.halvingSearch k s.keys

/-- The number of names. -/
def size (s : KeySet) : Nat :=
  s.keys.length

/-- Whether nothing is required. -/
def isEmpty (s : KeySet) : Bool :=
  s.keys.isEmpty

end KeySet

namespace Metric

theorem mem_insertKey {k j : String} {keys : List String} :
    j ∈ insertKey k keys ↔ j = k ∨ j ∈ keys := by
  induction keys with
  | nil => simp [insertKey]
  | cons i rest ih =>
    simp only [insertKey]
    split
    · simp
    · split
      case isTrue heq => simp [heq]
      case isFalse => simp [ih]; grind

theorem mem_distinctAscending {k : String} {texts : List String} :
    k ∈ distinctAscending texts ↔ k ∈ texts := by
  induction texts with
  | nil => simp [distinctAscending]
  | cons t rest ih =>
    have hstep : distinctAscending (t :: rest) = insertKey t (distinctAscending rest) := rfl
    rw [hstep, mem_insertKey, ih, List.mem_cons]

theorem pairwise_insertKey (k : String) {keys : List String} (h : keys.Pairwise (· < ·)) :
    (insertKey k keys).Pairwise (· < ·) := by
  induction keys with
  | nil => simp [insertKey]
  | cons i rest ih =>
    have hi := List.pairwise_cons.mp h
    simp only [insertKey]
    split
    case isTrue hlt =>
      refine List.pairwise_cons.mpr ⟨fun j hj => ?_, h⟩
      rcases List.mem_cons.mp hj with rfl | hj
      · exact hlt
      · exact String.lt_trans hlt (hi.1 j hj)
    case isFalse hlt =>
      split
      case isTrue => exact h
      case isFalse hne =>
        refine List.pairwise_cons.mpr ⟨fun j hj => ?_, ih hi.2⟩
        rcases mem_insertKey.mp hj with rfl | hj
        · rcases Decidable.em (i < j) with hij | hij
          · exact hij
          · exact absurd (String.le_antisymm (String.not_lt.mp hij) (String.not_lt.mp hlt)) hne
        · exact hi.1 j hj

theorem pairwise_distinctAscending (texts : List String) :
    (distinctAscending texts).Pairwise (· < ·) := by
  induction texts with
  | nil => exact .nil
  | cons t rest ih => exact pairwise_insertKey t ih

theorem pairwise_normalKeys (texts : List String) : (normalKeys texts).Pairwise (· < ·) :=
  pairwise_distinctAscending _

end Metric

end CycleWatch
