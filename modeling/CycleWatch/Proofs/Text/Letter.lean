import CycleWatch.Text.Letter
import Mathlib.Data.List.Forall2

/-!
# Words in any case

A text is a word in any case if at each place it has the letter of the word or the capital of that
letter. These are the texts that become the word when their capitals are made small
(`lowerChars_eq_iff`).
-/

namespace CycleWatch.Text

/-- The characters are the same, or the first is the capital of the second. -/
def SameButCase (c d : Char) : Prop :=
  c = d ∨ c.isUpper = true ∧ d.toNat = c.toNat + 32

/-- The text is the word, except that some of the letters may be capitals. -/
def InAnyCase (text word : String) : Prop :=
  List.Forall₂ SameButCase text.toList word.toList

instance : DecidableRel SameButCase := fun c d =>
  inferInstanceAs (Decidable (c = d ∨ c.isUpper = true ∧ d.toNat = c.toNat + 32))

instance (text word : String) : Decidable (InAnyCase text word) :=
  inferInstanceAs (Decidable (List.Forall₂ SameButCase text.toList word.toList))

variable {c d : Char} {cs ds : List Char} {text word : String} {words : List String}

theorem isUpper_iff : c.isUpper = true ↔ 'A'.val ≤ c.val ∧ c.val ≤ 'Z'.val :=
  decide_eq_true_iff

theorem isUpper_eq_false_iff : c.isUpper = false ↔ ¬ ('A'.val ≤ c.val ∧ c.val ≤ 'Z'.val) := by
  rw [← isUpper_iff, Bool.not_eq_true]

theorem val_toLower (h : c.isUpper = true) : c.toLower.val = c.val + 32 := by
  have hlower : c.toLower = _ := dif_pos (isUpper_iff.mp h)
  rw [hlower]
  rfl

theorem toNat_toLower (h : c.isUpper = true) : c.toLower.toNat = c.toNat + 32 := by
  have hhigh : c.val.toNat ≤ 90 := UInt32.le_iff_toNat_le.mp (isUpper_iff.mp h).2
  show c.toLower.val.toNat = c.val.toNat + 32
  rw [val_toLower h, UInt32.toNat_add]
  show (c.val.toNat + 32) % 4294967296 = c.val.toNat + 32
  omega

theorem toLower_of_not_isUpper (h : c.isUpper = false) : c.toLower = c :=
  dif_neg (isUpper_eq_false_iff.mp h)

theorem toLower_eq_iff (hd : d.isUpper = false) : c.toLower = d ↔ SameButCase c d := by
  cases hc : c.isUpper with
  | true =>
      have hne : c ≠ d := by
        rintro rfl
        simp [hc] at hd
      rw [SameButCase, hc, ← toNat_toLower hc, Char.toNat_inj]
      simp [hne, eq_comm]
  | false => simp [SameButCase, hc, toLower_of_not_isUpper hc]

/-- Each character of the one text is the same but for case as one of the other. -/
theorem exists_mem_of_sameButCase (h : List.Forall₂ SameButCase cs ds) (hc : c ∈ cs) :
    ∃ d ∈ ds, SameButCase c d := by
  induction h with
  | nil => cases hc
  | cons hsame _ ih =>
      rcases List.mem_cons.mp hc with rfl | hrest
      · exact ⟨_, List.mem_cons_self, hsame⟩
      · obtain ⟨d, hd, hsame⟩ := ih hrest
        exact ⟨d, List.mem_cons_of_mem _ hd, hsame⟩

theorem lowerChars_eq_iff (h : ∀ d ∈ ds, d.isUpper = false) :
    lowerChars cs = ds ↔ List.Forall₂ SameButCase cs ds := by
  induction ds generalizing cs with
  | nil => simp [lowerChars]
  | cons d ds ih =>
      obtain ⟨hd, hds⟩ := List.forall_mem_cons.mp h
      cases cs with
      | nil => simp [lowerChars]
      | cons c cs =>
          have hstep : lowerChars (c :: cs) = c.toLower :: lowerChars cs := rfl
          rw [hstep, List.cons_eq_cons, List.forall₂_cons, toLower_eq_iff hd, ih hds]

/-- The text in small letters is the word exactly if it is the word in some case. -/
theorem ofList_lowerChars_eq_iff (h : ∀ d ∈ word.toList, d.isUpper = false) :
    String.ofList (lowerChars text.toList) = word ↔ InAnyCase text word := by
  rw [InAnyCase, ← lowerChars_eq_iff h, ← String.toList_inj, String.toList_ofList]

/-- The text in small letters is among the words exactly if it is one of them in some case. -/
theorem lowerChars_mem_iff (h : ∀ w ∈ words, ∀ d ∈ w.toList, d.isUpper = false) :
    String.ofList (lowerChars text.toList) ∈ words ↔ ∃ w ∈ words, InAnyCase text w := by
  constructor
  · intro hmem
    exact ⟨_, hmem, (ofList_lowerChars_eq_iff (h _ hmem)).mp rfl⟩
  · rintro ⟨w, hw, hcase⟩
    rwa [(ofList_lowerChars_eq_iff (h w hw)).mpr hcase]

end CycleWatch.Text
