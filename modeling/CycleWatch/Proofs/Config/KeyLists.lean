import CycleWatch.Config.Overrides
import CycleWatch.Proofs.Metric.Composition
import CycleWatch.Proofs.Metric.KeyOrder
import CycleWatch.Proofs.Metric.NormalKeys

/-!
# Lists of metric names in one form

A list of texts has one normal form: its names, each of them once, in the order of their code points
(`eq_of_normalForm`). Changing places, repeating, blanks around a text and blank texts do not change it
(`Variant.normalKeys_eq`). A key set, the settings of a configuration and a variable with the texts
between commas all have this form (`key_lists_agree`).
-/

namespace CycleWatch

namespace Metric

/-- The order of texts in which the first different code point decides, and else the length. -/
def CodePointsBelow (j k : String) : Prop :=
  List.Lex (fun c d : Char => c.toNat < d.toNat) j.toList k.toList

/-- The text is not blank, and some text of the list has it between blanks. -/
def Names (texts : List String) (k : String) : Prop :=
  k ≠ "" ∧ ∃ t ∈ texts, Text.trim t = k

/-- The names in the list of texts, each of them once and in strictly ascending order. -/
structure NormalForm (texts keys : List String) : Prop where
  ascending : keys.Pairwise CodePointsBelow
  mem_iff : ∀ k, k ∈ keys ↔ Names texts k

/-- The second text is the first one with blanks around it. -/
def Padded (t u : String) : Prop :=
  ∃ before after, Text.AllBlank before ∧ Text.AllBlank after ∧ u.toList = before ++ t.toList ++ after

/-- The second list comes from the first one by changes that are of no account. -/
inductive Variant : List String → List String → Prop
  | perm {texts texts' : List String} : texts.Perm texts' → Variant texts texts'
  | again {t : String} {texts : List String} : t ∈ texts → Variant texts (t :: texts)
  | padded {texts texts' : List String} : List.Forall₂ Padded texts texts' → Variant texts texts'
  | blank {t : String} {texts : List String} : Text.AllBlank t.toList → Variant texts (t :: texts)
  | trans {texts texts' texts'' : List String} : Variant texts texts' → Variant texts' texts'' →
      Variant texts texts''

variable {k : String} {keys keys' texts texts' : List String}

/-! ## The normal form -/

theorem codePointsBelow_iff {j k : String} : CodePointsBelow j k ↔ j < k := Iff.rfl

theorem normalForm_normalKeys (texts : List String) : NormalForm texts (normalKeys texts) where
  ascending := (pairwise_normalKeys texts).imp codePointsBelow_iff.mpr
  mem_iff _ := mem_normalKeys

theorem eq_of_normalForm (h : NormalForm texts keys) : keys = normalKeys texts := by
  have hascending : keys.Pairwise (· < ·) := h.ascending.imp codePointsBelow_iff.mp
  exact eq_of_ascending hascending (pairwise_normalKeys texts) fun k =>
    (h.mem_iff k).trans mem_normalKeys.symm

theorem eq_normalKeys_iff : keys = normalKeys texts ↔ NormalForm texts keys := by
  refine ⟨?_, eq_of_normalForm⟩
  rintro rfl
  exact normalForm_normalKeys texts

theorem normalKeys_eq_of_names (h : ∀ k, Names texts k ↔ Names texts' k) :
    normalKeys texts' = normalKeys texts := by
  have hnormal := normalForm_normalKeys texts'
  exact eq_of_normalForm ⟨hnormal.ascending, fun k => (hnormal.mem_iff k).trans (h k).symm⟩

theorem normalKeys_eq_nil_iff : normalKeys texts = [] ↔ ∀ t ∈ texts, Text.trim t = "" := by
  rw [List.eq_nil_iff_forall_not_mem]
  constructor
  · intro h t ht
    by_contra hne
    exact h _ (mem_normalKeys.mpr ⟨hne, t, ht, rfl⟩)
  · intro h k hk
    obtain ⟨hne, t, ht, rfl⟩ := mem_normalKeys.mp hk
    exact hne (h t ht)

/-! ## Changes that are of no account -/

theorem Padded.trim_eq {t u : String} (h : Padded t u) : Text.trim u = Text.trim t := by
  obtain ⟨before, after, hbefore, hafter, hu⟩ := h
  rw [Text.trim, hu, Text.trimChars_append_blanks hafter, Text.trimChars_blanks_append hbefore, Text.trim]

theorem trim_of_allBlank {t : String} (h : Text.AllBlank t.toList) : Text.trim t = "" := by
  have hnil : Text.trimChars (t.toList ++ []) = Text.trimChars [] :=
    Text.trimChars_blanks_append h []
  rw [List.append_nil] at hnil
  rw [Text.trim, hnil]
  rfl

theorem map_trim_of_padded (h : List.Forall₂ Padded texts texts') :
    texts'.map Text.trim = texts.map Text.trim := by
  induction h with
  | nil => rfl
  | cons hpadded _ ih => rw [List.map_cons, List.map_cons, hpadded.trim_eq, ih]

theorem normalKeys_eq_of_map_trim (h : texts'.map Text.trim = texts.map Text.trim) :
    normalKeys texts' = normalKeys texts := by
  rw [normalKeys, h, normalKeys]

theorem Variant.normalKeys_eq (h : Variant texts texts') : normalKeys texts' = normalKeys texts := by
  induction h with
  | perm hperm => exact normalKeys_eq_of_names fun k => by simp only [Names, hperm.mem_iff]
  | @again t texts ht =>
      refine normalKeys_eq_of_names fun k => ?_
      simp only [Names, List.exists_mem_cons_iff]
      exact and_congr_right fun _ => ⟨.inr, fun h => h.elim (fun heq => ⟨t, ht, heq⟩) id⟩
  | padded hpadded => exact normalKeys_eq_of_map_trim (map_trim_of_padded hpadded)
  | @blank t texts hblank =>
      refine normalKeys_eq_of_names fun k => ?_
      simp only [Names, List.exists_mem_cons_iff, trim_of_allBlank hblank]
      exact and_congr_right fun hne => ⟨.inr, fun h => h.resolve_left (Ne.symm hne)⟩
  | trans _ _ ih ih' => exact ih'.trans ih

end Metric

namespace Config

open CycleWatch.Metric

variable {vars : Dict String} {var raw line : String} {keys pieces texts : List String}

/-! ## A variable with texts between commas -/

theorem commaTexts_of_cutAtCommas (h : CutAtCommas line pieces) : commaTexts line = pieces := by
  rw [commaTexts, h.pieces_eq, List.map_map]
  simp [Function.comp_def]

theorem map_trim_commaTexts (s : String) :
    (commaTexts s).map Text.trim = (tokens s.toList).map String.ofList := by
  simp [commaTexts, tokens, Text.trim, Function.comp_def]

theorem normalKeys_commaTexts_trim (s : String) :
    normalKeys (commaTexts (Text.trim s)) = normalKeys (commaTexts s) := by
  apply normalKeys_eq_of_map_trim
  rw [map_trim_commaTexts, map_trim_commaTexts, Text.toList_trim, tokens_trimChars]

theorem normalKeys_commaTexts_of_blank (h : Text.trim raw = "") : normalKeys (commaTexts raw) = [] := by
  rw [← normalKeys_commaTexts_trim, h]
  rfl

theorem value?_of_blank (h : vars.get? var = some raw) (hblank : Text.trim raw = "") :
    value? vars var = .error (.emptyValue var) := by
  simp only [value?, h, hblank, if_true]

theorem value?_of_filled (h : vars.get? var = some raw) (hfilled : Text.trim raw ≠ "") :
    value? vars var = .ok (some (raw, Text.trim raw)) := by
  simp only [value?, h, hfilled, if_false]

/-- The blank value is refused as a value without any name is. -/
theorem keys?_of_get? (h : vars.get? var = some raw) :
    keys? vars var =
      if normalKeys (commaTexts raw) = [] then .error (.emptyValue var)
      else if expectedKeysMax < (normalKeys (commaTexts raw)).length then
        .error (.csvTooLarge var (normalKeys (commaTexts raw)).length expectedKeysMax)
      else .ok (some (normalKeys (commaTexts raw))) := by
  by_cases hblank : Text.trim raw = ""
  · rw [if_pos (normalKeys_commaTexts_of_blank hblank), keys?, value?_of_blank h hblank]
    rfl
  · rw [← normalKeys_commaTexts_trim raw, keys?, value?_of_filled h hblank]
    simp only [bind, Except.bind, throw, throwThe, MonadExceptOf.throw, pure, Except.pure]

/-- Texts without a comma are read back from the value that joins them. -/
theorem keys?_of_joined (hcomma : ∀ t ∈ texts, ',' ∉ t.toList) (hname : ∃ t ∈ texts, Text.trim t ≠ "")
    (hsize : (normalKeys texts).length ≤ expectedKeysMax)
    (h : vars.get? var = some (",".intercalate texts)) :
    keys? vars var = .ok (some (normalKeys texts)) := by
  obtain ⟨t, ht, hne⟩ := hname
  have hcut : CutAtCommas (",".intercalate texts) texts :=
    ⟨List.ne_nil_of_mem ht, hcomma, rfl⟩
  have hkeys : normalKeys texts ≠ [] := fun hnil => hne (normalKeys_eq_nil_iff.mp hnil t ht)
  rw [keys?_of_get? h, commaTexts_of_cutAtCommas hcut, if_neg hkeys, if_neg (Nat.not_lt.mpr hsize)]

theorem ofVars_expectedKeys (h : keys? (.ofList [(expectedKeysVar, raw)]) expectedKeysVar =
    .ok (some keys)) :
    Overrides.ofVars (.ofList [(expectedKeysVar, raw)]) =
      .ok { Overrides.empty with expectedKeys := some keys } := by
  have hunset : ∀ var, var ≠ expectedKeysVar →
      (Dict.ofList [(expectedKeysVar, raw)]).get? var = none := by
    intro var hvar
    simp [Dict.ofList, Dict.insertAll, Dict.get?_insert, hvar]
  simp only [Overrides.ofVars, h, text?, setting?, value?, hunset sinkFileVar (by decide),
    hunset pollIntervalVar (by decide), hunset maxAttemptsVar (by decide), hunset delayVar (by decide),
    hunset familyVar (by decide), hunset skipStaleFirstVar (by decide), hunset levelVar (by decide)]
  rfl

/-- A key set made from texts has their normal form, which no other list is, and which depends on nothing
but the names among the texts: it is the same for every variant of the list, and for itself. A look-up by
halving finds the names of the set and nothing else. The normal form of a configuration has the same
list, and so has what is read from the variable that joins the texts with commas, if none of them holds a
comma, one of them is not blank, and there are not too many names. -/
theorem key_lists_agree (texts : List String) :
    (∀ keys, keys = (KeySet.ofTexts texts).keys ↔ NormalForm texts keys) ∧
    (∀ texts', (∀ k, Names texts k ↔ Names texts' k) → KeySet.ofTexts texts' = KeySet.ofTexts texts) ∧
    (∀ texts', Variant texts texts' → KeySet.ofTexts texts' = KeySet.ofTexts texts) ∧
    KeySet.ofTexts (KeySet.ofTexts texts).keys = KeySet.ofTexts texts ∧
    (∀ k, (KeySet.ofTexts texts).contains k = true ↔ k ∈ (KeySet.ofTexts texts).keys) ∧
    (∀ c : Config, c.metrics.expectedKeys = texts →
      (normalize c).metrics.expectedKeys = (KeySet.ofTexts texts).keys) ∧
    ((∀ t ∈ texts, ',' ∉ t.toList) → (∃ t ∈ texts, Text.trim t ≠ "") →
      (KeySet.ofTexts texts).keys.length ≤ 256 →
      (∀ vars, vars.get? expectedKeysVar = some (",".intercalate texts) →
        keys? vars expectedKeysVar = .ok (some (KeySet.ofTexts texts).keys)) ∧
      Overrides.ofVars (.ofList [(expectedKeysVar, ",".intercalate texts)]) =
        .ok { Overrides.empty with expectedKeys := some (KeySet.ofTexts texts).keys }) := by
  refine ⟨fun _ => eq_normalKeys_iff, ?_, ?_, ?_, ?_, ?_, ?_⟩
  · intro texts' h
    exact congrArg KeySet.mk (normalKeys_eq_of_names h)
  · intro texts' h
    exact congrArg KeySet.mk h.normalKeys_eq
  · exact congrArg KeySet.mk (normalKeys_normalKeys texts)
  · exact fun k => halvingSearch_eq_true_iff (pairwise_normalKeys texts)
  · rintro c rfl
    rfl
  · intro hcomma hname hsize
    have hread : ∀ vars : Dict String, vars.get? expectedKeysVar = some (",".intercalate texts) →
        keys? vars expectedKeysVar = .ok (some (normalKeys texts)) :=
      fun vars => keys?_of_joined hcomma hname hsize
    exact ⟨hread, ofVars_expectedKeys (hread _ rfl)⟩

theorem key_lists_agree_padded :
    KeySet.ofTexts ["\u2003AccB\t", "AccA", "AccB", " "] = KeySet.ofTexts ["AccB", "AccA"] ∧
      Overrides.ofVars (.ofList [(expectedKeysVar, ",".intercalate ["AccB ", "", "AccA", "AccB"])]) =
        .ok { Overrides.empty with
          expectedKeys := some (KeySet.ofTexts ["AccB ", "", "AccA", "AccB"]).keys } := by
  obtain ⟨-, -, hvariant, -⟩ := key_lists_agree ["AccB", "AccA"]
  obtain ⟨-, -, -, -, -, -, hvariable⟩ := key_lists_agree ["AccB ", "", "AccA", "AccB"]
  refine ⟨hvariant _ ?_, (hvariable (by decide) ⟨"AccA", by decide, by decide⟩ (by decide)).2⟩
  -- One name twice, blanks around one of the two, a blank text, and then all places changed.
  have hagain : Variant ["AccB", "AccA"] ["AccB", "AccB", "AccA"] := .again (by decide)
  have hpadded : Variant ["AccB", "AccB", "AccA"] ["\u2003AccB\t", "AccB", "AccA"] :=
    .padded (.cons ⟨['\u2003'], ['\t'], by decide, by decide, rfl⟩
      (.cons ⟨[], [], by decide, by decide, rfl⟩ (.cons ⟨[], [], by decide, by decide, rfl⟩ .nil)))
  have hblank : Variant ["\u2003AccB\t", "AccB", "AccA"] [" ", "\u2003AccB\t", "AccB", "AccA"] :=
    .blank (by decide)
  have hperm : Variant [" ", "\u2003AccB\t", "AccB", "AccA"] ["\u2003AccB\t", "AccA", "AccB", " "] :=
    .perm (by decide)
  exact ((hagain.trans hpadded).trans hblank).trans hperm

end Config

end CycleWatch
