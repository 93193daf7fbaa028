import CycleWatch.Metric.Line
import CycleWatch.Proofs.Text.Numeral
import CycleWatch.Proofs.Text.Pieces

/-!
# The language of metric lines

A line is cut at its commas, and a trimmed piece counts if it is not empty and starts with the family. A
token that counts binds the name before its first `=` to the number after it, or there is something
wrong with it (`readToken_eq_ok_iff`, `readToken_eq_error_iff`). A line is read exactly if all its
tokens that count bind a name, as the sample in which the last token with a name gives its value; or
else it is refused for the first token that does not (`readLine_language`).
-/

namespace CycleWatch.Metric

/-! ## The specification -/

/-- The line consists of the pieces, with a comma between neighbours. -/
structure CutAtCommas (line : String) (pieces : List String) : Prop where
  nonempty : pieces ≠ []
  commaFree : ∀ p ∈ pieces, ',' ∉ p.toList
  joined : ",".intercalate pieces = line

/-- A token of the family. -/
def Considered (family token : String) : Prop :=
  token ≠ "" ∧ family.toList <+: token.toList

instance (family token : String) : Decidable (Considered family token) :=
  inferInstanceAs (Decidable (_ ∧ _))

/-- The trimmed pieces of the family. -/
def considered (family : String) (pieces : List String) : List String :=
  (pieces.map Text.trim).filter (Considered family)

/-- The texts before and after the first `=` of the token. -/
structure CutAtEquals (token before after : String) : Prop where
  joined : token = before ++ "=" ++ after
  first : '=' ∉ before.toList

/-- The token gives a value to a name: the name stands before the first `=`, the value after it. -/
inductive Binds : String → String → Int64 → Prop
  | intro {token before after : String} {value : Int64} : CutAtEquals token before after →
      Text.trim before ≠ "" → Text.Numeral (Text.trim after).toList value.toInt →
      Binds token (Text.trim before) value

/-- The token gives some value to some name. -/
def WellFormed (token : String) : Prop :=
  ∃ name value, Binds token name value

/-- What is wrong with a token. -/
inductive Malformed : String → LineFault → Prop
  | missingSeparator {token : String} : '=' ∉ token.toList →
      Malformed token (.missingSeparator token)
  | emptyKey {token before after : String} : CutAtEquals token before after →
      Text.trim before = "" → Malformed token (.emptyKey token)
  | invalidValue {token before after : String} : CutAtEquals token before after →
      Text.trim before ≠ "" →
      (∀ value : Int64, ¬ Text.Numeral (Text.trim after).toList value.toInt) →
      Malformed token (.invalidValue (Text.trim before) (Text.trim after))

/-- The last of the tokens with this name gives it this value. -/
def LastBinds (tokens : List String) (name : String) (value : Int64) : Prop :=
  ∃ before token after, tokens = before ++ token :: after ∧ Binds token name value ∧
    ∀ t ∈ after, ∀ other, ¬ Binds t name other

/-- The tokens are all well formed and make up the sample. -/
structure Denotes (tokens : List String) (sample : Sample) : Prop where
  wellFormed : ∀ t ∈ tokens, WellFormed t
  value_iff : ∀ name value, sample.get? name = some value ↔ LastBinds tokens name value
  name_iff : ∀ name, sample.contains name = true ↔ ∃ t ∈ tokens, ∃ value, Binds t name value

/-- This is wrong with the first of the tokens that is not well formed. -/
def FirstFault (tokens : List String) (e : LineFault) : Prop :=
  ∃ before token after, tokens = before ++ token :: after ∧ (∀ t ∈ before, WellFormed t) ∧
    Malformed token e

variable {family token name before after line : String} {value : Int64} {e : LineFault}
  {tokens texts pieces : List String} {sample result : Sample}

/-! ## One token -/

theorem CutAtEquals.cutAtFirst (h : CutAtEquals token before after) :
    Text.cutAtFirst '=' token.toList = some (before.toList, after.toList) := by
  have hchars : token.toList = before.toList ++ '=' :: after.toList := by
    simp [h.joined]
  rw [hchars, Text.cutAtFirst_append h.first]

theorem int64_of_numeral {cs : List Char} :
    (Text.readInt cs).bind Word.int64? = some value ↔ Text.Numeral cs value.toInt := by
  rw [Option.bind_eq_some_iff]
  constructor
  · rintro ⟨n, hread, hword⟩
    rw [Word.toInt_of_int64? hword]
    exact Text.readInt_eq_some_iff.mp hread
  · intro h
    exact ⟨_, Text.readInt_eq_some_iff.mpr h, Word.int64?_toInt value⟩

theorem isEmpty_trimChars (s : String) :
    (Text.trimChars s.toList).isEmpty = decide (Text.trim s = "") := by
  rw [Bool.eq_iff_iff]
  simp [Text.trim]

theorem readToken_of_binds (h : Binds token name value) :
    readToken token.toList = .ok (name, value) := by
  obtain ⟨hcut, hne, hvalue⟩ := h
  simp only [Text.toList_trim] at hvalue
  simp only [readToken, hcut.cutAtFirst, isEmpty_trimChars, hne, decide_false,
    int64_of_numeral.mpr hvalue]
  rfl

theorem readToken_of_malformed (h : Malformed token e) : readToken token.toList = .error e := by
  cases h with
  | missingSeparator h => simp only [readToken, Text.cutAtFirst_of_not_mem h, String.ofList_toList]
  | emptyKey hcut hempty =>
      simp only [readToken, hcut.cutAtFirst, isEmpty_trimChars, hempty, decide_true, if_true,
        String.ofList_toList]
  | @invalidValue before after hcut hne hvalue =>
      have hnone : (Text.readInt (Text.trimChars after.toList)).bind Word.int64? = none := by
        rw [Option.eq_none_iff_forall_ne_some, ← Text.toList_trim]
        exact fun value h => hvalue value (int64_of_numeral.mp h)
      simp only [readToken, hcut.cutAtFirst, isEmpty_trimChars, hne, decide_false, hnone]
      rfl

theorem wellFormed_or_malformed (token : String) : WellFormed token ∨ ∃ e, Malformed token e := by
  by_cases hequals : '=' ∈ token.toList
  · obtain ⟨start, rest, hsplit, hfirst⟩ := List.eq_append_cons_of_mem hequals
    have hcut : CutAtEquals token (String.ofList start) (String.ofList rest) := by
      refine ⟨?_, by rwa [String.toList_ofList]⟩
      rw [← String.toList_inj]
      simp [hsplit]
    by_cases hempty : Text.trim (String.ofList start) = ""
    · exact .inr ⟨_, .emptyKey hcut hempty⟩
    · by_cases hvalue : ∃ value : Int64,
          Text.Numeral (Text.trim (String.ofList rest)).toList value.toInt
      · obtain ⟨value, hvalue⟩ := hvalue
        exact .inl ⟨_, value, .intro hcut hempty hvalue⟩
      · exact .inr ⟨_, .invalidValue hcut hempty fun value h => hvalue ⟨value, h⟩⟩
  · exact .inr ⟨_, .missingSeparator hequals⟩

theorem readToken_eq_ok_iff : readToken token.toList = .ok (name, value) ↔ Binds token name value := by
  refine ⟨fun h => ?_, readToken_of_binds⟩
  rcases wellFormed_or_malformed token with ⟨_, _, hbinds⟩ | ⟨e, he⟩
  · rw [readToken_of_binds hbinds] at h
    cases h
    exact hbinds
  · rw [readToken_of_malformed he] at h
    cases h

theorem readToken_eq_error_iff : readToken token.toList = .error e ↔ Malformed token e := by
  refine ⟨fun h => ?_, readToken_of_malformed⟩
  rcases wellFormed_or_malformed token with ⟨_, _, hbinds⟩ | ⟨e', he⟩
  · rw [readToken_of_binds hbinds] at h
    cases h
  · rw [readToken_of_malformed he] at h
    cases h
    exact he

theorem not_malformed_of_wellFormed (h : WellFormed token) : ¬ Malformed token e := by
  obtain ⟨_, _, hbinds⟩ := h
  intro he
  cases (readToken_of_binds hbinds).symm.trans (readToken_of_malformed he)

theorem Binds.eq {name' : String} {value' : Int64} (h : Binds token name value)
    (h' : Binds token name' value') : name = name' ∧ value = value' := by
  cases (readToken_of_binds h).symm.trans (readToken_of_binds h')
  exact ⟨rfl, rfl⟩

/-! ## Tokens one after the other -/

theorem lastBinds_concat :
    LastBinds (tokens ++ [token]) name value ↔
      Binds token name value ∨
        (∀ other, ¬ Binds token name other) ∧ LastBinds tokens name value := by
  constructor
  · rintro ⟨before, t, after, hsplit, hbinds, hlast⟩
    rcases List.eq_nil_or_concat after with rfl | ⟨after, u, rfl⟩
    · obtain ⟨rfl, heq⟩ := List.append_inj' hsplit rfl
      cases heq
      exact .inl hbinds
    · rw [List.concat_eq_append] at hsplit hlast
      rw [← List.cons_append, ← List.append_assoc] at hsplit
      obtain ⟨rfl, heq⟩ := List.append_inj' hsplit rfl
      cases heq
      exact .inr ⟨hlast token (by simp), before, t, after, rfl, hbinds,
        fun u hu => hlast u (by simp [hu])⟩
  · rintro (hbinds | ⟨hother, before, t, after, rfl, hbinds, hlast⟩)
    · exact ⟨tokens, token, [], rfl, hbinds, by simp⟩
    · refine ⟨before, t, after ++ [token], by simp, hbinds, fun u hu => ?_⟩
      rcases List.mem_append.mp hu with hu | hu
      · exact hlast u hu
      · exact List.mem_singleton.mp hu ▸ hother

theorem denotes_nil : Denotes [] Dict.empty where
  wellFormed := by simp
  value_iff := by simp [LastBinds]
  name_iff := by simp [Dict.contains]

/-- One more token that binds a name adds the name to the sample. -/
theorem Denotes.concat (h : Denotes tokens sample) (hbinds : Binds token name value) :
    Denotes (tokens ++ [token]) (sample.insert name value) where
  wellFormed t ht := by
    rcases List.mem_append.mp ht with ht | ht
    · exact h.wellFormed t ht
    · exact List.mem_singleton.mp ht ▸ ⟨name, value, hbinds⟩
  value_iff k v := by
    rw [lastBinds_concat, Dict.get?_insert]
    by_cases hk : k = name
    · subst hk
      simp only [if_true, Option.some.injEq]
      constructor
      · rintro rfl
        exact .inl hbinds
      · rintro (hv | ⟨hother, -⟩)
        · exact (hbinds.eq hv).2
        · exact absurd hbinds (hother value)
    · have hother : ∀ w, ¬ Binds token k w := fun w hw => hk (hw.eq hbinds).1
      simp only [hk, if_false, h.value_iff, hother v, not_false_eq_true, implies_true, true_and,
        false_or, hother]
  name_iff k := by
    rw [Dict.contains_insert, h.name_iff]
    constructor
    · rintro (rfl | ⟨t, ht, v, hv⟩)
      · exact ⟨token, by simp, value, hbinds⟩
      · exact ⟨t, by simp [ht], v, hv⟩
    · rintro ⟨t, ht, v, hv⟩
      rcases List.mem_append.mp ht with ht | ht
      · exact .inr ⟨t, ht, v, hv⟩
      · obtain rfl := List.mem_singleton.mp ht
        exact .inl (hv.eq hbinds).1

theorem Denotes.eq (h : Denotes tokens sample) (h' : Denotes tokens result) : sample = result := by
  apply Dict.ext_get?
  intro k
  ext v
  rw [h.value_iff, h'.value_iff]

theorem firstFault_cons :
    FirstFault (token :: tokens) e ↔ Malformed token e ∨ WellFormed token ∧ FirstFault tokens e := by
  constructor
  · rintro ⟨before, t, after, hsplit, hbefore, he⟩
    cases before with
    | nil =>
        cases hsplit
        exact .inl he
    | cons u before =>
        cases hsplit
        obtain ⟨htoken, hbefore⟩ := List.forall_mem_cons.mp hbefore
        exact .inr ⟨htoken, before, t, after, rfl, hbefore, he⟩
  · rintro (he | ⟨htoken, before, t, after, rfl, hbefore, he⟩)
    · exact ⟨[], token, tokens, rfl, by simp, he⟩
    · exact ⟨token :: before, t, after, rfl, List.forall_mem_cons.mpr ⟨htoken, hbefore⟩, he⟩

/-! ## Reading tokens -/

theorem counts_eq (family token : String) :
    counts family.toList token.toList = decide (Considered family token) := by
  rw [Bool.eq_iff_iff, decide_eq_true_iff]
  simp [counts, Considered]

theorem readTokens_skip {rest : List (List Char)} (h : ¬ Considered family token) :
    readTokens family.toList (token.toList :: rest) sample = readTokens family.toList rest sample := by
  simp only [readTokens, counts_eq, h, decide_false, Bool.false_eq_true, if_false]

theorem readTokens_binds {rest : List (List Char)} (h : Considered family token)
    (hbinds : Binds token name value) :
    readTokens family.toList (token.toList :: rest) sample =
      readTokens family.toList rest (sample.insert name value) := by
  simp only [readTokens, counts_eq, h, decide_true, if_true, readToken_of_binds hbinds]

theorem readTokens_malformed {rest : List (List Char)} (h : Considered family token)
    (he : Malformed token e) :
    readTokens family.toList (token.toList :: rest) sample = .error e := by
  simp only [readTokens, counts_eq, h, decide_true, if_true, readToken_of_malformed he]

/-- The sample holds at any time what the tokens so far denote. -/
theorem denotes_of_readTokens (h : Denotes tokens sample)
    (hread : readTokens family.toList (texts.map String.toList) sample = .ok result) :
    Denotes (tokens ++ texts.filter (Considered family)) result := by
  induction texts generalizing tokens sample with
  | nil =>
      cases hread
      simpa using h
  | cons t rest ih =>
      rw [List.map_cons] at hread
      by_cases hcounts : Considered family t
      · rcases wellFormed_or_malformed t with ⟨_, _, hbinds⟩ | ⟨e, he⟩
        · rw [readTokens_binds hcounts hbinds] at hread
          simpa [hcounts] using ih (h.concat hbinds) hread
        · rw [readTokens_malformed hcounts he] at hread
          cases hread
      · rw [readTokens_skip hcounts] at hread
        simpa [hcounts] using ih h hread

theorem exists_readTokens_iff :
    (∃ result, readTokens family.toList (texts.map String.toList) sample = .ok result) ↔
      ∀ t ∈ texts.filter (Considered family), WellFormed t := by
  induction texts generalizing sample with
  | nil => simp [readTokens]
  | cons t rest ih =>
      rw [List.map_cons]
      by_cases hcounts : Considered family t
      · rcases wellFormed_or_malformed t with hwell | ⟨e, he⟩
        · obtain ⟨name, value, hbinds⟩ := hwell
          have hwell : WellFormed t := ⟨name, value, hbinds⟩
          simp only [readTokens_binds hcounts hbinds, ih, List.filter_cons_of_pos, hcounts,
            decide_true, List.forall_mem_cons, hwell, true_and]
        · have hnot : ¬ WellFormed t := fun hwell => not_malformed_of_wellFormed hwell he
          simp [readTokens_malformed hcounts he, hcounts, hnot]
      · simp only [readTokens_skip hcounts, ih, hcounts, decide_false, Bool.false_eq_true,
          not_false_eq_true, List.filter_cons_of_neg]

theorem readTokens_eq_error_iff :
    readTokens family.toList (texts.map String.toList) sample = .error e ↔
      FirstFault (texts.filter (Considered family)) e := by
  induction texts generalizing sample with
  | nil => simp [readTokens, FirstFault]
  | cons t rest ih =>
      rw [List.map_cons]
      by_cases hcounts : Considered family t
      · rw [List.filter_cons_of_pos (by simpa using hcounts), firstFault_cons]
        rcases wellFormed_or_malformed t with hwell | ⟨e', he'⟩
        · obtain ⟨name, value, hbinds⟩ := hwell
          have hwell : WellFormed t := ⟨name, value, hbinds⟩
          simp only [readTokens_binds hcounts hbinds, ih, hwell, true_and,
            not_malformed_of_wellFormed hwell, false_or]
        · have hnot : ¬ WellFormed t := fun hwell => not_malformed_of_wellFormed hwell he'
          have heq : Malformed t e ↔ e' = e := by
            rw [← readToken_eq_error_iff, readToken_of_malformed he', Except.error.injEq]
          simp only [readTokens_malformed hcounts he', hnot, false_and, or_false, heq,
            Except.error.injEq]
      · rw [readTokens_skip hcounts, ih, List.filter_cons_of_neg (by simpa using hcounts)]

/-! ## The pieces of a line -/

theorem toList_intercalate (ps : List String) :
    (",".intercalate ps).toList = Text.join ',' (ps.map String.toList) := by
  rw [String.toList_intercalate, ← Text.intercalate_eq_join]
  rfl

theorem CutAtCommas.pieces_eq (h : CutAtCommas line pieces) :
    Text.pieces ',' line.toList = pieces.map String.toList := by
  have hfree : ∀ p ∈ pieces.map String.toList, ',' ∉ p := by
    intro p hp
    obtain ⟨q, hq, rfl⟩ := List.mem_map.mp hp
    exact h.commaFree q hq
  rw [← h.joined, toList_intercalate, Text.pieces_join (by simpa using h.nonempty) hfree]

/-- Every line has its pieces. -/
theorem cutAtCommas_pieces (line : String) :
    CutAtCommas line ((Text.pieces ',' line.toList).map String.ofList) where
  nonempty := by simpa using Text.pieces_ne_nil ',' line.toList
  commaFree p hp := by
    obtain ⟨q, hq, rfl⟩ := List.mem_map.mp hp
    rw [String.toList_ofList]
    exact Text.not_mem_of_mem_pieces hq
  joined := by
    rw [← String.toList_inj, toList_intercalate, List.map_map]
    simp only [Function.comp_def, String.toList_ofList, List.map_id']
    exact Text.join_pieces ',' line.toList

theorem cutAtCommas_iff {cut : List String} (h : CutAtCommas line pieces) :
    CutAtCommas line cut ↔ cut = pieces := by
  constructor
  · intro hcut
    have hchars := hcut.pieces_eq.symm.trans h.pieces_eq
    exact (List.map_inj_right fun _ _ => String.toList_inj.mp).mp hchars
  · rintro rfl
    exact h

theorem readLine_eq_readTokens (h : CutAtCommas line pieces) :
    readLine family (some line) =
      readTokens family.toList ((pieces.map Text.trim).map String.toList) Dict.empty := by
  have htrim : String.toList ∘ Text.trim = Text.trimChars ∘ String.toList :=
    funext Text.toList_trim
  rw [readLine, tokens, h.pieces_eq, List.map_map, List.map_map, htrim]

theorem readLine_eq_ok_iff (h : CutAtCommas line pieces) :
    readLine family (some line) = .ok sample ↔ Denotes (considered family pieces) sample := by
  rw [readLine_eq_readTokens h]
  refine ⟨fun hread => denotes_of_readTokens denotes_nil hread, fun hdenotes => ?_⟩
  -- Well-formed tokens are read, and they denote one sample only.
  obtain ⟨result, hread⟩ := exists_readTokens_iff.mpr hdenotes.wellFormed
  rw [hread, (denotes_of_readTokens denotes_nil hread).eq hdenotes]

/-- Without a line there is nothing in the sample. A line has just one cut into pieces at its commas. It
is read if and only if every trimmed piece of the family is well formed, and then as the sample that
these pieces denote. Otherwise it is refused for what is wrong with the first piece of the family that
is malformed. -/
theorem readLine_language (family : String) :
    readLine family none = .ok .empty ∧
    ∀ line, ∃ pieces, (∀ cut, CutAtCommas line cut ↔ cut = pieces) ∧
      ((∃ sample, readLine family (some line) = .ok sample) ↔
        ∀ t ∈ considered family pieces, WellFormed t) ∧
      (∀ sample, readLine family (some line) = .ok sample ↔
        Denotes (considered family pieces) sample) ∧
      ∀ e, readLine family (some line) = .error e ↔ FirstFault (considered family pieces) e := by
  refine ⟨rfl, fun line => ⟨_, fun cut => cutAtCommas_iff (cutAtCommas_pieces line), ?_, ?_, ?_⟩⟩
  · rw [readLine_eq_readTokens (cutAtCommas_pieces line)]
    exact exists_readTokens_iff
  · exact fun sample => readLine_eq_ok_iff (cutAtCommas_pieces line)
  · intro e
    rw [readLine_eq_readTokens (cutAtCommas_pieces line)]
    exact readTokens_eq_error_iff

end CycleWatch.Metric
