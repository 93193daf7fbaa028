import CycleWatch.Metric.Counters
import CycleWatch.Metric.Violation
import CycleWatch.Proofs.Metric.NormalKeys
import CycleWatch.Proofs.Text.Pieces
/-!
# Lines written with any spacing

A line may have blanks about every token, every name and every value, and tokens of other programs
anywhere between the metrics. What its tokens bind is what is read from it (`readLine_spell`); the line
of the collector is such a line (`line_eq_spell`).
-/
namespace CycleWatch.Metric

/-- Neither of the separators of a line stands in the name. -/
def SeparatorFree (name : String) : Prop :=
  ',' ∉ name.toList ∧ '=' ∉ name.toList

instance (name : String) : Decidable (SeparatorFree name) :=
  inferInstanceAs (Decidable (_ ∧ _))

/-- A name of the family that a token can carry. -/
structure Carriable (family name : String) : Prop where
  nonempty : name ≠ ""
  trimmed : Text.Trimmed name.toList
  ofFamily : family.toList <+: name.toList
  separatorFree : SeparatorFree name

/-- The blanks about the name and about the value of a token. -/
structure Spacing where
  /-- What stands before the name. -/
  before : List Char
  /-- What stands between the name and the `=`. -/
  afterName : List Char
  /-- What stands between the `=` and the value. -/
  beforeValue : List Char
  /-- What stands after the value. -/
  after : List Char

/-- No blanks at all. -/
def Spacing.none : Spacing := ⟨[], [], [], []⟩

/-- One space before the name. -/
def Spacing.leading : Spacing := ⟨[' '], [], [], []⟩

/-- All of it is blank. -/
structure Spacing.Blank (s : Spacing) : Prop where
  before : Text.AllBlank s.before
  afterName : Text.AllBlank s.afterName
  beforeValue : Text.AllBlank s.beforeValue
  after : Text.AllBlank s.after

/-- A token of a line. -/
inductive Token where
  /-- A metric with its value. -/
  | metric (name : String) (value : Int64) (spacing : Spacing)
  /-- A token of another program, or nothing. -/
  | foreign (text : String)

namespace Token

/-- A metric without the blanks about it. -/
def metricChars (name : String) (value : Int64) (spacing : Spacing) : List Char :=
  name.toList ++ (spacing.afterName ++ '=' :: spacing.beforeValue) ++ Text.writeInt value.toInt

/-- The token as it stands in a line. -/
def chars : Token → List Char
  | metric name value spacing =>
    spacing.before ++ metricChars name value spacing ++ spacing.after
  | foreign text => text.toList

/-- The metric and the value that the token binds. -/
def binding? : Token → Option (String × Int64)
  | metric name value _ => some (name, value)
  | foreign _ => none

/-- A metric has a name of the family that a token can carry, and blanks about it. Anything else has no
comma in it and, but for blanks, is nothing or does not start with the family. -/
def Fits (family : String) : Token → Prop
  | metric name _ spacing => Carriable family name ∧ spacing.Blank
  | foreign text =>
    ',' ∉ text.toList ∧ (Text.trim text = "" ∨ ¬family.toList <+: (Text.trim text).toList)

end Token

/-- The line with the tokens between commas. -/
def spell (tokens : List Token) : String :=
  String.ofList (Text.join ',' (tokens.map Token.chars))

variable {family name : String}

theorem blank_none : Spacing.none.Blank := by
  constructor <;> decide

theorem blank_leading : Spacing.leading.Blank := by
  constructor <;> decide

/-! ## One token -/

theorem not_blank_of_mem_writeInt {n : Int} {c : Char} (h : c ∈ Text.writeInt n) :
    Text.isBlank c = false ∧ c ≠ ',' := by
  have hdigit : ∀ d < 10, Text.isBlank (Text.digitChar d) = false ∧ Text.digitChar d ≠ ',' := by
    decide
  rcases Text.mem_writeInt h with rfl | ⟨d, hd, rfl⟩
  · decide
  · exact hdigit d hd

theorem trimmed_writeInt (n : Int) : Text.Trimmed (Text.writeInt n) :=
  Text.trimmed_of_forall fun _ hc => (not_blank_of_mem_writeInt hc).1

theorem toList_ne_nil_of_carriable (h : Carriable family name) : name.toList ≠ [] := by
  intro hnil
  exact h.nonempty (String.toList_eq_nil_iff.mp hnil)

namespace Token

variable {spacing : Spacing} (h : Carriable family name) (hspacing : spacing.Blank) (value : Int64)
include h

theorem trimmed_metricChars : Text.Trimmed (metricChars name value spacing) :=
  h.trimmed.append (trimmed_writeInt _) (toList_ne_nil_of_carriable h) (Text.writeInt_ne_nil _) _

theorem counts_metricChars : counts family.toList (metricChars name value spacing) = true := by
  have hprefix : family.toList <+: metricChars name value spacing := by
    rw [metricChars, List.append_assoc]
    exact h.ofFamily.trans (List.prefix_append _ _)
  rw [counts, List.isPrefixOf_iff_prefix.mpr hprefix, metricChars]
  simp [toList_ne_nil_of_carriable h]

include hspacing

theorem trimChars_chars :
    Text.trimChars (metric name value spacing).chars = metricChars name value spacing := by
  rw [chars, List.append_assoc, Text.trimChars_blanks_append hspacing.before]
  exact (trimmed_metricChars h value).trimChars_append_blanks hspacing.after

theorem readToken_metricChars : readToken (metricChars name value spacing) = .ok (name, value) := by
  have hequals : '=' ∉ name.toList ++ spacing.afterName := by
    rw [List.mem_append, not_or]
    exact ⟨h.separatorFree.2, Text.not_mem_of_allBlank (by decide) hspacing.afterName⟩
  have hcut : Text.cutAtFirst '=' (metricChars name value spacing) =
      some (name.toList ++ spacing.afterName,
        spacing.beforeValue ++ Text.writeInt value.toInt) := by
    rw [metricChars, List.append_assoc, List.append_assoc, ← List.append_assoc, List.cons_append]
    exact Text.cutAtFirst_append hequals
  have hname : Text.trimChars (name.toList ++ spacing.afterName) = name.toList :=
    h.trimmed.trimChars_append_blanks hspacing.afterName
  have hvalue : Text.trimChars (spacing.beforeValue ++ Text.writeInt value.toInt) =
      Text.writeInt value.toInt := by
    rw [Text.trimChars_blanks_append hspacing.beforeValue, (trimmed_writeInt _).trimChars_eq]
  have hne : name.toList.isEmpty = false := by
    simpa using h.nonempty
  simp only [readToken, hcut, hname, hvalue, hne, Text.readInt_writeInt, Option.bind_some,
    Word.int64?_toInt, String.ofList_toList]
  rfl

theorem not_mem_chars : ',' ∉ (metric name value spacing).chars := by
  have hblank : Text.isBlank ',' = false := by decide
  simp only [chars, metricChars, List.mem_append, List.mem_cons, not_or]
  exact ⟨⟨Text.not_mem_of_allBlank hblank hspacing.before, ⟨h.separatorFree.1,
    Text.not_mem_of_allBlank hblank hspacing.afterName, by decide,
    Text.not_mem_of_allBlank hblank hspacing.beforeValue⟩,
    fun hc => (not_blank_of_mem_writeInt hc).2 rfl⟩,
    Text.not_mem_of_allBlank hblank hspacing.after⟩

end Token

/-! ## A line of tokens -/

variable {line : List Token}

/-- Metrics alike in their blanks bind what they were made of. -/
theorem filterMap_binding? (bindings : List (String × Int64)) (spacing : Spacing) :
    (bindings.map fun b => Token.metric b.1 b.2 spacing).filterMap Token.binding? = bindings := by
  rw [List.filterMap_map]
  exact List.filterMap_some

theorem not_mem_of_fits {token : Token} (h : token.Fits family) : ',' ∉ token.chars := by
  cases token with
  | metric name value spacing => exact Token.not_mem_chars h.1 h.2 value
  | foreign text => exact h.1

theorem counts_foreign {text : String} (h : (Token.foreign text).Fits family) :
    counts family.toList (Text.trimChars (Token.foreign text).chars) = false := by
  rw [Token.chars, ← Text.toList_trim, counts]
  rcases h.2 with hempty | hout
  · rw [hempty]
    rfl
  · rw [← List.isPrefixOf_iff_prefix, Bool.not_eq_true] at hout
    rw [hout, Bool.and_false]

theorem readTokens_chars (h : ∀ token ∈ line, token.Fits family) (sample : Sample) :
    readTokens family.toList (line.map fun token => Text.trimChars token.chars) sample =
      .ok (sample.insertAll (line.filterMap Token.binding?)) := by
  induction line generalizing sample with
  | nil => rfl
  | cons token rest ih =>
    obtain ⟨htoken, hrest⟩ := List.forall_mem_cons.mp h
    rw [List.map_cons, readTokens]
    cases token with
    | metric name value spacing =>
      obtain ⟨hname, hspacing⟩ := htoken
      rw [Token.trimChars_chars hname hspacing value, if_pos (Token.counts_metricChars hname value),
        Token.readToken_metricChars hname hspacing value]
      exact ih hrest _
    | foreign text =>
      rw [if_neg (by simp [counts_foreign htoken])]
      exact ih hrest sample

/-- What is read from a line is what its tokens bind. -/
theorem readLine_spell (h : ∀ token ∈ line, token.Fits family) :
    readLine family (some (spell line)) = .ok (.ofList (line.filterMap Token.binding?)) := by
  cases line with
  | nil => rfl
  | cons token rest =>
    have hpieces : Text.pieces ',' (spell (token :: rest)).toList =
        (token :: rest).map Token.chars := by
      rw [spell, String.toList_ofList]
      refine Text.pieces_join (by simp) fun p hp => ?_
      obtain ⟨q, hq, rfl⟩ := List.mem_map.mp hp
      exact not_mem_of_fits (h q hq)
    rw [readLine, tokens, hpieces, List.map_map]
    exact readTokens_chars h Dict.empty

/-! ## The line of the collector -/

theorem foldl_writeToken (start : String) (bindings : List (String × Int64)) :
    bindings.foldl (fun line b => line ++ ", " ++ writeToken b.1 b.2) start =
      spell (.foreign start :: bindings.map fun b => .metric b.1 b.2 .leading) := by
  induction bindings generalizing start with
  | nil => simp [spell, Text.join, Token.chars]
  | cons b rest ih =>
    have hstart : (Token.foreign (start ++ ", " ++ writeToken b.1 b.2)).chars =
        (Token.foreign start).chars ++ ',' :: (Token.metric b.1 b.2 .leading).chars := by
      simp [writeToken, Text.intText, Token.chars, Token.metricChars, Spacing.leading]
    rw [List.foldl_cons, ih, spell, List.map_cons, hstart, Text.join_append_cons]
    rfl

theorem line_eq_spell (c : Counters) :
    c.line = spell (.foreign "TabletServerUptime=99" ::
      c.bindings.map fun b => .metric b.1 b.2 .leading) :=
  foldl_writeToken _ _

theorem carriable_of_mem_collectorNames (h : name ∈ collectorNames) :
    Carriable collectorFamily name := by
  have hall : ∀ k ∈ collectorNames, k ≠ "" ∧ Text.trim k = k ∧
      collectorFamily.toList <+: k.toList ∧ SeparatorFree k := by
    decide
  obtain ⟨hne, htrim, hfamily, hfree⟩ := hall name h
  exact ⟨hne, Text.trimmed_of_trim_eq htrim, hfamily, hfree⟩

theorem fst_bindings (c : Counters) : c.bindings.map Prod.fst = collectorNames := rfl

theorem readLine_line (c : Counters) :
    readLine collectorFamily (some c.line) = .ok (.ofList c.bindings) := by
  have hfits : ∀ token ∈ Token.foreign "TabletServerUptime=99" ::
      c.bindings.map fun b => .metric b.1 b.2 .leading, token.Fits collectorFamily := by
    refine List.forall_mem_cons.mpr ⟨⟨by decide, .inr (by decide)⟩, fun token htoken => ?_⟩
    obtain ⟨b, hb, rfl⟩ := List.mem_map.mp htoken
    have hname : b.1 ∈ collectorNames := fst_bindings c ▸ List.mem_map_of_mem hb
    exact ⟨carriable_of_mem_collectorNames hname, blank_leading⟩
  rw [line_eq_spell, readLine_spell hfits, List.filterMap_cons_none rfl, filterMap_binding?]

theorem pairwise_bindings (c : Counters) : c.bindings.Pairwise fun a b => a.1 < b.1 := by
  have hnames : (c.bindings.map Prod.fst).Pairwise (· < ·) := by
    rw [fst_bindings]
    decide
  exact List.pairwise_map.mp hnames

theorem keys_ofList_bindings (c : Counters) : (Dict.ofList c.bindings).keys = collectorNames := by
  rw [← fst_bindings c, Dict.keys, ← Dict.toList, Dict.toList_ofList (pairwise_bindings c)]

theorem get?_ofList_bindings (c : Counters) (k : String) :
    (Dict.ofList c.bindings).get? k = Dict.lookupEntry k c.bindings := by
  rw [Dict.ofList, Dict.get?_insertAll _ (pairwise_bindings c), Dict.get?_empty, Option.or_none]

theorem requireKeys_ofList_bindings (c : Counters) :
    requireKeys (.ofList c.bindings) .collector = .ok () := by
  refine requireKeys_eq_ok_iff.mpr fun k hk => ?_
  rw [KeySet.collector, KeySet.ofTexts, mem_normalKeys] at hk
  obtain ⟨-, t, ht, rfl⟩ := hk
  rw [(carriable_of_mem_collectorNames ht).trimmed.trim_eq]
  rw [← fst_bindings c] at ht
  obtain ⟨b, hb, rfl⟩ := List.mem_map.mp ht
  exact Dict.contains_insertAll.mpr (.inl ⟨b, hb, rfl⟩)

/-- A line with any metrics of the family, of any values and in any order, with any blanks about tokens,
names and values, and with anything between them that does not count, is read as the sample of these
metrics, in which the last value of each one counts. So is the line of the collector, whatever the
counters: the sample has the fourteen names and no other, the counters under their own names, and it is
complete. -/
theorem spelled_line_reads_back :
    (∀ (family : String) (line : List Token), (∀ token ∈ line, token.Fits family) →
      ∃ sample, readLine family (some (spell line)) = .ok sample ∧
        sample = .ofList (line.filterMap Token.binding?) ∧
        ∀ k, sample.get? k = Dict.lookupEntry k (line.filterMap Token.binding?).reverse) ∧
    ∀ c : Counters, ∃ sample, readLine collectorFamily (some c.line) = .ok sample ∧
      sample.keys = collectorNames ∧
      sample.get? started = some c.started ∧ sample.get? finished = some c.finished ∧
      sample.get? walStarted = some c.walStarted ∧ sample.get? walFinished = some c.walFinished ∧
      sample.get? runCycleCount = some c.runCycleCount ∧
      requireKeys sample .collector = .ok () := by
  refine ⟨fun family line h => ⟨_, readLine_spell h, rfl, fun k => ?_⟩, fun c => ?_⟩
  · rw [Dict.ofList, Dict.get?_insertAll_eq_reverse, Dict.get?_empty, Option.or_none]
  · refine ⟨_, readLine_line c, keys_ofList_bindings c, ?_, ?_, ?_, ?_, ?_,
      requireKeys_ofList_bindings c⟩
    all_goals
      rw [get?_ofList_bindings]
      rfl

theorem spelled_line_reads_back_last :
    ∃ sample, readLine "Acc" (some (spell [.metric "AccX" 1 ⟨[' '], ['\t'], [' '], []⟩,
        .foreign " Other", .foreign "", .metric "AccX" (-2) .leading])) = .ok sample ∧
      sample.get? "AccX" = some (-2) := by
  have hname : Carriable "Acc" "AccX" :=
    ⟨by decide, Text.trimmed_of_trim_eq (by decide), by decide, by decide⟩
  obtain ⟨sample, hread, -, hget⟩ := spelled_line_reads_back.1 "Acc"
    [.metric "AccX" 1 ⟨[' '], ['\t'], [' '], []⟩, .foreign " Other", .foreign "",
      .metric "AccX" (-2) .leading] (by
      simp only [List.forall_mem_cons, List.not_mem_nil, false_implies, implies_true, and_true]
      exact ⟨⟨hname, by constructor <;> decide⟩, ⟨by decide, .inr (by decide)⟩,
        ⟨by decide, .inl (by decide)⟩, hname, blank_leading⟩)
  exact ⟨sample, hread, hget "AccX"⟩

end CycleWatch.Metric
