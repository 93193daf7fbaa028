import CycleWatch.Proofs.Metric.Language
import CycleWatch.Proofs.Tailer.LastLine
import CycleWatch.Proofs.Text.Trim

/-!
# Reading a line part by part

A line is read as its parts are, one after the other, and the sample of each part is put over that of
the parts before it (`readLine_append`). So tokens of no interest and the order of tokens with different
names do not matter, nor do blanks at the ends of a line: the record that is published reads as the one
that was written (`readLine_layout`).
-/

namespace CycleWatch.Metric

variable {family line t u : String} {texts before after : List String} {sample first second : Sample}

/-! ## Tokens in two parts -/

theorem tokens_append_comma (cs ds : List Char) : tokens (cs ++ ',' :: ds) = tokens cs ++ tokens ds := by
  rw [tokens, Text.pieces_append_sep, List.map_append, tokens, tokens]

theorem readTokens_append (family : List Char) (ts us : List (List Char)) (sample : Sample) :
    readTokens family (ts ++ us) sample =
      (readTokens family ts sample).bind (readTokens family us) := by
  induction ts generalizing sample with
  | nil => rfl
  | cons token rest ih =>
      simp only [List.cons_append, readTokens]
      split
      · cases readToken token with
        | ok b => exact ih _
        | error e => rfl
      · exact ih sample

/-- What was in the sample before stays under what is read. -/
theorem readTokens_merge (family : List Char) (ts : List (List Char)) (first second : Sample) :
    readTokens family ts (first.merge second) = (readTokens family ts second).map first.merge := by
  induction ts generalizing second with
  | nil => rfl
  | cons token rest ih =>
      simp only [readTokens]
      split
      · cases readToken token with
        | ok b =>
            show readTokens family rest ((first.merge second).insert b.1 b.2) = _
            rw [← Dict.merge_insert]
            exact ih _
        | error e => rfl
      · exact ih second

theorem readTokens_over (family : List Char) (ts : List (List Char)) (sample : Sample) :
    readTokens family ts sample = (readTokens family ts Dict.empty).map sample.merge :=
  readTokens_merge family ts sample Dict.empty

/-- The part of a line after a comma is read after the part before it, and its values win. -/
theorem readLine_append (family a b : String) :
    readLine family (some (a ++ "," ++ b)) = do
      let first ← readLine family (some a)
      let second ← readLine family (some b)
      return first.merge second := by
  have hchars : (a ++ "," ++ b).toList = a.toList ++ ',' :: b.toList := by
    simp
  simp only [readLine, hchars, tokens_append_comma, readTokens_append]
  cases readTokens family.toList (tokens a.toList) Dict.empty with
  | error e => rfl
  | ok first =>
      simp only [bind, Except.bind]
      rw [readTokens_over]
      cases readTokens family.toList (tokens b.toList) Dict.empty <;> rfl

/-! ## Tokens in many parts -/

theorem counts_nil (family : List Char) : counts family [] = false := rfl

theorem tokens_join (family : List Char) (sample : Sample) (ps : List (List Char)) :
    readTokens family (tokens (Text.join ',' ps)) sample =
      readTokens family (ps.flatMap tokens) sample := by
  induction ps generalizing sample with
  | nil => simp [Text.join, tokens, Text.pieces, readTokens, counts_nil]
  | cons p ps ih =>
      cases ps with
      | nil => simp [Text.join]
      | cons q qs =>
          have hjoin : Text.join ',' (p :: q :: qs) = p ++ ',' :: Text.join ',' (q :: qs) := rfl
          rw [hjoin, tokens_append_comma, List.flatMap_cons, readTokens_append, readTokens_append]
          congr 1
          funext s
          exact ih s

theorem readLine_intercalate (family : String) (texts : List String) :
    readLine family (some (",".intercalate texts)) =
      readTokens family.toList (texts.flatMap fun t => tokens t.toList) Dict.empty := by
  rw [readLine, toList_intercalate, tokens_join, List.flatMap_map]

/-- A part that reads as the empty sample may be left out. -/
theorem readLine_skip (h : readLine family (some t) = .ok .empty) :
    readLine family (some (",".intercalate (before ++ t :: after))) =
      readLine family (some (",".intercalate (before ++ after))) := by
  rw [readLine] at h
  simp only [readLine_intercalate, List.flatMap_append, List.flatMap_cons, readTokens_append]
  congr 1
  funext s
  rw [readTokens_append, readTokens_over family.toList (tokens t.toList) s, h]
  rfl

/-- Two neighbouring parts without a common name may be exchanged. -/
theorem readLine_swap (ht : readLine family (some t) = .ok first)
    (hu : readLine family (some u) = .ok second)
    (hnames : ∀ name, first.contains name = true → second.contains name = false) :
    readLine family (some (",".intercalate (before ++ t :: u :: after))) =
      readLine family (some (",".intercalate (before ++ u :: t :: after))) := by
  rw [readLine] at ht hu
  simp only [readLine_intercalate, List.flatMap_append, List.flatMap_cons, readTokens_append]
  congr 1
  funext s
  have hover (sample : Sample) :
      readTokens family.toList (tokens t.toList) sample = .ok (sample.merge first) ∧
        readTokens family.toList (tokens u.toList) sample = .ok (sample.merge second) := by
    rw [readTokens_over family.toList (tokens t.toList), ht,
      readTokens_over family.toList (tokens u.toList), hu]
    exact ⟨rfl, rfl⟩
  simp only [readTokens_append, hover, Except.bind, Dict.merge_merge_comm hnames]

/-! ## One token -/

theorem cutAtCommas_singleton (h : ',' ∉ t.toList) : CutAtCommas t [t] where
  nonempty := by simp
  commaFree := by simpa using h
  joined := by simp

theorem readLine_foreign (hcomma : ',' ∉ t.toList) (h : ¬ Considered family (Text.trim t)) :
    readLine family (some t) = .ok .empty := by
  rw [readLine_eq_ok_iff (cutAtCommas_singleton hcomma)]
  simpa [considered, h] using denotes_nil

/-- A name in the sample of one token is the one that the token binds. -/
theorem binds_of_contains (hcomma : ',' ∉ t.toList) (h : readLine family (some t) = .ok sample)
    {name : String} (hname : sample.contains name = true) :
    ∃ value, Binds (Text.trim t) name value := by
  have hdenotes := (readLine_eq_ok_iff (cutAtCommas_singleton hcomma)).mp h
  obtain ⟨token, htoken, value, hbinds⟩ := (hdenotes.name_iff name).mp hname
  have htrim : token = Text.trim t := by
    simpa using (List.mem_filter.mp htoken).1
  exact ⟨value, htrim ▸ hbinds⟩

/-- In a line that is read every part is. -/
theorem exists_readLine_of_mem (h : readLine family (some (",".intercalate texts)) = .ok sample)
    (ht : t ∈ texts) : ∃ s, readLine family (some t) = .ok s := by
  obtain ⟨before, after, rfl⟩ := List.append_of_mem ht
  rw [readLine_intercalate, List.flatMap_append, List.flatMap_cons, readTokens_append] at h
  cases hbefore : readTokens family.toList (before.flatMap fun t => tokens t.toList) Dict.empty with
  | error e =>
      rw [hbefore] at h
      cases h
  | ok s =>
      rw [hbefore, Except.bind, readTokens_append, readTokens_over] at h
      cases hread : readTokens family.toList (tokens t.toList) Dict.empty with
      | error e =>
          rw [hread] at h
          cases h
      | ok s => exact ⟨s, hread⟩

/-! ## Blanks at the ends -/

theorem tokens_blanks_append {blanks : List Char} (h : Text.AllBlank blanks) (cs : List Char) :
    tokens (blanks ++ cs) = tokens cs := by
  have hcomma : ',' ∉ blanks := Text.not_mem_of_allBlank (by decide) h
  obtain ⟨p, ps, hcs, happend⟩ := Text.pieces_append_left hcomma cs
  simp [tokens, hcs, happend, Text.trimChars_blanks_append h]

theorem tokens_append_blanks {blanks : List Char} (h : Text.AllBlank blanks) (cs : List Char) :
    tokens (cs ++ blanks) = tokens cs := by
  have hcomma : ',' ∉ blanks := Text.not_mem_of_allBlank (by decide) h
  obtain ⟨ps, p, hcs, happend⟩ := Text.pieces_append_right hcomma cs
  simp [tokens, hcs, happend, Text.trimChars_append_blanks h]

theorem tokens_trimEndChars (cs : List Char) : tokens (Text.trimEndChars cs) = tokens cs := by
  obtain ⟨blanks, hblanks, hcs⟩ := Text.exists_blanks_trimEndChars cs
  conv_rhs => rw [hcs, tokens_append_blanks hblanks]

theorem tokens_trimChars (cs : List Char) : tokens (Text.trimChars cs) = tokens cs := by
  obtain ⟨blanks, hblanks, hcs⟩ := Text.exists_blanks_trimStartChars cs
  conv_rhs => rw [hcs, tokens_blanks_append hblanks]
  rw [Text.trimChars, tokens_trimEndChars]

theorem readLine_trim (family line : String) :
    readLine family (some (Text.trim line)) = readLine family (some line) := by
  rw [readLine, Text.toList_trim, tokens_trimChars, readLine]

theorem readLine_trimEnd (family line : String) :
    readLine family (some (Text.trimEnd line)) = readLine family (some line) := by
  rw [readLine, Text.toList_trimEnd, tokens_trimEndChars, readLine]

/-- A record that is not blank is the last line of what ends with it, but for blanks at its end. -/
theorem lastLine_record {lines : List (List Char)} {record tail : List Char}
    (hlines : ∀ line ∈ lines, '\n' ∉ line) (hrecord : '\n' ∉ record) (htail : '\n' ∉ tail)
    (hblank : Text.trimEndChars record ≠ []) :
    Tailer.lastLine (String.ofList (Tailer.ended (lines ++ [record]) ++ tail)) =
      some (Text.trimEnd (String.ofList record)) := by
  have hall : ∀ line ∈ lines ++ [record], '\n' ∉ line := by
    intro line hline
    rcases List.mem_append.mp hline with hline | hline
    · exact hlines line hline
    · exact List.mem_singleton.mp hline ▸ hrecord
  have hlast : Tailer.trimmedLines (lines ++ [record]) =
      Tailer.trimmedLines lines ++ [Text.trimEndChars record] := by
    simp [Tailer.trimmedLines, hblank]
  rw [Tailer.lastLine_ended_append hall htail, hlast, List.getLast?_concat, Option.map_some,
    Text.trimEnd, String.toList_ofList]

/-- A line of two parts with a comma between them is refused for the first part that is, and otherwise
has the values of both, those of the second part first of all. So a token that does not count may be put
in or left out anywhere, and in a line that is read two neighbouring tokens without a common name may
change places. A line reads as it does without the blanks at its ends; so the last line of a text, as it
is published, reads as the record that was written. -/
theorem readLine_layout (family : String) :
    (∀ a b, readLine family (some (a ++ "," ++ b)) = do
      let first ← readLine family (some a)
      let second ← readLine family (some b)
      return first.merge second) ∧
    (∀ (first second : Sample) name,
      (first.merge second).get? name = (second.get? name).or (first.get? name)) ∧
    (∀ before foreign after, ',' ∉ foreign.toList → ¬ Considered family (Text.trim foreign) →
      readLine family (some (",".intercalate (before ++ foreign :: after))) =
        readLine family (some (",".intercalate (before ++ after)))) ∧
    (∀ before t u after sample, ',' ∉ t.toList → ',' ∉ u.toList →
      (∀ name v w, Binds (Text.trim t) name v → ¬ Binds (Text.trim u) name w) →
      readLine family (some (",".intercalate (before ++ t :: u :: after))) = .ok sample →
      readLine family (some (",".intercalate (before ++ u :: t :: after))) = .ok sample) ∧
    (∀ line, readLine family (some (Text.trim line)) = readLine family (some line)) ∧
    ∀ (lines : List (List Char)) (record tail : List Char), (∀ line ∈ lines, '\n' ∉ line) →
      '\n' ∉ record → '\n' ∉ tail → Text.trimEndChars record ≠ [] →
      ∃ published,
        Tailer.lastLine (String.ofList (Tailer.ended (lines ++ [record]) ++ tail)) = some published ∧
        readLine family (some published) = readLine family (some (String.ofList record)) := by
  refine ⟨readLine_append family, Dict.get?_merge, ?_, ?_, readLine_trim family, ?_⟩
  · intro before foreign after hcomma hforeign
    exact readLine_skip (readLine_foreign hcomma hforeign)
  · intro before t u after sample htcomma hucomma hnames hread
    obtain ⟨first, ht⟩ := exists_readLine_of_mem hread (t := t) (by simp)
    obtain ⟨second, hu⟩ := exists_readLine_of_mem hread (t := u) (by simp)
    rw [← hread]
    refine (readLine_swap ht hu fun name hfirst => ?_).symm
    obtain ⟨v, hv⟩ := binds_of_contains htcomma ht hfirst
    rw [← Bool.not_eq_true]
    intro hsecond
    obtain ⟨w, hw⟩ := binds_of_contains hucomma hu hsecond
    exact hnames name v w hv hw
  · intro lines record tail hlines hrecord htail hblank
    exact ⟨_, lastLine_record hlines hrecord htail hblank, readLine_trimEnd _ _⟩

theorem readLine_layout_exchanged :
    readLine "Acc" (some (",".intercalate ["AccZ=0", "AccY=2", " AccX=1"])) =
        .ok (.ofList [("AccX", 1), ("AccY", 2), ("AccZ", 0)]) ∧
      readLine "Acc" (some (",".intercalate ["AccZ=0", "uptime=5", "AccX"])) =
        readLine "Acc" (some (",".intercalate ["AccZ=0", "AccX"])) ∧
      ∃ published,
        Tailer.lastLine (String.ofList (Tailer.ended [['u', 'p'], ['A', 'c', 'c', '\r']] ++ ['A'])) =
          some published ∧
        readLine "Acc" (some published) = readLine "Acc" (some "Acc\r") := by
  obtain ⟨-, -, hforeign, hswap, -, hpublished⟩ := readLine_layout "Acc"
  have hX : readToken (Text.trim " AccX=1").toList = .ok ("AccX", 1) := by rfl
  have hY : readToken (Text.trim "AccY=2").toList = .ok ("AccY", 2) := by rfl
  refine ⟨hswap ["AccZ=0"] " AccX=1" "AccY=2" [] _ (by decide) (by decide) ?_ (by rfl),
    hforeign ["AccZ=0"] "uptime=5" ["AccX"] (by decide) (by decide),
    hpublished [['u', 'p']] ['A', 'c', 'c', '\r'] ['A'] (by decide) (by decide) (by decide) (by decide)⟩
  intro name v w hv hw
  have hfirst := ((readToken_eq_ok_iff.mp hX).eq hv).1
  have hsecond := ((readToken_eq_ok_iff.mp hY).eq hw).1
  exact absurd (hfirst.trans hsecond.symm) (by decide)

end CycleWatch.Metric
