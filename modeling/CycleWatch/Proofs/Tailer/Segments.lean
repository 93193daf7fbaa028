import CycleWatch.Proofs.Tailer.LastLine
import CycleWatch.Proofs.Text.Pieces
import CycleWatch.Proofs.Text.Trim

/-!
# The last line of any text

The segments of a text are what its new-line characters end, one for each of them (`ended_segments`).
The last line is the last segment that is not blank, without the blanks at its end
(`lastLine_eq_some_iff`), and there is none just when all segments are blank (`lastLine_eq_none_iff`).
Taking the text apart as lines, where a carriage return may belong to the end of a line, comes to the
same (`lastLineOfLines_eq`). The segments of a text that is ended come before those of what is written
next (`segments_append`), so the last line is looked for in what is new and then in what was there
(`lastLine_append`).
-/

namespace CycleWatch.Tailer

/-- What the new-line characters of a text end, in order. -/
def segments (cs : List Char) : List (List Char) := (Text.pieces '\n' cs).dropLast

/-- What follows the last new-line character of a text. -/
def unended (cs : List Char) : List Char := (Text.pieces '\n' cs).getLast (Text.pieces_ne_nil _ _)

/-- Nothing, or a text with a new-line character at its end. -/
def Whole (text : String) : Prop := text = "" ∨ ∃ before, text = before ++ "\n"

variable {cs : List Char}

theorem segments_concat_unended (cs : List Char) :
    segments cs ++ [unended cs] = Text.pieces '\n' cs :=
  List.dropLast_append_getLast (Text.pieces_ne_nil _ _)

theorem not_mem_unended (cs : List Char) : '\n' ∉ unended cs :=
  Text.not_mem_of_mem_pieces (List.getLast_mem _)

theorem not_mem_of_mem_segments {segment : List Char} (h : segment ∈ segments cs) :
    '\n' ∉ segment :=
  Text.not_mem_of_mem_pieces (List.dropLast_subset _ h)

theorem join_concat (lines : List (List Char)) (tail : List Char) :
    Text.join '\n' (lines ++ [tail]) = ended lines ++ tail := by
  induction lines with
  | nil => rfl
  | cons line lines ih =>
      have hstep : Text.join '\n' (line :: (lines ++ [tail])) =
          line ++ '\n' :: Text.join '\n' (lines ++ [tail]) := by
        cases lines <;> rfl
      rw [List.cons_append, hstep, ih, ended_cons, List.append_assoc, List.cons_append]

/-- The segments, each with its new-line character, and the rest are the text. -/
theorem ended_segments (cs : List Char) : ended (segments cs) ++ unended cs = cs := by
  rw [← join_concat, segments_concat_unended, Text.join_pieces]

theorem mem_of_mem_segments {segment : List Char} (h : segment ∈ segments cs) {c : Char}
    (hc : c ∈ segment) : c ∈ cs := by
  rw [← ended_segments cs, ended]
  exact List.mem_append_left _ (List.mem_flatMap.mpr ⟨segment, h, List.mem_append_left _ hc⟩)

theorem segments_of_not_mem (h : '\n' ∉ cs) : segments cs = [] := by
  rw [segments, Text.pieces_of_not_mem h, List.dropLast_singleton]

theorem segments_concat (cs : List Char) : segments (cs ++ ['\n']) = Text.pieces '\n' cs := by
  rw [segments, Text.pieces_append_sep, Text.pieces, List.dropLast_concat]

/-- Nothing that follows a new-line character reaches into the segments before it. -/
theorem segments_append {text : String} (h : Whole text) (more : String) :
    segments (text ++ more).toList = segments text.toList ++ segments more.toList := by
  rcases h with rfl | ⟨before, rfl⟩
  · simp [segments, Text.pieces]
  · have hends : (before ++ "\n").toList = before.toList ++ ['\n'] := by simp
    have hmore : (before ++ "\n" ++ more).toList = before.toList ++ '\n' :: more.toList := by simp
    rw [hends, hmore, segments_concat, segments, segments, Text.pieces_append_sep,
      List.dropLast_append_of_ne_nil (Text.pieces_ne_nil _ _)]

/-! ## Blank segments -/

/-- The last of the lines that are not blank is the first one from behind. -/
theorem getLast?_trimmedLines (lines : List (List Char)) :
    (trimmedLines lines).getLast? = (lines.map Text.trimEndChars).reverse.find? (· ≠ []) := by
  rw [trimmedLines, List.getLast?_eq_head?_reverse, ← List.filter_reverse, List.head?_filter]

theorem trimmedLines_eq_nil_iff {lines : List (List Char)} :
    trimmedLines lines = [] ↔ ∀ line ∈ lines, Text.AllBlank line := by
  simp [trimmedLines, List.filter_eq_nil_iff, Text.trimEndChars_eq_nil_iff]

theorem getLast?_trimmedLines_eq_some_iff {lines : List (List Char)} {last : List Char} :
    (trimmedLines lines).getLast? = some last ↔
      ∃ before line after, lines = before ++ line :: after ∧ ¬Text.AllBlank line ∧
        (∀ later ∈ after, Text.AllBlank later) ∧ last = Text.trimEndChars line := by
  constructor
  · intro h
    -- From the end: a blank line there is passed over, any other one is the last.
    induction lines using List.reverseRecOn with
    | nil => cases h
    | append_singleton lines line ih =>
        by_cases hline : Text.AllBlank line
        · have hnil : trimmedLines [line] = [] := trimmedLines_eq_nil_iff.mpr (by simpa using hline)
          rw [trimmedLines_append, hnil, List.append_nil] at h
          obtain ⟨before, found, after, rfl, hfound, hafter, hlast⟩ := ih h
          refine ⟨before, found, after ++ [line], by simp, hfound, fun later hlater => ?_, hlast⟩
          rcases List.mem_append.mp hlater with hlater | hlater
          · exact hafter later hlater
          · rwa [List.mem_singleton.mp hlater]
        · have hne : Text.trimEndChars line ≠ [] :=
            fun hnil => hline (Text.trimEndChars_eq_nil_iff.mp hnil)
          rw [trimmedLines_append, trimmedLines_cons, if_neg hne, trimmedLines_nil,
            List.getLast?_concat] at h
          exact ⟨lines, line, [], rfl, hline, by simp, (Option.some.inj h).symm⟩
  · rintro ⟨before, line, after, rfl, hline, hafter, rfl⟩
    have hnil : trimmedLines after = [] := trimmedLines_eq_nil_iff.mpr hafter
    have hne : Text.trimEndChars line ≠ [] := fun h => hline (Text.trimEndChars_eq_nil_iff.mp h)
    rw [trimmedLines_append, trimmedLines_cons, if_neg hne, hnil, List.getLast?_concat]

/-! ## The last line of a text -/

theorem lastLine_eq_getLast? (contents : String) :
    lastLine contents =
      (trimmedLines (segments contents.toList)).getLast?.map String.ofList := by
  have hsegments : ∀ segment ∈ segments contents.toList, '\n' ∉ segment :=
    fun _ hmem => not_mem_of_mem_segments hmem
  have h := lastLine_ended_append hsegments (not_mem_unended contents.toList)
  rwa [ended_segments, String.ofList_toList] at h

theorem lastLine_eq_none_iff {contents : String} :
    lastLine contents = none ↔ ∀ segment ∈ segments contents.toList, Text.AllBlank segment := by
  rw [lastLine_eq_getLast?, Option.map_eq_none_iff, List.getLast?_eq_none_iff,
    trimmedLines_eq_nil_iff]

theorem lastLine_eq_some_iff {contents line : String} :
    lastLine contents = some line ↔
      ∃ before segment after, segments contents.toList = before ++ segment :: after ∧
        ¬Text.AllBlank segment ∧ (∀ later ∈ after, Text.AllBlank later) ∧
          line = Text.trimEnd (String.ofList segment) := by
  rw [lastLine_eq_getLast?, Option.map_eq_some_iff]
  simp only [getLast?_trimmedLines_eq_some_iff, Text.trimEnd, String.toList_ofList]
  constructor
  · rintro ⟨_, ⟨before, segment, after, hsegs, hne, hafter, rfl⟩, rfl⟩
    exact ⟨before, segment, after, hsegs, hne, hafter, rfl⟩
  · rintro ⟨before, segment, after, hsegs, hne, hafter, rfl⟩
    exact ⟨_, ⟨before, segment, after, hsegs, hne, hafter, rfl⟩, rfl⟩

theorem lastLine_append {text : String} (h : Whole text) (more : String) :
    lastLine (text ++ more) = (lastLine more).or (lastLine text) := by
  simp only [lastLine_eq_getLast?, segments_append h, trimmedLines_append, List.getLast?_append,
    Option.map_or]

theorem lastLine_of_not_mem {text : String} (h : '\n' ∉ text.toList) : lastLine text = none := by
  rw [lastLine_eq_none_iff, segments_of_not_mem h]
  simp

theorem segments_line {text : String} (h : '\n' ∉ text.toList) :
    segments (text ++ "\n").toList = [text.toList] := by
  have hends : (text ++ "\n").toList = text.toList ++ ['\n'] := by simp
  rw [hends, segments_concat, Text.pieces_of_not_mem h]

theorem lastLine_line {text : String} (h : '\n' ∉ text.toList) (hne : ¬Text.AllBlank text.toList) :
    lastLine (text ++ "\n") = some (Text.trimEnd text) :=
  lastLine_eq_some_iff.mpr
    ⟨[], text.toList, [], segments_line h, hne, by simp, by rw [String.ofList_toList]⟩

/-- Blanks are no line, also when there are new-line characters among them. -/
theorem lastLine_blanks {text : String} (h : Text.AllBlank text.toList) :
    lastLine (text ++ "\n") = none := by
  have hblank : Text.AllBlank (text ++ "\n").toList := by
    intro c hc
    rw [String.toList_append] at hc
    rcases List.mem_append.mp hc with hc | hc
    · exact h c hc
    · rw [List.mem_singleton.mp hc]
      rfl
  rw [lastLine_eq_none_iff]
  exact fun segment hmem c hc => hblank c (mem_of_mem_segments hmem hc)

/-! ## Line by line -/

/-- The segment without a carriage return at its end. -/
def dropReturn (segment : List Char) : List Char :=
  if segment.getLast? = some '\r' then segment.dropLast else segment

/-- The lines of a text: its segments, whose end may be a carriage return and a new line, and what
is left, as it is, unless nothing is left. -/
def linesOf (cs : List Char) : List (List Char) :=
  (segments cs).map dropReturn ++ if unended cs = [] then [] else [unended cs]

/-- What stands before the last new-line character, line by line from behind. -/
def lastLineOfLines (contents : String) : Option String :=
  (Text.cutAtLast '\n' contents.toList).bind fun (terminated, _) =>
    (((linesOf terminated).map Text.trimEndChars).reverse.find? (· ≠ [])).map String.ofList

theorem trimEndChars_dropReturn (segment : List Char) :
    Text.trimEndChars (dropReturn segment) = Text.trimEndChars segment := by
  unfold dropReturn
  split
  case isTrue h =>
    obtain ⟨start, rfl⟩ := List.getLast?_eq_some_iff.mp h
    have hreturn : Text.AllBlank ['\r'] := by decide
    rw [List.dropLast_concat, Text.trimEndChars_append_blanks hreturn]
  case isFalse => rfl

theorem trimmedLines_linesOf (cs : List Char) :
    trimmedLines (linesOf cs) = trimmedLines (Text.pieces '\n' cs) := by
  have hreturns : trimmedLines ((segments cs).map dropReturn) = trimmedLines (segments cs) := by
    simp only [trimmedLines, List.map_map, Function.comp_def, trimEndChars_dropReturn]
  rw [linesOf, trimmedLines_append, hreturns, ← segments_concat_unended, trimmedLines_append]
  split
  case isTrue hnil => simp [hnil, trimmedLines_cons]
  case isFalse => rfl

theorem lastLineOfLines_eq (contents : String) : lastLineOfLines contents = lastLine contents := by
  rw [lastLine_eq_getLast?, lastLineOfLines]
  by_cases h : '\n' ∈ contents.toList
  · -- Without the last new-line character, the segment that it ends is what is left over.
    obtain ⟨before, after, htext, hafter⟩ := Text.exists_eq_append_of_mem h
    have hsegments : segments contents.toList = Text.pieces '\n' before := by
      rw [htext, segments, Text.pieces_append_sep, Text.pieces_of_not_mem hafter,
        List.dropLast_concat]
    rw [hsegments, ← trimmedLines_linesOf, getLast?_trimmedLines, htext,
      Text.cutAtLast_append hafter]
    rfl
  · rw [Text.cutAtLast_of_not_mem h, segments_of_not_mem h]
    rfl

/-! ## What is kept of a segment -/

/-- A last line is the start of a segment, and only blanks follow it there. -/
theorem lastLine_append_blanks_mem {contents line : String} (h : lastLine contents = some line) :
    (∃ last ∈ line.toList.getLast?, Text.isBlank last = false) ∧
      ∃ blanks, Text.AllBlank blanks ∧ line.toList ++ blanks ∈ segments contents.toList := by
  obtain ⟨before, segment, after, hsegments, hne, -, rfl⟩ := lastLine_eq_some_iff.mp h
  obtain ⟨blanks, hblanks, hsegment⟩ := Text.exists_blanks_trimEndChars segment
  rw [Text.toList_trimEnd, String.toList_ofList]
  refine ⟨?_, blanks, hblanks, ?_⟩
  · have hrest : Text.trimEndChars segment ≠ [] :=
      fun hnil => hne (Text.trimEndChars_eq_nil_iff.mp hnil)
    have hlast := List.getLast?_eq_some_getLast hrest
    exact ⟨_, hlast, Text.isBlank_getLast?_trimEndChars hlast⟩
  · rw [← hsegment, hsegments]
    exact List.mem_append_cons_self

/-- Whatever a text holds, its last line is the last segment that is not blank, without the blanks at
its end. What is written after a text that is ended is a line once a new-line character follows it. -/
theorem lastLine_of_segments (contents : String) :
    ((∀ segment ∈ segments contents.toList, '\n' ∉ segment) ∧
        ∃ tail, '\n' ∉ tail ∧ contents.toList = ended (segments contents.toList) ++ tail) ∧
      lastLine contents = lastLineOfLines contents ∧
      (lastLine contents = none ↔
        ∀ segment ∈ segments contents.toList, Text.AllBlank segment) ∧
      (∀ line, lastLine contents = some line ↔
        ∃ before segment after, segments contents.toList = before ++ segment :: after ∧
          ¬Text.AllBlank segment ∧ (∀ later ∈ after, Text.AllBlank later) ∧
            line = Text.trimEnd (String.ofList segment)) ∧
      (∀ line, lastLine contents = some line →
        (∃ last ∈ line.toList.getLast?, Text.isBlank last = false) ∧
          ∃ blanks, Text.AllBlank blanks ∧
            line.toList ++ blanks ∈ segments contents.toList) ∧
      (Whole contents → ∀ more : String,
        ('\n' ∉ more.toList → lastLine (contents ++ more) = lastLine contents) ∧
          ('\n' ∉ more.toList → ¬Text.AllBlank more.toList →
            lastLine (contents ++ more ++ "\n") = some (Text.trimEnd more)) ∧
          (Text.AllBlank more.toList →
            lastLine (contents ++ more ++ "\n") = lastLine contents)) := by
  have htext := ended_segments contents.toList
  refine ⟨⟨fun _ hmem => not_mem_of_mem_segments hmem, _, not_mem_unended _, htext.symm⟩,
    (lastLineOfLines_eq contents).symm, lastLine_eq_none_iff, fun _ => lastLine_eq_some_iff,
    fun _ h => lastLine_append_blanks_mem h, fun hwhole more => ⟨?unended, ?line, ?blanks⟩⟩
  case unended =>
    intro hmore
    rw [lastLine_append hwhole, lastLine_of_not_mem hmore, Option.none_or]
  case line =>
    intro hmore hne
    rw [String.append_assoc, lastLine_append hwhole, lastLine_line hmore hne, Option.some_or]
  case blanks =>
    intro hmore
    rw [String.append_assoc, lastLine_append hwhole, lastLine_blanks hmore, Option.none_or]

/-- Carriage returns and blanks of other kinds, with lines of blanks behind the last record. -/
theorem lastLine_of_segments_returns :
    let contents := "a=1\r\n \t b=2\rc \u00A0\r\n\r\n \u3000\n"
    Whole contents ∧ lastLine contents = some " \t b=2\rc" ∧
      lastLineOfLines contents = some " \t b=2\rc" ∧
      lastLine (contents ++ "d=3") = some " \t b=2\rc" ∧
      lastLine (contents ++ "\r\u2003d=3\r" ++ "\n") = some "\r\u2003d=3" ∧
      lastLine (contents ++ "\r\n\u0085 " ++ "\n") = some " \t b=2\rc" := by
  intro contents
  have hwhole : Whole contents := .inr ⟨"a=1\r\n \t b=2\rc \u00A0\r\n\r\n \u3000", by decide⟩
  obtain ⟨-, hlines, -, hsome, -, hmore⟩ := lastLine_of_segments contents
  have hlast : lastLine contents = some " \t b=2\rc" :=
    (hsome _).mpr ⟨["a=1\r".toList], " \t b=2\rc \u00A0\r".toList, ["\r".toList, " \u3000".toList],
      by decide, by decide, by decide, by decide⟩
  exact ⟨hwhole, hlast, hlines.symm.trans hlast,
    ((hmore hwhole "d=3").1 (by decide)).trans hlast,
    ((hmore hwhole "\r\u2003d=3\r").2.1 (by decide) (by decide)).trans (by decide),
    ((hmore hwhole "\r\n\u0085 ").2.2 (by decide)).trans hlast⟩

end CycleWatch.Tailer
