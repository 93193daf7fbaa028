import CycleWatch.Proofs.Tailer.LastLine
import CycleWatch.Proofs.Tailer.Publication
import Mathlib.Data.List.Forall2

/-!
# A sink that is being written

A writer appends records to the sink in chunks that may end anywhere, also within a record, while the
tailer reads the sink at any moments. What the tailer has published is always the last record that was
complete in the contents it read last (`published_record_of_feed`), so it never publishes a part of a
record, and it publishes records in the order of their writing.
-/

namespace CycleWatch.Tailer

/-- The text of records, each ended by a new-line character. -/
def recordText (records : List String) : List Char := ended (records.map String.toList)

/-- The `k`-th record, counted from one, without its trailing blanks; there is none of number zero. -/
def record? (records : List String) : (k : Nat) → Option String
  | 0 => none
  | k + 1 => (records[k]?).map Text.trimEnd

/-- The moments of a sink to which a writer appends chunks while the tailer `t` reads it: the chunks
still to come, what is written, the contents of the last reading that brought any, and the signals that
the tailer has taken in. A reading brings a part of what is written, and no less than the one before. -/
inductive Feed (t : Tailer) (chunks : List String) :
    (pending : List String) → (written seen : List Char) → (signals : List Signal) → Prop
  /-- Nothing is written yet. -/
  | start : Feed t chunks chunks [] [] []
  /-- The writer appends its next chunk. -/
  | append {chunk pending written seen signals} :
      Feed t chunks (chunk :: pending) written seen signals →
      Feed t chunks pending (written ++ chunk.toList) seen signals
  /-- A reading that the tailer waits for brings contents. -/
  | read {pending written seen signals} {contents : String} (nowMs : UInt64) :
      Feed t chunks pending written seen signals → (t.run signals).1.phase = .reading →
      seen <+: contents.toList → contents.toList <+: written →
      Feed t chunks pending written contents.toList
        (signals ++ [.answered (.ok (some contents)) nowMs])
  /-- Anything else: there is no file, a reading fails, or a sleep ends. -/
  | other {pending written seen signals} {signal : Signal} :
      Feed t chunks pending written seen signals →
      (∀ contents nowMs, signal ≠ .answered (.ok (some contents)) nowMs) →
      Feed t chunks pending written seen (signals ++ [signal])

/-- Signals that differ at most in what follows the last end of a line in the contents they bring. -/
inductive SameEnded : Signal → Signal → Prop
  | refl (signal : Signal) : SameEnded signal signal
  | tail {tail tail' : List Char} (cs : List Char) (nowMs : UInt64) :
      '\n' ∉ tail → '\n' ∉ tail' →
      SameEnded (.answered (.ok (some (String.ofList (cs ++ tail)))) nowMs)
        (.answered (.ok (some (String.ofList (cs ++ tail')))) nowMs)

/-! ## Records -/

section Records

variable {records : List String}

theorem record?_of_pos {k : Nat} (hpos : 0 < k) (hk : k ≤ records.length) :
    record? records k = some (Text.trimEnd records[k - 1]) := by
  cases k with
  | zero => exact absurd hpos (Nat.lt_irrefl 0)
  | succ k => simp [record?, List.getElem?_eq_getElem hk]

theorem record?_or {j k : Nat} (hjk : j ≤ k) (hk : k ≤ records.length) :
    (record? records k).or (record? records j) = record? records k := by
  rcases Nat.eq_zero_or_pos k with rfl | hpos
  · obtain rfl : j = 0 := by omega
    rfl
  · simp [record?_of_pos hpos hk]

/-- The last line of a prefix of the records' text is the last record complete in it. -/
theorem lastLine_eq_record?
    (hrecords : ∀ r ∈ records, '\n' ∉ r.toList ∧ Text.trimEnd r ≠ "") {contents : String}
    (h : contents.toList <+: recordText records) :
    contents.toList.count '\n' ≤ records.length ∧
      lastLine contents = record? records (contents.toList.count '\n') := by
  have hlines : ∀ line ∈ records.map String.toList, '\n' ∉ line := by
    intro line hline
    obtain ⟨r, hr, rfl⟩ := List.mem_map.mp hline
    exact (hrecords r hr).1
  have hfull : ∀ line ∈ records.map String.toList, Text.trimEndChars line ≠ [] := by
    intro line hline heq
    obtain ⟨r, hr, rfl⟩ := List.mem_map.mp hline
    exact (hrecords r hr).2 (by rw [Text.trimEnd, heq])
  obtain ⟨hle, tail, htail, heq⟩ := prefix_ended h hlines
  rw [List.length_map] at hle
  refine ⟨hle, ?_⟩
  generalize contents.toList.count '\n' = k at hle heq ⊢
  have hofList : contents = String.ofList (ended ((records.map String.toList).take k) ++ tail) := by
    rw [← heq, String.ofList_toList]
  rw [hofList, lastLine_ended_append (fun l hl => hlines l (List.mem_of_mem_take hl)) htail,
    trimmedLines_eq_map fun l hl => hfull l (List.mem_of_mem_take hl)]
  cases k with
  | zero => rfl
  | succ k =>
      have hk : records[k]? = some records[k] := List.getElem?_eq_getElem hle
      have hlast : ((records.map String.toList).take (k + 1)).getLast? = some records[k].toList := by
        simp [List.getLast?_take, hk]
      rw [List.getLast?_map, hlast, record?, hk]
      rfl

end Records

/-! ## The unfinished tail -/

theorem step_of_sameEnded {a b : Signal} (h : SameEnded a b) (t : Tailer) : t.step a = t.step b := by
  cases h with
  | refl => rfl
  | tail cs nowMs htail htail' =>
      have hsame := (lastLine_append_unended htail cs).trans (lastLine_append_unended htail' cs).symm
      cases hphase : t.phase <;> simp only [step, hphase, absorb, hsame]

theorem run_of_sameEnded {signals others : List Signal} (h : List.Forall₂ SameEnded signals others)
    (t : Tailer) : t.run signals = t.run others := by
  induction h generalizing t with
  | nil => rfl
  | cons hab _ ih => simp only [run, step_of_sameEnded hab, ih]

/-! ## The invariant of a feed -/

/-- What holds at every moment while records are written. -/
structure Caught (t : Tailer) (records pending : List String) (written seen : List Char)
    (signals : List Signal) : Prop where
  text : written ++ pending.flatMap String.toList = recordText records
  seen_prefix : seen <+: written
  line : (t.run signals).1.published.line = record? records (seen.count '\n')
  lines : ((t.publications signals).map (·.snapshot.line)).Sublist
    ((records.take (seen.count '\n')).map fun r => some (Text.trimEnd r))

section Invariant

variable {t : Tailer} {records pending : List String} {written seen : List Char}
  {signals : List Signal}

theorem Caught.start (hempty : t.published = .empty)
    (hpending : pending.flatMap String.toList = recordText records) :
    Caught t records pending [] [] [] where
  text := by simpa using hpending
  seen_prefix := List.prefix_refl []
  line := by rw [run_nil, hempty]; rfl
  lines := by simp [publications]

theorem Caught.append {chunk : String}
    (h : Caught t records (chunk :: pending) written seen signals) :
    Caught t records pending (written ++ chunk.toList) seen signals where
  text := by simpa using h.text
  seen_prefix := h.seen_prefix.trans (List.prefix_append written chunk.toList)
  line := h.line
  lines := h.lines

theorem Caught.other {signal : Signal} (h : Caught t records pending written seen signals)
    (hsignal : ∀ contents nowMs, signal ≠ .answered (.ok (some contents)) nowMs) :
    Caught t records pending written seen (signals ++ [signal]) := by
  have hsame : ((t.run signals).1.step signal).1.published = (t.run signals).1.published := by
    rcases step_published (t.run signals).1 signal with hsame | ⟨contents, nowMs, _, heq, _⟩
    · exact hsame
    · exact absurd heq (hsignal contents nowMs)
  refine ⟨h.text, h.seen_prefix, ?_, ?_⟩
  · rw [run_append, run_cons, run_nil, hsame, h.line]
  · rw [publications_append, publications_singleton]
    simpa [hsame] using h.lines

theorem Caught.read (hrecords : ∀ r ∈ records, '\n' ∉ r.toList ∧ Text.trimEnd r ≠ "")
    {contents : String} {nowMs : UInt64} (h : Caught t records pending written seen signals)
    (hphase : (t.run signals).1.phase = .reading) (hseen : seen <+: contents.toList)
    (hcontents : contents.toList <+: written) :
    Caught t records pending written contents.toList
      (signals ++ [.answered (.ok (some contents)) nowMs]) := by
  have hprefix : contents.toList <+: recordText records :=
    hcontents.trans ⟨pending.flatMap String.toList, h.text⟩
  obtain ⟨hle, hlast⟩ := lastLine_eq_record? hrecords hprefix
  have hgrow : seen.count '\n' ≤ contents.toList.count '\n' := hseen.sublist.count_le '\n'
  have hline : ((t.run signals).1.step (.answered (.ok (some contents)) nowMs)).1.published.line =
      record? records (contents.toList.count '\n') := by
    rw [step_answered_line hphase, hlast, h.line, record?_or hgrow hle]
  refine ⟨h.text, hcontents, by rw [run_append]; exact hline, ?_⟩
  rw [publications_append, publications_singleton]
  split
  case isTrue =>
    simpa using h.lines.trans ((List.take_sublist_take_left hgrow).map _)
  case isFalse hchanged =>
    -- The line is another one than before, so at least one more record is complete.
    have hless : seen.count '\n' < contents.toList.count '\n' := by
      refine Nat.lt_of_le_of_ne hgrow fun heq => hchanged ?_
      rcases step_published (t.run signals).1 (.answered (.ok (some contents)) nowMs) with
        hsame | ⟨_, _, line, hsignal, _, hnew, hne, _⟩
      · exact hsame
      · cases hsignal
        rw [h.line, heq, ← hlast] at hne
        exact absurd hnew hne
    obtain ⟨k, hk⟩ := Nat.exists_eq_add_of_lt hless
    rw [hk] at hle hline ⊢
    have hrecord : records[seen.count '\n' + k]? = some records[seen.count '\n' + k] :=
      List.getElem?_eq_getElem hle
    rw [List.take_add_one, hrecord, List.map_append, List.map_append]
    refine (h.lines.trans ((List.take_sublist_take_left (Nat.le_add_right _ k)).map _)).append ?_
    simp [hline, record?, hrecord]

theorem Feed.caught {chunks : List String} (hempty : t.published = .empty)
    (hrecords : ∀ r ∈ records, '\n' ∉ r.toList ∧ Text.trimEnd r ≠ "")
    (hchunks : chunks.flatMap String.toList = recordText records)
    (h : Feed t chunks pending written seen signals) :
    Caught t records pending written seen signals := by
  induction h with
  | start => exact .start hempty hchunks
  | append _ ih => exact ih.append
  | read nowMs _ hphase hseen hcontents ih => exact ih.read hrecords hphase hseen hcontents
  | other _ hsignal ih => exact ih.other hsignal

end Invariant

/-- However the writer splits the text of the records, and whenever the tailer reads it: the published
line is the last record that is complete in what was read last, without its trailing blanks, and none
when none is. The lines published so far are such records in the order of their writing, and what
follows the last end of a line in any of the contents has no influence on the tailer or on its log. -/
theorem published_record_of_feed {records chunks pending : List String} {written seen : List Char}
    {signals : List Signal} (o : Options) (cancelled : Bool)
    (hrecords : ∀ r ∈ records, '\n' ∉ r.toList ∧ Text.trimEnd r ≠ "")
    (hchunks : chunks.flatMap String.toList = recordText records)
    (h : Feed (start o cancelled).1 chunks pending written seen signals) :
    seen.count '\n' ≤ records.length ∧
      ((start o cancelled).1.run signals).1.published.line =
        record? records (seen.count '\n') ∧
      (((start o cancelled).1.publications signals).map (·.snapshot.line)).Sublist
        ((records.take (seen.count '\n')).map fun r => some (Text.trimEnd r)) ∧
      ∀ others, List.Forall₂ SameEnded signals others →
        (start o cancelled).1.run others = (start o cancelled).1.run signals := by
  have hcaught := h.caught (start_published o cancelled) hrecords hchunks
  have hprefix : (String.ofList seen).toList <+: recordText records := by
    rw [String.toList_ofList]
    exact hcaught.seen_prefix.trans ⟨pending.flatMap String.toList, hcaught.text⟩
  refine ⟨?_, hcaught.line, hcaught.lines, fun others hsame => (run_of_sameEnded hsame _).symm⟩
  simpa using (lastLine_eq_record? hrecords hprefix).1

/-- Two records, the first of them read for the first time while the second is half written. -/
theorem published_record_of_feed_two :
    let t := (start ⟨"sink", .ofMillis 10⟩ false).1
    let signals : List Signal :=
      [.answered (.ok (some "a \nb")) 5, .woken (.ok ()) false, .answered (.ok (some "a \nb\n")) 9]
    Feed t ["a", " \nb", "\n"] [] "a \nb\n".toList "a \nb\n".toList signals ∧
      (t.run signals).1.published.line = some "b" := by
  intro t signals
  have hfeed : Feed t ["a", " \nb", "\n"] [] "a \nb\n".toList "a \nb\n".toList signals := by
    have h₀ : Feed t ["a", " \nb", "\n"] ["a", " \nb", "\n"] [] [] [] := .start
    have h₁ : Feed t ["a", " \nb", "\n"] ["\n"] "a \nb".toList "a \nb".toList
        [.answered (.ok (some "a \nb")) 5] := h₀.append.append.read 5 rfl (by decide) (by decide)
    have h₂ : Feed t ["a", " \nb", "\n"] ["\n"] "a \nb".toList "a \nb".toList
        [.answered (.ok (some "a \nb")) 5, .woken (.ok ()) false] := h₁.other (by simp)
    exact h₂.append.read 9 rfl (by decide) (by decide)
  have hrecords : ∀ r ∈ ["a ", "b"], '\n' ∉ r.toList ∧ Text.trimEnd r ≠ "" := by decide
  have hline := (published_record_of_feed ⟨"sink", .ofMillis 10⟩ false hrecords (by decide) hfeed).2.1
  exact ⟨hfeed, hline.trans (by decide)⟩

end CycleWatch.Tailer
