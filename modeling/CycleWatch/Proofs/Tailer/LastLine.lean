import CycleWatch.Tailer.LastLine
import Mathlib.Data.List.DropRight

/-!
# The last line of a text made of lines

The last line of ended lines and an unfinished tail is the last of these lines that is not blank
(`lastLine_ended_append`); the tail has no part in it (`lastLine_append_unended`). A prefix of ended
lines is again some of them and a tail (`prefix_ended`). A last line is not empty, it is a single line,
and nothing blank is at its end (`lastLine_trimmed`).
-/

namespace CycleWatch.Tailer

/-- Lines one after the other, each ended by a new-line character. -/
def ended (lines : List (List Char)) : List Char := lines.flatMap (· ++ ['\n'])

/-- The lines without their trailing blanks; blank ones are left out. -/
def trimmedLines (lines : List (List Char)) : List (List Char) :=
  (lines.map Text.trimEndChars).filter (· ≠ [])

@[simp] theorem ended_nil : ended [] = [] := rfl

@[simp] theorem ended_cons (line : List Char) (lines : List (List Char)) :
    ended (line :: lines) = line ++ '\n' :: ended lines := by
  simp [ended]

@[simp] theorem trimmedLines_nil : trimmedLines [] = [] := rfl

theorem trimmedLines_cons (line : List Char) (lines : List (List Char)) :
    trimmedLines (line :: lines) =
      if Text.trimEndChars line = [] then trimmedLines lines
      else Text.trimEndChars line :: trimmedLines lines := by
  by_cases h : Text.trimEndChars line = [] <;> simp [trimmedLines, h]

theorem trimmedLines_append (lines more : List (List Char)) :
    trimmedLines (lines ++ more) = trimmedLines lines ++ trimmedLines more := by
  simp [trimmedLines]

theorem getLast?_trimmedLines_cons (line : List Char) (lines : List (List Char))
    (last : Option (List Char)) :
    (trimmedLines (line :: lines)).getLast?.or last =
      (trimmedLines lines).getLast?.or ((trimmedLines [line]).getLast?.or last) := by
  by_cases h : Text.trimEndChars line = []
  · simp [trimmedLines_cons, h]
  · simp only [trimmedLines_cons, h, ↓reduceIte, trimmedLines_nil, List.getLast?_cons]
    cases (trimmedLines lines).getLast? <;> rfl

theorem trimmedLines_eq_map {lines : List (List Char)}
    (h : ∀ line ∈ lines, Text.trimEndChars line ≠ []) :
    trimmedLines lines = lines.map Text.trimEndChars := by
  unfold trimmedLines
  rw [List.filter_eq_self]
  intro line hline
  obtain ⟨l, hl, rfl⟩ := List.mem_map.mp hline
  simpa using h l hl

/-! ## Prefixes -/

/-- A prefix of ended lines consists of as many of them as it has ends of lines, and of a part of the
line after these. -/
theorem prefix_ended {lines : List (List Char)} {p : List Char} (hp : p <+: ended lines)
    (h : ∀ line ∈ lines, '\n' ∉ line) :
    p.count '\n' ≤ lines.length ∧
      ∃ tail, '\n' ∉ tail ∧ p = ended (lines.take (p.count '\n')) ++ tail := by
  induction lines generalizing p with
  | nil =>
      have hnil : p = [] := by simpa using hp
      subst hnil
      exact ⟨Nat.le_refl _, [], by simp, rfl⟩
  | cons line lines ih =>
      have hline : '\n' ∉ line := h line (by simp)
      have hcount : line.count '\n' = 0 := List.count_eq_zero.mpr hline
      have hwhole : line ++ ['\n'] <+: ended (line :: lines) := ⟨ended lines, by simp⟩
      rcases List.prefix_or_prefix_of_prefix hp hwhole with hshort | ⟨q, rfl⟩
      · rcases List.prefix_concat_iff.mp hshort with rfl | hpart
        · have hone : (line ++ ['\n']).count '\n' = 1 := by simp [hcount]
          exact ⟨by simp [hone], [], by simp, by simp [hone]⟩
        · have htail : '\n' ∉ p := fun hm => hline (hpart.subset hm)
          have hzero : p.count '\n' = 0 := List.count_eq_zero.mpr htail
          exact ⟨by omega, p, htail, by simp [hzero]⟩
      · have hq : q <+: ended lines := by simpa using hp
        obtain ⟨hle, tail, htail, heq⟩ := ih hq fun l hl => h l (by simp [hl])
        have hsucc : (line ++ ['\n'] ++ q).count '\n' = q.count '\n' + 1 := by
          simp only [List.count_append, hcount, List.count_singleton_self]
          omega
        refine ⟨by rw [hsucc, List.length_cons]; omega, tail, htail, ?_⟩
        rw [hsucc, List.take_succ_cons, ended_cons]
        simpa using heq

/-! ## The scan -/

namespace LineScan

theorem pushAll_unended {cs : List Char} (h : '\n' ∉ cs) (s : LineScan) :
    s.pushAll cs = ⟨s.last, cs.reverse ++ s.unfinished⟩ := by
  induction cs generalizing s with
  | nil => rfl
  | cons c cs ih =>
      simp only [List.mem_cons, not_or] at h
      have hpush : s.push c = ⟨s.last, c :: s.unfinished⟩ := by simp [push, Ne.symm h.1]
      have hrest := ih h.2 (s.push c)
      rw [hpush] at hrest
      simpa [pushAll, hpush] using hrest

theorem pushAll_line {line : List Char} (h : '\n' ∉ line) (last : Option (List Char)) :
    pushAll ⟨last, []⟩ (line ++ ['\n']) = ⟨(trimmedLines [line]).getLast?.or last, []⟩ := by
  rw [pushAll_append, pushAll_unended h]
  show push ⟨last, line.reverse ++ []⟩ '\n' = _
  simp only [push, ↓reduceIte, List.append_nil, trimmedLines_cons, Text.trimEndChars]
  by_cases hblank : line.reverse.dropWhile Text.isBlank = []
  · simp [hblank]
  · simp [hblank, List.reverse_eq_nil_iff]

theorem pushAll_ended {lines : List (List Char)} (h : ∀ line ∈ lines, '\n' ∉ line)
    (last : Option (List Char)) :
    pushAll ⟨last, []⟩ (ended lines) = ⟨(trimmedLines lines).getLast?.or last, []⟩ := by
  induction lines generalizing last with
  | nil => simp [pushAll, trimmedLines]
  | cons line lines ih =>
      have hsplit : ended (line :: lines) = (line ++ ['\n']) ++ ended lines := by simp
      rw [hsplit, pushAll_append, pushAll_line (h line (by simp)),
        ih fun l hl => h l (by simp [hl]), ← getLast?_trimmedLines_cons]

end LineScan

/-! ## The last line -/

theorem lastLine_ended_append {lines : List (List Char)} {tail : List Char}
    (hlines : ∀ line ∈ lines, '\n' ∉ line) (htail : '\n' ∉ tail) :
    lastLine (String.ofList (ended lines ++ tail)) =
      (trimmedLines lines).getLast?.map String.ofList := by
  unfold lastLine
  rw [String.toList_ofList, LineScan.pushAll_append, LineScan.start,
    LineScan.pushAll_ended hlines, LineScan.pushAll_unended htail]
  simp

/-- What follows the last end of a line does not matter. -/
theorem lastLine_append_unended {tail : List Char} (htail : '\n' ∉ tail) (cs : List Char) :
    lastLine (String.ofList (cs ++ tail)) = lastLine (String.ofList cs) := by
  unfold lastLine
  simp only [String.toList_ofList, LineScan.pushAll_append, LineScan.pushAll_unended htail]

/-! ## What a last line is -/

theorem trimEndChars_reverse_dropWhile (cs : List Char) :
    Text.trimEndChars (cs.dropWhile Text.isBlank).reverse = (cs.dropWhile Text.isBlank).reverse := by
  rw [Text.trimEndChars, List.reverse_reverse, List.dropWhile_idempotent]

/-- A scan has not come upon anything but trimmed lines. -/
structure LineScan.Sound (s : LineScan) : Prop where
  unfinished : '\n' ∉ s.unfinished
  last : ∀ line ∈ s.last, line ≠ [] ∧ '\n' ∉ line ∧ Text.trimEndChars line = line

theorem LineScan.Sound.push {s : LineScan} (h : s.Sound) (c : Char) : (s.push c).Sound := by
  unfold LineScan.push
  split
  case isTrue =>
    have hunended : '\n' ∉ s.unfinished.dropWhile Text.isBlank :=
      fun hmem => h.unfinished ((List.dropWhile_suffix _).subset hmem)
    have htrimmed := trimEndChars_reverse_dropWhile s.unfinished
    cases hline : s.unfinished.dropWhile Text.isBlank with
    | nil => exact ⟨by simp, h.last⟩
    | cons first rest =>
        rw [hline] at hunended htrimmed
        refine ⟨by simp, ?_⟩
        rintro line ⟨⟩
        exact ⟨by simp, by rwa [List.mem_reverse], htrimmed⟩
  case isFalse hc => exact ⟨by simp [Ne.symm hc, h.unfinished], h.last⟩

theorem LineScan.Sound.pushAll {s : LineScan} (h : s.Sound) (cs : List Char) :
    (s.pushAll cs).Sound := by
  induction cs generalizing s with
  | nil => exact h
  | cons c cs ih => exact ih (h.push c)

theorem lastLine_trimmed {contents line : String} (h : lastLine contents = some line) :
    line ≠ "" ∧ '\n' ∉ line.toList ∧ Text.trimEnd line = line := by
  have hstart : LineScan.start.Sound := ⟨by simp [LineScan.start], by simp [LineScan.start]⟩
  obtain ⟨cs, hcs, rfl⟩ := Option.map_eq_some_iff.mp h
  obtain ⟨hne, hunended, htrimmed⟩ := (hstart.pushAll contents.toList).last cs hcs
  refine ⟨?_, by rwa [String.toList_ofList], by rw [Text.trimEnd, String.toList_ofList, htrimmed]⟩
  intro hempty
  exact hne (by simpa using congrArg String.toList hempty)

end CycleWatch.Tailer
