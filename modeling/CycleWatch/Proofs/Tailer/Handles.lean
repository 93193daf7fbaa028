import CycleWatch.Clock
import CycleWatch.Proofs.Tailer.LastLine
import CycleWatch.Proofs.Tailer.Survival
import Mathlib.Data.List.Chain

/-!
# What the handles of a tailer see

Any number of handles look at the published snapshot while the tailer goes on. The snapshots published
are numbered from one without a gap, each has another line than the one before (`consecutive_run`), and
a handle sees the last of them whole. So versions never fall from one look to the next, whoever looks,
and a version stands for one snapshot (`handles_see_publications`).
-/

namespace CycleWatch

namespace Tailer

/-- The snapshots that a run publishes, in their order. -/
def snapshots (t : Tailer) (signals : List Signal) : List Snapshot :=
  (t.publications signals).map (·.snapshot)

/-- The last one of published snapshots, or what is there before the first one. -/
def lastOf (snapshots : List Snapshot) : Snapshot :=
  snapshots.getLast?.getD .empty

/-- Snapshots as a tailer publishes them from its start on. -/
structure Consecutive (snapshots : List Snapshot) : Prop where
  version : ∀ i s, snapshots[i]? = some s →
    s.version.number.toNat = min (i + 1) (UInt64.size - 1)
  changes : snapshots.IsChain fun s s' => s.line ≠ s'.line
  lines : ∀ s ∈ snapshots, ∃ line, s.line = some line ∧
    line ≠ "" ∧ '\n' ∉ line.toList ∧ Text.trimEnd line = line

/-! ## The snapshots of a run -/

section Snapshots

variable {t : Tailer} {signals moment later : List Signal} {published : List Snapshot}

@[simp] theorem snapshots_nil : t.snapshots [] = [] := rfl

@[simp] theorem lastOf_concat (s : Snapshot) : lastOf (published ++ [s]) = s := by
  simp [lastOf]

theorem snapshots_snoc (signal : Signal) :
    t.snapshots (signals ++ [signal]) =
      if (t.run (signals ++ [signal])).1.published = (t.run signals).1.published then
        t.snapshots signals
      else t.snapshots signals ++ [(t.run (signals ++ [signal])).1.published] := by
  simp only [snapshots, publications_append, publications_singleton, run_append, run_cons, run_nil]
  split <;> simp

theorem snapshots_prefix (h : moment <+: later) : t.snapshots moment <+: t.snapshots later := by
  obtain ⟨rest, rfl⟩ := h
  rw [snapshots, snapshots, publications_append, List.map_append]
  exact List.prefix_append _ _

theorem run_published_eq_lastOf (hempty : t.published = .empty) (signals : List Signal) :
    (t.run signals).1.published = lastOf (t.snapshots signals) := by
  induction signals using List.reverseRecOn with
  | nil => exact hempty
  | append_singleton signals signal ih =>
      rw [snapshots_snoc]
      split
      case isTrue hsame => rw [hsame, ih]
      case isFalse => rw [lastOf_concat]

theorem Consecutive.version_lastOf (h : Consecutive published) :
    (lastOf published).version.number.toNat = min published.length (UInt64.size - 1) := by
  rcases List.eq_nil_or_concat' published with rfl | ⟨before, s, rfl⟩
  · rfl
  · rw [lastOf_concat, List.length_append, List.length_singleton]
    exact h.version before.length s (by simp)

theorem Consecutive.concat (h : Consecutive published) {line : String} {nowMs : UInt64}
    (hline : line ≠ "" ∧ '\n' ∉ line.toList ∧ Text.trimEnd line = line)
    (hnew : (lastOf published).line ≠ some line) :
    Consecutive (published ++ [⟨(lastOf published).version.next, some line, nowMs⟩]) where
  version i s hs := by
    rcases Nat.lt_trichotomy i published.length with hlt | rfl | hgt
    · rw [List.getElem?_append_left hlt] at hs
      exact h.version i s hs
    · simp only [List.getElem?_concat_length, Option.some.injEq] at hs
      subst hs
      simp only [Version.next, Word.toNat_succ64, h.version_lastOf]
      omega
    · have hnone : published.length + 1 ≤ i := hgt
      rw [List.getElem?_eq_none (by simpa using hnone)] at hs
      cases hs
  changes := by
    refine List.isChain_append.mpr ⟨h.changes, .singleton _, ?_⟩
    intro s hs s' hs'
    obtain rfl : _ = s' := by simpa using hs'
    have hlast : lastOf published = s := by rw [lastOf, hs]; rfl
    rwa [hlast] at hnew
  lines s hs := by
    rcases List.mem_append.mp hs with hold | hlast
    · exact h.lines s hold
    · rw [List.mem_singleton.mp hlast]
      exact ⟨line, rfl, hline⟩

theorem consecutive_run (hempty : t.published = .empty) (signals : List Signal) :
    Consecutive (t.snapshots signals) := by
  induction signals using List.reverseRecOn with
  | nil => exact ⟨by simp, .nil, by simp⟩
  | append_singleton signals signal ih =>
      rw [snapshots_snoc]
      split
      case isTrue => exact ih
      case isFalse hchanged =>
        rw [run_append, run_cons, run_nil] at hchanged ⊢
        have hlast := run_published_eq_lastOf hempty signals
        rcases step_published (t.run signals).1 signal with
          hsame | ⟨contents, nowMs, line, -, -, hline, hnew, hpublished⟩
        · exact absurd hsame hchanged
        · rw [hlast] at hnew hpublished
          rw [hpublished]
          exact ih.concat (lastLine_trimmed hline) hnew

theorem version_eq_length (hempty : t.published = .empty)
    (hfew : (t.snapshots signals).length < UInt64.size - 1) :
    (t.run signals).1.published.version.number.toNat = (t.snapshots signals).length := by
  rw [run_published_eq_lastOf hempty, (consecutive_run hempty signals).version_lastOf]
  omega

/-- At two moments of one run with the same version there is the same snapshot. -/
theorem published_eq_of_version_eq (hempty : t.published = .empty) (h : moment <+: later)
    (hfew : (t.snapshots later).length < UInt64.size - 1)
    (hversion : (t.run moment).1.published.version = (t.run later).1.published.version) :
    (t.run moment).1.published = (t.run later).1.published := by
  have hprefix := snapshots_prefix (t := t) h
  have hmoment := version_eq_length hempty (Nat.lt_of_le_of_lt hprefix.length_le hfew)
  have hlater := version_eq_length hempty hfew
  rw [hversion, hlater] at hmoment
  rw [run_published_eq_lastOf hempty, run_published_eq_lastOf hempty,
    hprefix.eq_of_length hmoment.symm]

end Snapshots

end Tailer

/-- A tailer with handles that look at what it has published. -/
structure Watched where
  /-- The tailer at its start. -/
  start : Tailer
  /-- Whether it is called off: its owner has stopped it or let it go, or it was called off from above. -/
  calledOff : Bool
  /-- The signals that it has taken in, in their order. -/
  signals : List Tailer.Signal
  /-- What has been seen so far, each with the number of the handle, in order. -/
  seen : List (Nat × Snapshot)

namespace Watched

/-- Something that happens to a tailer with handles. -/
inductive Act where
  | answer (reading : Tailer.Reading) (nowMs : UInt64)
  | wake (slept : Except Fault Unit)
  | callOff
  | look (handle : Nat)

/-- A tailer that starts. -/
def opening (o : Tailer.Options) (calledOff : Bool) : Watched :=
  ⟨(Tailer.start o calledOff).1, calledOff, [], []⟩

/-- The tailer as it is now. -/
def tailer (w : Watched) : Tailer :=
  (w.start.run w.signals).1

/-- The snapshots published so far, in their order. -/
def published (w : Watched) : List Snapshot :=
  w.start.snapshots w.signals

/-- What is there after an act. -/
def act (w : Watched) : Act → Watched
  | .answer reading nowMs => { w with signals := w.signals ++ [.answered reading nowMs] }
  | .wake slept => { w with signals := w.signals ++ [.woken slept w.calledOff] }
  | .callOff => { w with calledOff := true }
  | .look handle => { w with seen := w.seen ++ [(handle, w.tailer.published)] }

/-- What is there after several acts. -/
def run (w : Watched) (acts : List Act) : Watched :=
  acts.foldl act w

/-- The act answers a reading that the tailer waits for, with contents whose last line is another one
than the published one. -/
def Publishes (w : Watched) (a : Act) (line : String) (nowMs : UInt64) : Prop :=
  ∃ contents, a = .answer (.ok (some contents)) nowMs ∧ w.tailer.phase = .reading ∧
    Tailer.lastLine contents = some line ∧ w.tailer.published.line ≠ some line

/-- Nothing more will be published: the tailer has ended, or it is called off and not reading. -/
def Quiet (w : Watched) : Prop :=
  w.tailer.phase = .stopped ∨ w.calledOff = true ∧ w.tailer.phase ≠ .reading

variable {w : Watched} {a : Act} {acts before after : List Act} {line : String} {nowMs : UInt64}

@[simp] theorem run_nil : w.run [] = w := rfl

@[simp] theorem run_cons : w.run (a :: acts) = (w.act a).run acts := rfl

theorem run_append : w.run (before ++ after) = (w.run before).run after :=
  List.foldl_append

@[simp] theorem start_act : (w.act a).start = w.start := by
  cases a <;> rfl

@[simp] theorem start_run : (w.run acts).start = w.start := by
  induction acts generalizing w with
  | nil => rfl
  | cons a acts ih => rw [run_cons, ih, start_act]

theorem signals_act : w.signals <+: (w.act a).signals := by
  cases a with
  | answer reading nowMs => exact List.prefix_append _ _
  | wake slept => exact List.prefix_append _ _
  | callOff => exact List.prefix_refl _
  | look handle => exact List.prefix_refl _

theorem signals_run : w.signals <+: (w.run acts).signals := by
  induction acts generalizing w with
  | nil => exact List.prefix_refl _
  | cons a acts ih => exact signals_act.trans ih

/-- What an act lets a handle see is what is published at that moment. -/
theorem seen_act (w : Watched) (a : Act) :
    ∃ looks, (w.act a).seen = w.seen ++ looks ∧ ∀ look ∈ looks, look.2 = w.tailer.published := by
  cases a with
  | look handle => exact ⟨[(handle, w.tailer.published)], rfl, by simp⟩
  | answer reading nowMs => exact ⟨[], (List.append_nil _).symm, by simp⟩
  | wake slept => exact ⟨[], (List.append_nil _).symm, by simp⟩
  | callOff => exact ⟨[], (List.append_nil _).symm, by simp⟩

theorem calledOff_act (h : w.calledOff = true) : (w.act a).calledOff = true := by
  cases a with
  | callOff => rfl
  | _ => exact h

/-! ## A single act -/

theorem tailer_answer (reading : Tailer.Reading) :
    (w.act (.answer reading nowMs)).tailer = (w.tailer.step (.answered reading nowMs)).1 := by
  simp [act, tailer, Tailer.run_append]

theorem tailer_wake (slept : Except Fault Unit) :
    (w.act (.wake slept)).tailer = (w.tailer.step (.woken slept w.calledOff)).1 := by
  simp [act, tailer, Tailer.run_append]

theorem published_act (w : Watched) (a : Act) :
    (w.act a).published =
      if (w.act a).tailer.published = w.tailer.published then w.published
      else w.published ++ [(w.act a).tailer.published] := by
  cases a with
  | answer reading nowMs => exact Tailer.snapshots_snoc _
  | wake slept => exact Tailer.snapshots_snoc _
  | callOff => exact (if_pos rfl).symm
  | look handle => exact (if_pos rfl).symm

theorem act_of_publishes (h : w.Publishes a line nowMs) :
    (w.act a).tailer.published = ⟨w.tailer.published.version.next, some line, nowMs⟩ := by
  obtain ⟨contents, rfl, hphase, hline, hnew⟩ := h
  simp only [tailer_answer, Tailer.step, hphase, Tailer.absorb_published, hline,
    Tailer.publish_published, hnew, ↓reduceIte]

theorem act_of_not_publishes (h : ∀ line nowMs, ¬ w.Publishes a line nowMs) :
    (w.act a).tailer.published = w.tailer.published := by
  cases a with
  | answer reading nowMs =>
      rw [tailer_answer]
      rcases Tailer.step_published w.tailer (.answered reading nowMs) with
        hsame | ⟨contents, _, line, heq, hphase, hline, hnew, -⟩
      · exact hsame
      · cases heq
        exact absurd ⟨contents, rfl, hphase, hline, hnew⟩ (h line nowMs)
  | wake slept =>
      rw [tailer_wake]
      rcases Tailer.step_published w.tailer (.woken slept w.calledOff) with hsame | ⟨_, _, _, heq, -⟩
      · exact hsame
      · cases heq
  | callOff => rfl
  | look handle => rfl

theorem act_changes_iff :
    (w.act a).tailer.published ≠ w.tailer.published ↔ ∃ line nowMs, w.Publishes a line nowMs := by
  constructor
  · intro hchanged
    by_contra hnone
    exact hchanged (act_of_not_publishes fun line nowMs h => hnone ⟨line, nowMs, h⟩)
  · rintro ⟨line, nowMs, h⟩ hsame
    have hline : w.tailer.published.line = some line := by
      rw [← hsame, act_of_publishes h]
    obtain ⟨_, _, _, _, hnew⟩ := h
    exact hnew hline

/-! ## When nothing more is published -/

theorem Quiet.not_publishes (h : w.Quiet) : ¬ w.Publishes a line nowMs := by
  rintro ⟨_, _, hphase, _⟩
  rcases h with hstopped | ⟨-, hne⟩
  · rw [hphase] at hstopped
    cases hstopped
  · exact hne hphase

theorem stopped_act (h : w.tailer.phase = .stopped) : (w.act a).tailer.phase = .stopped := by
  cases a with
  | answer reading nowMs => rw [tailer_answer, Tailer.step_of_stopped h, h]
  | wake slept => rw [tailer_wake, Tailer.step_of_stopped h, h]
  | callOff => exact h
  | look handle => exact h

theorem Quiet.act (h : w.Quiet) : (w.act a).Quiet := by
  rcases h with hstopped | ⟨hcalled, hne⟩
  · exact .inl (stopped_act hstopped)
  · cases hphase : w.tailer.phase with
    | reading => exact absurd hphase hne
    | stopped => exact .inl (stopped_act hphase)
    | sleeping =>
        cases a with
        | answer reading nowMs =>
            refine .inr ⟨hcalled, ?_⟩
            rw [tailer_answer]
            simp [Tailer.step, hphase]
        | wake slept =>
            left
            rw [tailer_wake, hcalled, Tailer.step_woken_cancelled hphase]
        | callOff => exact .inr ⟨rfl, hne⟩
        | look handle => exact .inr ⟨hcalled, hne⟩

theorem Quiet.run (h : w.Quiet) (acts : List Act) :
    (w.run acts).published = w.published ∧
      ∃ looks, (w.run acts).seen = w.seen ++ looks ∧
        ∀ look ∈ looks, look.2 = w.tailer.published := by
  induction acts generalizing w with
  | nil => exact ⟨rfl, [], by simp, by simp⟩
  | cons a acts ih =>
      have hsame : (w.act a).tailer.published = w.tailer.published :=
        act_of_not_publishes fun _ _ => h.not_publishes
      obtain ⟨first, hfirst, hnow⟩ := seen_act w a
      obtain ⟨hpublished, looks, hseen, hlater⟩ := ih (w := w.act a) h.act
      rw [published_act, if_pos hsame] at hpublished
      rw [hsame] at hlater
      refine ⟨hpublished, first ++ looks, ?_, ?_⟩
      · rw [run_cons, hseen, hfirst, List.append_assoc]
      · intro look hlook
        exact (List.mem_append.mp hlook).elim (hnow look) (hlater look)

/-- Once the tailer is called off, no more than the reading that it waits for is published. -/
theorem length_published_of_calledOff (h : w.calledOff = true) (acts : List Act) :
    (w.run acts).published.length ≤ w.published.length + 1 := by
  induction acts generalizing w with
  | nil => exact Nat.le_succ _
  | cons a acts ih =>
      rw [run_cons]
      -- The first act that publishes answers the pending reading, and the tailer is quiet after it.
      by_cases hpublishes : ∃ line nowMs, w.Publishes a line nowMs
      · have hchanged := act_changes_iff.mpr hpublishes
        obtain ⟨line, nowMs, contents, rfl, hphase, -⟩ := hpublishes
        have hquiet : (w.act (.answer (.ok (some contents)) nowMs)).Quiet := by
          refine .inr ⟨calledOff_act h, ?_⟩
          rw [tailer_answer]
          exact Tailer.step_answered_phase hphase _ nowMs
        rw [(hquiet.run acts).1, published_act, if_neg hchanged, List.length_append,
          List.length_singleton]
      · have hsame : (w.act a).tailer.published = w.tailer.published :=
          act_of_not_publishes fun line nowMs hp => hpublishes ⟨line, nowMs, hp⟩
        have hrest := ih (calledOff_act (a := a) h)
        rwa [published_act, if_pos hsame] at hrest

/-! ## What has been seen -/

/-- What was seen stood at moments of the run, one after the other. -/
structure Orderly (w : Watched) : Prop where
  moments : ∀ look ∈ w.seen, ∃ moment, moment <+: w.signals ∧
    (w.start.run moment).1.published = look.2
  order : w.seen.Pairwise fun first second => ∃ moment later, moment <+: later ∧
    later <+: w.signals ∧ (w.start.run moment).1.published = first.2 ∧
    (w.start.run later).1.published = second.2

theorem Orderly.act (h : w.Orderly) (a : Act) : (w.act a).Orderly := by
  obtain ⟨looks, hseen, hnow⟩ := seen_act w a
  have hsignals := signals_act (w := w) (a := a)
  constructor
  · intro look hlook
    rw [hseen] at hlook
    rw [start_act]
    rcases List.mem_append.mp hlook with hold | hnew
    · obtain ⟨moment, hmoment, hpublished⟩ := h.moments look hold
      exact ⟨moment, hmoment.trans hsignals, hpublished⟩
    · exact ⟨w.signals, hsignals, (hnow look hnew).symm⟩
  · rw [hseen, start_act]
    refine List.pairwise_append.mpr ⟨?_, ?_, ?_⟩
    · refine h.order.imp ?_
      rintro first second ⟨moment, later, hle, hlater, hfirst, hsecond⟩
      exact ⟨moment, later, hle, hlater.trans hsignals, hfirst, hsecond⟩
    · refine List.pairwise_of_forall_mem_list fun first hfirst second hsecond => ?_
      exact ⟨w.signals, w.signals, List.prefix_refl _, hsignals, (hnow first hfirst).symm,
        (hnow second hsecond).symm⟩
    · intro first hfirst second hsecond
      obtain ⟨moment, hmoment, hpublished⟩ := h.moments first hfirst
      exact ⟨moment, w.signals, hmoment, hsignals, hpublished, (hnow second hsecond).symm⟩

theorem Orderly.run (h : w.Orderly) (acts : List Act) : (w.run acts).Orderly := by
  induction acts generalizing w with
  | nil => exact h
  | cons a acts ih => exact ih (h.act a)

theorem orderly_opening (o : Tailer.Options) (calledOff : Bool) :
    (opening o calledOff).Orderly where
  moments := by simp [opening]
  order := .nil

/-! ## Every run -/

theorem length_published_run (w : Watched) (acts : List Act) :
    w.published.length ≤ (w.run acts).published.length := by
  rw [published, published, start_run]
  exact (Tailer.snapshots_prefix signals_run).length_le

theorem few_of_run {bound : Nat} (hfew : (w.run acts).published.length < bound) :
    w.published.length < bound :=
  Nat.lt_of_le_of_lt (length_published_run w acts) hfew

@[simp] theorem start_published_opening (o : Tailer.Options) (calledOff : Bool) :
    (opening o calledOff).start.published = .empty :=
  Tailer.start_published o calledOff

theorem published_eq_lastOf (hempty : w.start.published = .empty) :
    w.tailer.published = Tailer.lastOf w.published :=
  Tailer.run_published_eq_lastOf hempty w.signals

theorem version_eq_length (hempty : w.start.published = .empty)
    (hfew : w.published.length < UInt64.size - 1) :
    w.tailer.published.version.number.toNat = w.published.length :=
  Tailer.version_eq_length hempty hfew

theorem version_of_publishes (hempty : w.start.published = .empty)
    (hfew : (w.act a).published.length < UInt64.size - 1) (h : w.Publishes a line nowMs) :
    (w.act a).tailer.published.version.number.toNat =
      w.tailer.published.version.number.toNat + 1 := by
  have hchanged := act_changes_iff.mpr ⟨line, nowMs, h⟩
  have hlength : (w.act a).published.length = w.published.length + 1 := by
    rw [published_act, if_neg hchanged, List.length_append, List.length_singleton]
  rw [version_eq_length (by rwa [start_act]) hfew, hlength, version_eq_length hempty (by omega)]

/-- Of two looks the later one has no earlier version, and the same one only at the same snapshot. -/
theorem Orderly.versions (h : w.Orderly) (hempty : w.start.published = .empty)
    (hfew : w.published.length < UInt64.size - 1) :
    w.seen.Pairwise fun first second =>
      first.2.version.number ≤ second.2.version.number ∧
        (first.2.version = second.2.version → first.2 = second.2) := by
  refine h.order.imp ?_
  rintro first second ⟨moment, later, hle, hlater, hfirst, hsecond⟩
  have hfew' : (w.start.snapshots later).length < UInt64.size - 1 :=
    Nat.lt_of_le_of_lt (Tailer.snapshots_prefix hlater).length_le hfew
  rw [← hfirst, ← hsecond]
  exact ⟨Tailer.version_le_of_prefix hle, Tailer.published_eq_of_version_eq hempty hle hfew'⟩

/-- Whatever the readings bring, whenever the handles look, and whenever the tailer is called off: at
every moment the published snapshot is the last one of the publications so far and has their number for
its version. An act changes it exactly when it publishes, which adds one. The looks, in their order,
have versions that never fall, and the same version only with the same snapshot. Publications that
follow each other have different lines, which are trimmed and not empty. When nothing more is to come,
every handle goes on seeing the last snapshot; and once the tailer is called off, at most the reading
that it waits for is still to come. -/
theorem handles_see_publications (o : Tailer.Options) (calledOff : Bool) (acts : List Act)
    (hfew : ((opening o calledOff).run acts).published.length < UInt64.size - 1) :
    let w := (opening o calledOff).run acts
    (∀ before after, acts = before ++ after →
      let m := (opening o calledOff).run before
      m.tailer.published = Tailer.lastOf m.published ∧
        m.tailer.published.version.number.toNat = m.published.length ∧
        (m.Quiet → ∃ looks, w.seen = m.seen ++ looks ∧
          ∀ look ∈ looks, look.2 = m.tailer.published) ∧
        (m.calledOff = true → w.published.length ≤ m.published.length + 1)) ∧
    (∀ before a after, acts = before ++ a :: after →
      let m := (opening o calledOff).run before
      ((m.act a).tailer.published ≠ m.tailer.published ↔ ∃ line nowMs, m.Publishes a line nowMs) ∧
        ∀ line nowMs, m.Publishes a line nowMs →
          (m.act a).tailer.published = ⟨m.tailer.published.version.next, some line, nowMs⟩ ∧
            (m.act a).tailer.published.version.number.toNat =
              m.tailer.published.version.number.toNat + 1) ∧
    w.seen.Pairwise (fun first second =>
      first.2.version.number ≤ second.2.version.number ∧
        (first.2.version = second.2.version → first.2 = second.2)) ∧
    w.published.IsChain (fun s s' => s.line ≠ s'.line) ∧
    ∀ s ∈ w.published, ∃ line, s.line = some line ∧
      line ≠ "" ∧ '\n' ∉ line.toList ∧ Text.trimEnd line = line := by
  intro w
  have hempty : ∀ acts, ((opening o calledOff).run acts).start.published = .empty := by simp
  have hconsecutive : Tailer.Consecutive w.published :=
    Tailer.consecutive_run (hempty acts) w.signals
  refine ⟨?_, ?_, ?_, hconsecutive.changes, hconsecutive.lines⟩
  · rintro before after rfl m
    have hw : w = m.run after := run_append
    rw [run_append] at hfew
    refine ⟨published_eq_lastOf (hempty before), version_eq_length (hempty before) (few_of_run hfew),
      fun hquiet => ?_, fun hcalled => ?_⟩
    · rw [hw]
      exact (hquiet.run after).2
    · rw [hw]
      exact length_published_of_calledOff hcalled after
  · rintro before a after rfl m
    rw [run_append, run_cons] at hfew
    refine ⟨act_changes_iff, fun line nowMs hpublishes => ?_⟩
    exact ⟨act_of_publishes hpublishes,
      version_of_publishes (hempty before) (few_of_run hfew) hpublishes⟩
  · exact ((orderly_opening o calledOff).run acts).versions (hempty acts) hfew

/-- Two lines are published before the tailer is called off, and two handles look in between. -/
theorem handles_see_publications_of_two :
    let acts : List Act :=
      [.look 0, .answer (.ok (some "a\n")) 5, .look 1, .wake (.ok ()), .answer (.ok none) 9, .look 0,
        .wake (.ok ()), .answer (.ok (some "a\nb \nc")) 12, .callOff, .look 1,
        .wake (.error Clock.refused), .look 0]
    let w := (opening ⟨"sink", .ofMillis 10⟩ false).run acts
    w.published.length < UInt64.size - 1 ∧
      w.published = [⟨⟨1⟩, some "a", 5⟩, ⟨⟨2⟩, some "b", 12⟩] ∧
      w.seen.map Prod.fst = [0, 1, 0, 1, 0] ∧
      w.seen.Pairwise (fun first second =>
        first.2.version.number ≤ second.2.version.number ∧
          (first.2.version = second.2.version → first.2 = second.2)) := by
  intro acts w
  have hpublished : w.published = [⟨⟨1⟩, some "a", 5⟩, ⟨⟨2⟩, some "b", 12⟩] := by decide +kernel
  have hfew : w.published.length < UInt64.size - 1 := by
    rw [hpublished]
    decide
  exact ⟨hfew, hpublished, by decide +kernel,
    (handles_see_publications ⟨"sink", .ofMillis 10⟩ false acts hfew).2.2.1⟩

end Watched

end CycleWatch
