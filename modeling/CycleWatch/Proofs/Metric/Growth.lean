import CycleWatch.Metric.Violation
import Mathlib.Data.List.Chain

/-!
# Growth from cycle to cycle

A sample follows another one exactly if it has more of each counter of a cycle, and otherwise the first
counter that has not grown is reported (`follows_iff`, `checkGrowth_eq_error_iff`). To follow is a
strict order, so in a series of reports that each follow the one before, every report follows all that
came before it (`checkGrowth_strictly_orders`).
-/

namespace CycleWatch.Metric

/-- The check lets the later sample come after the earlier one. -/
def Follows (earlier later : Sample) : Prop :=
  checkGrowth earlier later = .ok ()

/-- Both samples have the counter, and the later one has more of it. -/
inductive Grows (earlier later : Sample) (counter : String) : Prop
  | intro {m n : Int64} : earlier.get? counter = some m → later.get? counter = some n →
      m.toInt < n.toInt → Grows earlier later counter

/-- Why the counter has not grown. -/
inductive Stalls (earlier later : Sample) (counter : String) : Violation → Prop
  | missing : earlier.get? counter = none ∨ later.get? counter = none →
      Stalls earlier later counter (.missingCounter counter)
  | notMore {m n : Int64} : earlier.get? counter = some m → later.get? counter = some n →
      n.toInt ≤ m.toInt → Stalls earlier later counter (.notIncreasing counter m n)

/-- Why the first of the counters that has not grown has not. -/
inductive FirstStall (earlier later : Sample) : List String → Violation → Prop
  | head {counter : String} {rest : List String} {v : Violation} : Stalls earlier later counter v →
      FirstStall earlier later (counter :: rest) v
  | tail {counter : String} {rest : List String} {v : Violation} : Grows earlier later counter →
      FirstStall earlier later rest v → FirstStall earlier later (counter :: rest) v

variable {a b c earlier later : Sample} {counter : String} {counters : List String} {v : Violation}

/-! ## One counter -/

theorem checkCounter_of_grows (h : Grows earlier later counter) :
    checkCounter earlier later counter = .ok () := by
  obtain ⟨hearlier, hlater, hlt⟩ := h
  have hnot := (not_congr Int64.le_iff_toInt_le).mpr (Int.not_le.mpr hlt)
  simp [checkCounter, requireCounter, hearlier, hlater, hnot, bind, Except.bind]

theorem checkCounter_of_stalls (h : Stalls earlier later counter v) :
    checkCounter earlier later counter = .error v := by
  cases h with
  | missing hnone =>
      cases hearlier : earlier.get? counter with
      | none => simp [checkCounter, requireCounter, hearlier, bind, Except.bind]
      | some m =>
          have hlater : later.get? counter = none := by simpa [hearlier] using hnone
          simp [checkCounter, requireCounter, hearlier, hlater, bind, Except.bind]
  | notMore hearlier hlater hle =>
      have hle' := Int64.le_iff_toInt_le.mpr hle
      simp [checkCounter, requireCounter, hearlier, hlater, hle', bind, Except.bind]

theorem grows_or_stalls (earlier later : Sample) (counter : String) :
    Grows earlier later counter ∨ ∃ v, Stalls earlier later counter v := by
  cases hearlier : earlier.get? counter with
  | none => exact .inr ⟨_, .missing (.inl hearlier)⟩
  | some m =>
      cases hlater : later.get? counter with
      | none => exact .inr ⟨_, .missing (.inr hlater)⟩
      | some n =>
          rcases Int.lt_or_le m.toInt n.toInt with hlt | hle
          · exact .inl ⟨hearlier, hlater, hlt⟩
          · exact .inr ⟨_, .notMore hearlier hlater hle⟩

theorem Grows.not_stalls (h : Grows earlier later counter) : ¬ Stalls earlier later counter v := by
  intro hstalls
  cases (checkCounter_of_grows h).symm.trans (checkCounter_of_stalls hstalls)

theorem Stalls.eq {w : Violation} (h : Stalls earlier later counter v)
    (hw : Stalls earlier later counter w) : v = w :=
  Except.error.inj ((checkCounter_of_stalls h).symm.trans (checkCounter_of_stalls hw))

/-! ## All counters -/

theorem checkCounters_of_grows (h : Grows earlier later counter) :
    (counter :: counters).forM (checkCounter earlier later) =
      counters.forM (checkCounter earlier later) := by
  show (checkCounter earlier later counter >>= fun _ => counters.forM (checkCounter earlier later)) = _
  rw [checkCounter_of_grows h]
  rfl

theorem checkCounters_of_stalls (h : Stalls earlier later counter v) :
    (counter :: counters).forM (checkCounter earlier later) = .error v := by
  show (checkCounter earlier later counter >>= fun _ => counters.forM (checkCounter earlier later)) = _
  rw [checkCounter_of_stalls h]
  rfl

theorem checkCounters_eq_ok_iff :
    counters.forM (checkCounter earlier later) = .ok () ↔
      ∀ counter ∈ counters, Grows earlier later counter := by
  induction counters with
  | nil => exact iff_of_true rfl (List.forall_mem_nil _)
  | cons counter rest ih =>
      rw [List.forall_mem_cons]
      rcases grows_or_stalls earlier later counter with hgrows | ⟨v, hv⟩
      · rw [checkCounters_of_grows hgrows, ih, and_iff_right hgrows]
      · rw [checkCounters_of_stalls hv]
        exact iff_of_false (by simp) fun hall => hall.1.not_stalls hv

theorem checkCounters_eq_error_iff :
    counters.forM (checkCounter earlier later) = .error v ↔ FirstStall earlier later counters v := by
  induction counters with
  | nil => exact iff_of_false nofun nofun
  | cons counter rest ih =>
      rcases grows_or_stalls earlier later counter with hgrows | ⟨w, hw⟩
      · rw [checkCounters_of_grows hgrows, ih]
        refine ⟨.tail hgrows, fun h => ?_⟩
        cases h with
        | head hstalls => exact absurd hstalls hgrows.not_stalls
        | tail _ hrest => exact hrest
      · rw [checkCounters_of_stalls hw, Except.error.injEq]
        refine ⟨fun h => .head (h ▸ hw), fun h => ?_⟩
        cases h with
        | head hstalls => exact hw.eq hstalls
        | tail hgrows _ => exact absurd hw hgrows.not_stalls

theorem follows_iff : Follows earlier later ↔ ∀ counter ∈ cycleCounters, Grows earlier later counter :=
  checkCounters_eq_ok_iff

theorem checkGrowth_eq_error_iff :
    checkGrowth earlier later = .error v ↔ FirstStall earlier later cycleCounters v :=
  checkCounters_eq_error_iff

/-! ## The order -/

theorem not_grows_self (sample : Sample) (counter : String) : ¬ Grows sample sample counter := by
  rintro ⟨hm, hn, hlt⟩
  rw [hm, Option.some.injEq] at hn
  exact Int.lt_irrefl _ (hn ▸ hlt)

theorem Grows.trans (h : Grows a b counter) (h' : Grows b c counter) : Grows a c counter := by
  obtain ⟨ha, hb, hlt⟩ := h
  obtain ⟨hb', hc, hlt'⟩ := h'
  rw [hb, Option.some.injEq] at hb'
  subst hb'
  exact ⟨ha, hc, Int.lt_trans hlt hlt'⟩

theorem not_follows_self (sample : Sample) : ¬ Follows sample sample := by
  intro h
  have hgrows := follows_iff.mp h started List.mem_cons_self
  exact not_grows_self sample started hgrows

theorem Follows.trans (h : Follows a b) (h' : Follows b c) : Follows a c := by
  refine follows_iff.mpr fun counter hcounter => ?_
  have hab := follows_iff.mp h counter hcounter
  have hbc := follows_iff.mp h' counter hcounter
  exact hab.trans hbc

instance : IsTrans Sample Follows :=
  ⟨fun _ _ _ => Follows.trans⟩

/-- One sample follows another exactly if both have the three counters of a cycle and each of them has
grown; otherwise the first counter that has not is reported, as missing or with its two values. No sample
follows itself, no two follow each other, and what follows a follower follows. So in a series of reports
that each follow the one before, every report follows all the earlier ones. -/
theorem checkGrowth_strictly_orders :
    (∀ earlier later, checkGrowth earlier later = .ok () ↔
      ∀ counter ∈ [started, finished, runCycleCount], Grows earlier later counter) ∧
    (∀ earlier later v, checkGrowth earlier later = .error v ↔
      FirstStall earlier later [started, finished, runCycleCount] v) ∧
    (∀ a, ¬ Follows a a) ∧
    (∀ a b, Follows a b → ¬ Follows b a) ∧
    (∀ a b c, Follows a b → Follows b c → Follows a c) ∧
    ∀ reports : List Sample, reports.IsChain Follows → reports.Pairwise Follows := by
  refine ⟨fun _ _ => follows_iff, fun _ _ _ => checkGrowth_eq_error_iff, not_follows_self, ?_,
    fun _ _ _ => Follows.trans, fun _ => List.isChain_iff_pairwise.mp⟩
  intro a b hab hba
  exact not_follows_self a (hab.trans hba)

theorem checkGrowth_strictly_orders_three :
    ∃ first second third : Sample,
      [first, second, third].IsChain Follows ∧ [first, second, third].Pairwise Follows ∧
        Follows first third ∧ ¬ Follows third first := by
  obtain ⟨-, -, -, hasymm, htrans, hchain⟩ := checkGrowth_strictly_orders
  let report (started' finished' cycles : Int64) : Sample :=
    .ofList [(started, started'), (finished, finished'), (runCycleCount, cycles)]
  have hfirst : Follows (report (-5) 12 1) (report 20 25 2) := rfl
  have hsecond : Follows (report 20 25 2) (report 21 26 9) := rfl
  have hseries : [report (-5) 12 1, report 20 25 2, report 21 26 9].IsChain Follows :=
    .cons_cons hfirst (.cons_cons hsecond (.singleton _))
  have hends := htrans _ _ _ hfirst hsecond
  exact ⟨_, _, _, hseries, hchain _ hseries, hends, hasymm _ _ hends⟩

end CycleWatch.Metric
