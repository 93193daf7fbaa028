import CycleWatch.Proofs.Wait.Attempts
import CycleWatch.Proofs.Wait.Machine
import CycleWatch.Proofs.Wait.Span
import CycleWatch.Rehearsal.Bench
import Mathlib.Logic.Function.Iterate

/-!
# The budget of a wait

The budget of a policy is its delay times the number of its attempts. A wait that times out has used it
up: whatever its surroundings, they have taken one sleep of that delay for each attempt, and what is
moved by sleeps alone has been moved that often (`TimesOut.moved`). So the sleeps add up to the budget,
and on a clock that nothing else moves the time that passes is the budget too (`timeout_uses_budget`).
-/

namespace CycleWatch.Wait

variable {σ τ : Type} {request : Request} {w : Surroundings σ} {s s' : σ}

/-! ## The specification -/

/-- The attempts of the wait run out. -/
def TimesOut (request : Request) (w : Surroundings σ) (s : σ) : Prop :=
  ∃ attempts s', (poll request request.policy.maxAttempts.toNat .start).run w (w.clock s).2 =
    (.ok (.timedOut attempts), s')

/-- What is seen of the surroundings is moved by sleeps that go well, and by nothing else. -/
structure MovedBySleep (w : Surroundings σ) (view : σ → τ) (move : Duration → τ → τ) : Prop where
  clock : ∀ s, view (w.clock s).2 = view s
  cancelled : ∀ s, view (w.cancelled s).2 = view s
  snapshot : ∀ s, view (w.snapshot s).2 = view s
  sleep : ∀ {duration s s'}, w.sleep duration s = (.ok (), s') → view s' = move duration (view s)
  emit : ∀ event s, view (w.emit event s) = view s

/-- The sleeps are noted in their order. -/
def NotesSleeps (w : Surroundings σ) (slept : σ → List Duration) : Prop :=
  MovedBySleep w slept fun duration sleeps => sleeps ++ [duration]

/-- The clock shows a time that only the sleeps move, each by its whole milliseconds; after the last time
of its width it starts again from zero. -/
structure ManuallyTimed (w : Surroundings σ) (nowMs : σ → UInt64) : Prop where
  shows : ∀ s, (w.clock s).1 = nowMs s
  moves : MovedBySleep w nowMs fun duration now => now + duration.millis

/-! ## What polling can do -/

/-- An attempt sees neither a cancellation nor news; it has not slept yet. -/
inductive LooksInVain (request : Request) (w : Surroundings σ) (s : σ) : σ → Prop
  | intro {snapshot : Snapshot} {s₁ s₂ : σ} : w.cancelled s = (false, s₁) →
      w.snapshot s₁ = (snapshot, s₂) → State.isNews request.baseline snapshot = false →
      LooksInVain request w s s₂

/-- What polling from an attempt on comes to. -/
inductive Polled (request : Request) (w : Surroundings σ) :
    UInt32 → σ → Except Fault State → σ → Prop
  | calledOff {attempt : UInt32} {s s' : σ} : w.cancelled s = (true, s') →
      Polled request w attempt s (.ok (.cancelled attempt)) s'
  | news {attempt : UInt32} {snapshot : Snapshot} {s s₁ s' : σ} : w.cancelled s = (false, s₁) →
      w.snapshot s₁ = (snapshot, s') → State.isNews request.baseline snapshot = true →
      Polled request w attempt s (.ok (.succeeded snapshot)) s'
  | calledOffAsleep {attempt : UInt32} {fault : Fault} {s s₁ s' : σ} :
      LooksInVain request w s s₁ → w.sleep request.policy.delay s₁ = (.error fault, s') →
      fault.isCancelled = true → Polled request w attempt s (.ok (.cancelled attempt)) s'
  | failedAsleep {attempt : UInt32} {fault : Fault} {s s₁ s' : σ} :
      LooksInVain request w s s₁ → w.sleep request.policy.delay s₁ = (.error fault, s') →
      fault.isCancelled = false → Polled request w attempt s (.error fault) s'
  | last {attempt : UInt32} {s s₁ s' : σ} : LooksInVain request w s s₁ →
      w.sleep request.policy.delay s₁ = (.ok (), s') →
      request.policy.maxAttempts.toNat ≤ attempt.toNat →
      Polled request w attempt s (.ok (.timedOut attempt)) s'
  | next {attempt next : UInt32} {result : Except Fault State} {s s₁ s₂ s' : σ} :
      LooksInVain request w s s₁ → w.sleep request.policy.delay s₁ = (.ok (), s₂) →
      attempt.toNat < request.policy.maxAttempts.toNat → next.toNat = attempt.toNat + 1 →
      Polled request w next s₂ result s' → Polled request w attempt s result s'

/-- The fuel is enough for the attempts that are left. -/
theorem polled_of_run {fuel : Nat} {attempt : UInt32} {result : Except Fault State}
    (hfuel : request.policy.maxAttempts.toNat < attempt.toNat + fuel) (hpos : 0 < fuel)
    (h : (poll request fuel (.polling attempt)).run w s = (result, s')) :
    Polled request w attempt s result s' := by
  induction fuel generalizing attempt s with
  | zero => exact absurd hpos (Nat.lt_irrefl 0)
  | succ fuel ih =>
      rcases hcancelled : w.cancelled s with ⟨called, s₁⟩
      rcases hsnapshot : w.snapshot s₁ with ⟨snapshot, s₂⟩
      rcases hsleep : w.sleep request.policy.delay s₂ with ⟨slept, s₃⟩
      simp only [poll_succ_run, hcancelled, hsnapshot, hsleep] at h
      cases called with
      | true =>
          obtain ⟨rfl, rfl⟩ := Prod.mk.inj h
          exact .calledOff hcancelled
      | false =>
          cases hnews : State.isNews request.baseline snapshot with
          | true =>
              simp only [hnews, ↓reduceIte, Bool.false_eq_true, Prod.mk.injEq] at h
              obtain ⟨rfl, rfl⟩ := h
              exact .news hcancelled hsnapshot hnews
          | false =>
              have hvain : LooksInVain request w s s₂ := ⟨hcancelled, hsnapshot, hnews⟩
              simp only [hnews, ↓reduceIte, Bool.false_eq_true] at h
              cases slept with
              | error fault =>
                  obtain ⟨rfl, rfl⟩ := Prod.mk.inj h
                  cases hfault : fault.isCancelled with
                  | true => exact .calledOffAsleep hvain hsleep hfault
                  | false => exact .failedAsleep hvain hsleep hfault
              | ok _ =>
                  by_cases hlast : request.policy.maxAttempts ≤ attempt
                  · simp only [hlast, ↓reduceIte, Prod.mk.injEq] at h
                    obtain ⟨rfl, rfl⟩ := h
                    exact .last hvain hsleep (UInt32.le_iff_toNat_le.mp hlast)
                  · have hlt := UInt32.not_le.mp hlast
                    have hnext := State.toNat_next hlt
                    rw [UInt32.lt_iff_toNat_lt] at hlt
                    rw [if_neg hlast] at h
                    exact .next hvain hsleep hlt hnext (ih (by omega) (by omega) h)

theorem polled_of_start {result : Except Fault State}
    (h : (poll request request.policy.maxAttempts.toNat .start).run w s = (result, s')) :
    Polled request w 1 s result s' := by
  have hpos := request.policy.attempts_pos
  exact polled_of_run (by rw [UInt32.toNat_one]; omega) hpos h

/-- So many attempts, one after the other, look in vain and then sleep well. -/
inductive Idles (request : Request) (w : Surroundings σ) : Nat → σ → σ → Prop
  | none {s : σ} : Idles request w 0 s s
  | more {n : Nat} {s s₁ s₂ s' : σ} : LooksInVain request w s s₁ →
      w.sleep request.policy.delay s₁ = (.ok (), s₂) → Idles request w n s₂ s' →
      Idles request w (n + 1) s s'

/-- When the attempts run out, all that were left have been idle. -/
theorem Polled.idles {attempt attempts : UInt32} {result : Except Fault State}
    (h : Polled request w attempt s result s') (hresult : result = .ok (.timedOut attempts))
    (hle : attempt.toNat ≤ request.policy.maxAttempts.toNat) :
    attempts = request.policy.maxAttempts ∧
      Idles request w (request.policy.maxAttempts.toNat + 1 - attempt.toNat) s s' := by
  induction h with
  | calledOff _ => cases hresult
  | news _ _ _ => cases hresult
  | calledOffAsleep _ _ _ => cases hresult
  | failedAsleep _ _ _ => cases hresult
  | last hvain hsleep hlast =>
      cases hresult
      have heq : attempts.toNat = request.policy.maxAttempts.toNat := Nat.le_antisymm hle hlast
      have hone : request.policy.maxAttempts.toNat + 1 - attempts.toNat = 0 + 1 := by omega
      rw [hone]
      exact ⟨UInt32.toNat_inj.mp heq, .more hvain hsleep .none⟩
  | @next attempt next _ s _ s₂ s' hvain hsleep hlt hnext _ ih =>
      obtain ⟨hattempts, hidles⟩ := ih hresult (by omega)
      have hmore : request.policy.maxAttempts.toNat + 1 - attempt.toNat =
          request.policy.maxAttempts.toNat + 1 - next.toNat + 1 := by omega
      rw [hmore]
      exact ⟨hattempts, .more hvain hsleep hidles⟩

/-- A fault with which polling ends is one with which a sleep failed. -/
theorem Polled.exists_sleep {attempt : UInt32} {result : Except Fault State} {fault : Fault}
    (h : Polled request w attempt s result s') (hresult : result = .error fault) :
    ∃ m m', w.sleep request.policy.delay m = (.error fault, m') := by
  induction h with
  | calledOff _ => cases hresult
  | news _ _ _ => cases hresult
  | calledOffAsleep _ _ _ => cases hresult
  | failedAsleep _ hsleep _ =>
      cases hresult
      exact ⟨_, _, hsleep⟩
  | last _ _ _ => cases hresult
  | next _ _ _ _ _ ih => exact ih hresult

/-! ## What sleeps move -/

section Moved

variable {view : σ → τ} {move : Duration → τ → τ}

theorem MovedBySleep.looksInVain (hw : MovedBySleep w view move) (h : LooksInVain request w s s') :
    view s' = view s := by
  cases h with
  | @intro snapshot s₁ _ hcancelled hsnapshot _ =>
      have hasked := hw.cancelled s
      have htaken := hw.snapshot s₁
      rw [hcancelled] at hasked
      rw [hsnapshot] at htaken
      exact htaken.trans hasked

/-- What sleeps move is moved once in each idle attempt. -/
theorem MovedBySleep.idles (hw : MovedBySleep w view move) {n : Nat}
    (h : Idles request w n s s') : view s' = (move request.policy.delay)^[n] (view s) := by
  induction h with
  | none => rfl
  | more hvain hsleep _ ih =>
      rw [ih, Function.iterate_succ_apply, hw.sleep hsleep, hw.looksInVain hvain]

end Moved

theorem iterate_concat (delay : Duration) (n : Nat) (sleeps : List Duration) :
    (fun sleeps => sleeps ++ [delay])^[n] sleeps = sleeps ++ List.replicate n delay := by
  induction n generalizing sleeps with
  | zero => rw [Function.iterate_zero_apply, List.replicate_zero, List.append_nil]
  | succ n ih =>
      rw [Function.iterate_succ_apply, ih, List.replicate_succ, List.append_assoc,
        List.singleton_append]

/-- A time within its width is moved by the exact amount. -/
theorem toNat_iterate_add (ms : UInt64) (n : Nat) (now : UInt64)
    (hfits : now.toNat + n * ms.toNat < UInt64.size) :
    ((fun now => now + ms)^[n] now).toNat = now.toNat + n * ms.toNat := by
  induction n generalizing now with
  | zero => rw [Function.iterate_zero_apply, Nat.zero_mul, Nat.add_zero]
  | succ n ih =>
      rw [Nat.succ_mul] at hfits
      have hstep : (now + ms).toNat = now.toNat + ms.toNat := by
        rw [UInt64.toNat_add]
        exact Nat.mod_eq_of_lt (by unfold UInt64.size at hfits; omega)
      rw [Function.iterate_succ_apply, ih _ (by rw [hstep]; omega), hstep, Nat.succ_mul]
      omega

/-! ## A wait that times out -/

/-- A wait that times out fails for that, between two looks at the clock, and what sleeps move has been
moved once for each attempt by then. -/
theorem TimesOut.moved (h : TimesOut request w s) :
    ∃ q s', (await request).run w s =
        (.error (timeoutFault request request.policy.maxAttempts
          (Word.elapsed (w.clock s).1 (w.clock q).1)), s') ∧
      ∀ {τ : Type} {view : σ → τ} {move : Duration → τ → τ}, MovedBySleep w view move →
        view q = (move request.policy.delay)^[request.policy.maxAttempts.toNat] (view s) ∧
          view s' = view q := by
  obtain ⟨attempts, q, hpoll⟩ := h
  obtain ⟨rfl, hidles⟩ := (polled_of_start hpoll).idles rfl request.policy.attempts_pos
  refine ⟨q, _, by rw [await_run, hpoll]; rfl, fun hw => ⟨?_, (hw.emit _ _).trans (hw.clock q)⟩⟩
  have hview := hw.idles hidles
  rwa [UInt32.toNat_one, Nat.add_sub_cancel, hw.clock] at hview

/-- The result of a wait is a timeout only if its attempts run out, or if a sleep failed with it. -/
theorem timesOut_of_isTimeout {fault : Fault} (h : (await request).run w s = (.error fault, s'))
    (htimeout : fault.isTimeout = true) :
    TimesOut request w s ∨ ∃ m m', w.sleep request.policy.delay m = (.error fault, m') := by
  rw [await_run] at h
  rcases hpoll : (poll request request.policy.maxAttempts.toNat .start).run w (w.clock s).2
    with ⟨result, q⟩
  rw [hpoll] at h
  cases result with
  | error own =>
      cases (Prod.mk.inj h).1
      exact .inr ((polled_of_start hpoll).exists_sleep rfl)
  | ok state =>
      cases state with
      | timedOut attempts => exact .inl ⟨_, _, hpoll⟩
      | succeeded news => cases (Prod.mk.inj h).1
      | cancelled attempt =>
          cases (Prod.mk.inj h).1
          cases htimeout
      | polling attempt =>
          cases (Prod.mk.inj h).1
          cases htimeout

theorem timeoutFault_elapsedMs (request : Request) (attempts : UInt32) (elapsedMs : UInt64) :
    (timeoutFault request attempts elapsedMs).context.get? "elapsedMs" =
      some (Text.natText elapsedMs.toNat) := by
  simp [timeoutFault, Fault.withContext, Dict.get?_insert]

/-- On a clock that only the sleeps move, the time that passes in idle attempts is that of their
sleeps. -/
theorem ManuallyTimed.elapsed {nowMs : σ → UInt64} (hw : ManuallyTimed w nowMs) {q : σ} {n : Nat}
    {ms : UInt64} (hq : nowMs q = (fun now => now + ms)^[n] (nowMs s))
    (hfits : (nowMs s).toNat + n * ms.toNat < UInt64.size) :
    (nowMs q).toNat = (nowMs s).toNat + n * ms.toNat ∧
      (Word.elapsed (w.clock s).1 (w.clock q).1).toNat = n * ms.toNat := by
  have hnow := toNat_iterate_add ms n (nowMs s) hfits
  rw [← hq] at hnow
  refine ⟨hnow, ?_⟩
  rw [Word.toNat_elapsed, hw.shows, hw.shows, hnow, Nat.add_sub_cancel_left]

/-! ## The bench -/

section Bench

open Rehearsal (Bench)

variable {b b' : Bench} {duration : Duration}

theorem doze_ok (h : b.doze duration = (.ok (), b')) :
    b'.nowMs = b.nowMs + duration.millis ∧ b'.sleeps = duration :: b.sleeps := by
  unfold Bench.doze at h
  split at h
  · cases (Prod.mk.inj h).1
  · obtain ⟨-, rfl⟩ := Prod.mk.inj h
    exact ⟨rfl, rfl⟩

/-- Whatever goes wrong with other sleeps, one that goes well moves the clock and is noted. -/
theorem sleep_ok (h : b.sleep duration = (.ok (), b')) :
    b'.nowMs = b.nowMs + duration.millis ∧ b'.sleeps = duration :: b.sleeps := by
  unfold Bench.sleep at h
  dsimp only at h
  split at h
  case h_1 =>
    have hdozed := doze_ok h
    exact hdozed
  case h_2 =>
    have hdozed := doze_ok h
    exact hdozed
  case h_3 =>
    split at h
    · cases (Prod.mk.inj h).1
    case h_2 hnot => exact absurd h (hnot _)
  case h_4 =>
    split at h
    case h_1 hdoze =>
      have hdozed := doze_ok hdoze
      obtain ⟨-, rfl⟩ := Prod.mk.inj h
      exact hdozed
    case h_2 hnot => exact absurd h (hnot _)
  case h_5 => cases (Prod.mk.inj h).1

theorem notesSleeps_bench : NotesSleeps Bench.surroundings fun b => b.sleeps.reverse where
  clock _ := rfl
  cancelled _ := rfl
  snapshot _ := rfl
  sleep h := by rw [(sleep_ok h).2, List.reverse_cons]
  emit _ _ := rfl

theorem manuallyTimed_bench : ManuallyTimed Bench.surroundings Bench.nowMs where
  shows _ := rfl
  moves :=
    { clock := fun _ => rfl
      cancelled := fun _ => rfl
      snapshot := fun _ => rfl
      sleep := fun h => (sleep_ok h).1
      emit := fun _ _ => rfl }

end Bench

/-! ## Policies -/

theorem toNat_maxAttempts_of (attempts : UInt32) (delay : Duration) :
    (Policy.of attempts delay).maxAttempts.toNat = max attempts.toNat 1 := by
  unfold Policy.of
  split
  case isTrue h => exact (Nat.max_eq_left h).symm
  case isFalse h => exact (Nat.max_eq_right (Nat.le_of_lt (Nat.not_le.mp h))).symm

theorem delay_of (attempts : UInt32) (delay : Duration) :
    (Policy.of attempts delay).delay = delay := by
  unfold Policy.of
  split <;> rfl

theorem nanos_budget (policy : Policy) :
    policy.budget.nanos =
      if policy.maxAttempts.toNat * policy.delay.nanos ≤ Duration.longestNanos then
        policy.maxAttempts.toNat * policy.delay.nanos
      else Duration.longestNanos := by
  show min _ _ = _
  split
  case isTrue h => exact Nat.min_eq_left h
  case isFalse h => exact Nat.min_eq_right (Nat.le_of_lt (Nat.not_le.mp h))

/-- A policy is made of any number of attempts, of which none counts as one, and of any delay; a span of
whole milliseconds has just these. The budget is the delay times the attempts, or the longest span when
that is longer, and words of their width overflow only then. A wait that times out has slept for the
delay once for each attempt, whatever its surroundings, so its sleeps add up to that product; on a clock
that only they move, the clock has moved by it at the end and the fault reports it, as long as the clock
does not start again from zero. Such a clock is that of the bench. A wait whose result is a timeout has
timed out, unless a sleep failed with that very fault. And the number of the next attempt never wraps
around, whatever the attempt. -/
theorem timeout_uses_budget (policy : Policy) :
    ((∀ attempts delay, (Policy.of attempts delay).maxAttempts.toNat = max attempts.toNat 1 ∧
        (Policy.of attempts delay).delay = delay) ∧
      ∀ ms, (Duration.ofMillis ms).nanos = ms.toNat * 1000000 ∧ (Duration.ofMillis ms).millis = ms) ∧
    (policy.budget.nanos =
        (if policy.maxAttempts.toNat * policy.delay.nanos ≤ Duration.longestNanos then
          policy.maxAttempts.toNat * policy.delay.nanos
        else Duration.longestNanos) ∧
      policy.delay.inWords.times? policy.maxAttempts =
        if policy.maxAttempts.toNat * policy.delay.nanos ≤ Duration.longestNanos then
          some policy.budget.inWords
        else none) ∧
    (∀ (σ : Type) (w : Surroundings σ) (baseline : Baseline) (s : σ),
      TimesOut ⟨baseline, policy⟩ w s → ∃ elapsedMs s',
        (await ⟨baseline, policy⟩).run w s =
          (.error (timeoutFault ⟨baseline, policy⟩ policy.maxAttempts elapsedMs), s') ∧
        (∀ slept, NotesSleeps w slept → ∃ sleeps,
          sleeps = List.replicate policy.maxAttempts.toNat policy.delay ∧
          slept s' = slept s ++ sleeps ∧
          Duration.totalNanos sleeps = policy.maxAttempts.toNat * policy.delay.nanos) ∧
        ∀ nowMs, ManuallyTimed w nowMs →
          (nowMs s).toNat + policy.maxAttempts.toNat * policy.delay.millis.toNat < UInt64.size →
          (nowMs s').toNat = (nowMs s).toNat + policy.maxAttempts.toNat * policy.delay.millis.toNat ∧
          (timeoutFault ⟨baseline, policy⟩ policy.maxAttempts elapsedMs).context.get? "elapsedMs" =
            some (Text.natText (policy.maxAttempts.toNat * policy.delay.millis.toNat))) ∧
    (NotesSleeps Rehearsal.Bench.surroundings (fun b => b.sleeps.reverse) ∧
      ManuallyTimed Rehearsal.Bench.surroundings Rehearsal.Bench.nowMs) ∧
    (∀ (σ : Type) (w : Surroundings σ) (baseline : Baseline) (s s' : σ) (fault : Fault),
      (await ⟨baseline, policy⟩).run w s = (.error fault, s') → fault.isTimeout = true →
      TimesOut ⟨baseline, policy⟩ w s ∨ ∃ m m', w.sleep policy.delay m = (.error fault, m')) ∧
    ∀ baseline snapshot attempt next,
      State.observe baseline policy snapshot (.polling attempt) = .polling next →
      next.toNat = attempt.toNat + 1 := by
  refine ⟨⟨fun attempts delay => ⟨toNat_maxAttempts_of attempts delay, delay_of attempts delay⟩,
      fun ms => ⟨rfl, Duration.millis_ofMillis ms⟩⟩,
    ⟨nanos_budget policy, Duration.times?_inWords policy.delay policy.maxAttempts⟩, ?spends,
    ⟨notesSleeps_bench, manuallyTimed_bench⟩,
    fun σ w baseline s s' fault hrun htimeout => timesOut_of_isTimeout hrun htimeout, ?counts⟩
  case spends =>
    intro σ w baseline s htimesOut
    obtain ⟨q, s', hrun, hmoved⟩ := htimesOut.moved
    refine ⟨_, s', hrun, fun slept hslept => ⟨_, rfl, ?_, Duration.totalNanos_replicate _ _⟩,
      fun nowMs hclock hfits => ?_⟩
    · obtain ⟨hq, hs'⟩ := hmoved hslept
      rw [hs', hq, iterate_concat]
    · obtain ⟨hq, hs'⟩ := hmoved hclock.moves
      obtain ⟨hnow, helapsed⟩ := hclock.elapsed hq hfits
      exact ⟨hs' ▸ hnow, by rw [timeoutFault_elapsedMs, helapsed]⟩
  case counts =>
    intro baseline snapshot attempt next hnext
    rcases State.observe_polling baseline policy snapshot attempt with
      ⟨-, heq⟩ | ⟨-, -, heq⟩ | ⟨next', -, -, hcount, heq⟩
    · cases heq.symm.trans hnext
    · cases heq.symm.trans hnext
    · cases heq.symm.trans hnext
      exact hcount

/-- Three attempts on a clock that ends at the last time of its width. -/
theorem timeout_uses_budget_last :
    ∃ (request : Request) (bench bench' : Rehearsal.Bench) (fault : Fault),
      request = ⟨.version ⟨7⟩, .of 3 (.ofMillis 250)⟩ ∧
      bench = ⟨[⟨⟨7⟩, some "a=1", 0⟩], 0, 18446744073709550865, [], 0, false, none, [], []⟩ ∧
      TimesOut request Rehearsal.Bench.surroundings bench ∧
      (await request).run Rehearsal.Bench.surroundings bench = (.error fault, bench') ∧
      bench'.sleeps.reverse = List.replicate 3 (.ofMillis 250) ∧
      bench'.nowMs.toNat = 18446744073709551615 ∧
      fault.context.get? "elapsedMs" = some (Text.natText 750) := by
  obtain ⟨-, -, hspends, ⟨hnotes, htimed⟩, -, -⟩ := timeout_uses_budget (.of 3 (.ofMillis 250))
  have htimesOut : TimesOut ⟨.version ⟨7⟩, .of 3 (.ofMillis 250)⟩ Rehearsal.Bench.surroundings
      ⟨[⟨⟨7⟩, some "a=1", 0⟩], 0, 18446744073709550865, [], 0, false, none, [], []⟩ :=
    ⟨3, _, rfl⟩
  obtain ⟨elapsedMs, bench', hrun, hslept, hclock⟩ := hspends _ _ _ _ htimesOut
  obtain ⟨hnow, helapsed⟩ := hclock _ htimed (by decide)
  obtain ⟨_, rfl, hsleeps, -⟩ := hslept _ hnotes
  exact ⟨_, _, bench', _, rfl, rfl, htimesOut, hrun, hsleeps, hnow, helapsed⟩

end CycleWatch.Wait
