import CycleWatch.Wait.Poll

/-!
# The attempts of a wait

A wait is played against a script of answers. As long as its attempts are idle it only moves on through
the script (`poll_idle`); the first attempt that is not idle decides how it ends, and so does the lack
of one. `Outcome` lists these endings with the number of snapshots taken and the sleeps slept, and a run
ends in one way exactly when the script calls for it (`await_accounts_for_attempts`).
-/

namespace CycleWatch

/-- The answers to the requests of a task, each kind numbered from zero. A cancellation may come at any
point: between two requests, or during a sleep, which then fails. -/
structure Script where
  /-- The time, for each reading of the clock. -/
  time : Nat → UInt64
  /-- Whether the task is called off, for each time that it asks. -/
  cancelled : Nat → Bool
  /-- The snapshot published last, for each look at it. -/
  snapshot : Nat → Snapshot
  /-- How each sleep ends. -/
  sleep : Nat → Except Fault Unit

/-- What has been asked for so far. -/
structure Script.Played where
  /-- The number of times that the clock was read. -/
  times : Nat
  /-- The number of questions whether the task is called off. -/
  asked : Nat
  /-- The number of snapshots taken. -/
  taken : Nat
  /-- The sleeps, in their order. -/
  slept : List Duration
  /-- The events, in their order. -/
  events : List Log.Event

namespace Script

/-- Nothing has been asked for. -/
def Played.start : Played := ⟨0, 0, 0, [], []⟩

/-- The script as surroundings. -/
def surroundings (sc : Script) : Surroundings Played where
  clock p := (sc.time p.times, { p with times := p.times + 1 })
  cancelled p := (sc.cancelled p.asked, { p with asked := p.asked + 1 })
  snapshot p := (sc.snapshot p.taken, { p with taken := p.taken + 1 })
  sleep duration p := (sc.sleep p.slept.length, { p with slept := p.slept ++ [duration] })
  emit event p := { p with events := p.events ++ [event] }

/-- The part of the script that is still to be played. -/
def after (sc : Script) (p : Played) : Script where
  time i := sc.time (p.times + i)
  cancelled i := sc.cancelled (p.asked + i)
  snapshot i := sc.snapshot (p.taken + i)
  sleep i := sc.sleep (p.slept.length + i)

@[simp] theorem after_start (sc : Script) : sc.after .start = sc := by
  simp [after, Played.start]

/-- From `p` to `q` so many clock readings, snapshots and sleeps were asked for. -/
structure Played.Advanced (p q : Played) (times taken : Nat) (slept : List Duration) : Prop where
  times : q.times = p.times + times
  taken : q.taken = p.taken + taken
  slept : q.slept = p.slept ++ slept

/-- After one further reading of the clock. -/
def Played.begun (p : Played) : Played :=
  { p with times := p.times + 1 }

@[simp] theorem after_begun_cancelled (sc : Script) (p : Played) :
    (sc.after p.begun).cancelled = (sc.after p).cancelled := rfl

@[simp] theorem after_begun_snapshot (sc : Script) (p : Played) :
    (sc.after p.begun).snapshot = (sc.after p).snapshot := rfl

@[simp] theorem after_begun_sleep (sc : Script) (p : Played) :
    (sc.after p.begun).sleep = (sc.after p).sleep := rfl

/-- After `n` further attempts that take a snapshot and sleep that long. -/
def Played.idled (p : Played) (n : Nat) (delay : Duration) : Played :=
  { p with asked := p.asked + n, taken := p.taken + n, slept := p.slept ++ List.replicate n delay }

@[simp] theorem Played.idled_zero (p : Played) (delay : Duration) : p.idled 0 delay = p := by
  simp [idled]

theorem Played.idled_idled (p : Played) (m n : Nat) (delay : Duration) :
    (p.idled m delay).idled n delay = p.idled (m + n) delay := by
  simp [idled, Nat.add_assoc]

theorem after_idled_sleep (sc : Script) (p : Played) (n : Nat) (delay : Duration) :
    sc.sleep (p.idled n delay).slept.length = (sc.after p).sleep n := by
  simp [Played.idled, after]

end Script

namespace Wait

open Script (Played)

/-- The attempt of number `i`, counted from zero, sees neither a cancellation nor news, and sleeps. -/
structure Idle (request : Request) (sc : Script) (i : Nat) : Prop where
  cancelled : sc.cancelled i = false
  snapshot : State.isNews request.baseline (sc.snapshot i) = false
  sleep : sc.sleep i = .ok ()

/-- How a wait ends that is played against a script: its result, the number of snapshots that it takes,
and the sleeps that it asks for. -/
inductive Outcome (request : Request) (sc : Script) :
    Except Fault Snapshot → (taken : Nat) → (slept : List Duration) → Prop
  /-- The first news, if the attempts reach that far, whatever the script holds after it. -/
  | news {i : Nat} : i < request.policy.maxAttempts.toNat → (∀ j < i, Idle request sc j) →
      sc.cancelled i = false → State.isNews request.baseline (sc.snapshot i) = true →
      Outcome request sc (.ok (sc.snapshot i)) (i + 1) (List.replicate i request.policy.delay)
  /-- All attempts are idle. -/
  | timeout : (∀ j < request.policy.maxAttempts.toNat, Idle request sc j) →
      Outcome request sc
        (.error (timeoutFault request request.policy.maxAttempts
          (Word.elapsed (sc.time 0) (sc.time 1))))
        request.policy.maxAttempts.toNat
        (List.replicate request.policy.maxAttempts.toNat request.policy.delay)
  /-- An attempt, counted from one in the fault, finds the wait called off before it looks. -/
  | calledOff {i : Nat} {attempt : UInt32} : i < request.policy.maxAttempts.toNat →
      attempt.toNat = i + 1 → (∀ j < i, Idle request sc j) → sc.cancelled i = true →
      Outcome request sc (.error (cancelledFault attempt)) i
        (List.replicate i request.policy.delay)
  /-- The sleep after a look without news is called off, be it the last sleep or not. -/
  | calledOffAsleep {i : Nat} {attempt : UInt32} {fault : Fault} :
      i < request.policy.maxAttempts.toNat → attempt.toNat = i + 1 →
      (∀ j < i, Idle request sc j) → sc.cancelled i = false →
      State.isNews request.baseline (sc.snapshot i) = false → sc.sleep i = .error fault →
      fault.isCancelled = true →
      Outcome request sc (.error (cancelledFault attempt)) (i + 1)
        (List.replicate (i + 1) request.policy.delay)
  /-- The sleep after a look without news fails for another reason. -/
  | failedAsleep {i : Nat} {fault : Fault} : i < request.policy.maxAttempts.toNat →
      (∀ j < i, Idle request sc j) → sc.cancelled i = false →
      State.isNews request.baseline (sc.snapshot i) = false → sc.sleep i = .error fault →
      fault.isCancelled = false →
      Outcome request sc (.error fault) (i + 1) (List.replicate (i + 1) request.policy.delay)

variable {request : Request} {sc : Script} {p : Played}

/-! ## Idle attempts -/

theorem eq_ofNat_of_toNat_eq {attempt : UInt32} {n : Nat} (h : attempt.toNat = n) :
    attempt = UInt32.ofNat n := by
  rw [← h, UInt32.ofNat_toNat]

theorem exists_toNat_eq {i : Nat} (hi : i < request.policy.maxAttempts.toNat) :
    ∃ attempt : UInt32, attempt.toNat = i + 1 := by
  have hlt := UInt32.toNat_lt request.policy.maxAttempts
  exact ⟨UInt32.ofNat (i + 1), UInt32.toNat_ofNat_of_lt' (by unfold UInt32.size; omega)⟩

theorem maxAttempts_le_ofNat {i : Nat} (hi : i ≤ request.policy.maxAttempts.toNat) :
    request.policy.maxAttempts ≤ UInt32.ofNat i ↔ request.policy.maxAttempts.toNat ≤ i := by
  have hlt := UInt32.toNat_lt request.policy.maxAttempts
  rw [UInt32.le_iff_toNat_le, UInt32.toNat_ofNat_of_lt' (by unfold UInt32.size; omega)]

/-- What the attempt after `i` idle ones does. -/
theorem attempt_run (request : Request) (sc : Script) (fuel : Nat) (attempt : UInt32) (p : Played)
    (i : Nat) :
    (poll request (fuel + 1) (.polling attempt)).run sc.surroundings
        (p.idled i request.policy.delay) =
      if (sc.after p).cancelled i then
        (.ok (.cancelled attempt),
          { p.idled i request.policy.delay with asked := p.asked + i + 1 })
      else if State.isNews request.baseline ((sc.after p).snapshot i) then
        (.ok (.succeeded ((sc.after p).snapshot i)),
          { p.idled i request.policy.delay with
            asked := p.asked + i + 1
            taken := p.taken + i + 1 })
      else
        match (sc.after p).sleep i with
        | .error fault =>
          (if fault.isCancelled then .ok (.cancelled attempt) else .error fault,
            p.idled (i + 1) request.policy.delay)
        | .ok () =>
          if request.policy.maxAttempts ≤ attempt then
            (.ok (.timedOut attempt), p.idled (i + 1) request.policy.delay)
          else
            (poll request fuel (.polling (attempt + 1))).run sc.surroundings
              (p.idled (i + 1) request.policy.delay) := by
  rw [poll_succ_run, ← Script.after_idled_sleep, ← Played.idled_idled]
  rfl

/-- After `i` idle attempts the wait goes on with the next one. -/
theorem poll_idle {i : Nat} (hi : i < request.policy.maxAttempts.toNat)
    (before : ∀ j < i, Idle request (sc.after p) j) :
    (poll request request.policy.maxAttempts.toNat .start).run sc.surroundings p =
      (poll request (request.policy.maxAttempts.toNat - (i + 1) + 1)
        (.polling (UInt32.ofNat (i + 1)))).run sc.surroundings
          (p.idled i request.policy.delay) := by
  -- Every idle attempt uses up one unit of fuel, so that the fuel never runs out before the attempts.
  induction i with
  | zero => rw [Played.idled_zero, Nat.sub_add_cancel hi]; rfl
  | succ i ih =>
      have hidle := before i (Nat.lt_succ_self i)
      have hmore : ¬ request.policy.maxAttempts ≤ UInt32.ofNat (i + 1) := by
        rw [maxAttempts_le_ofNat (by omega)]
        omega
      have hnext : UInt32.ofNat (i + 1) + 1 = UInt32.ofNat (i + 1 + 1) := by
        rw [UInt32.ofNat_add (i + 1) 1]; rfl
      have hfuel : request.policy.maxAttempts.toNat - (i + 1) =
          request.policy.maxAttempts.toNat - (i + 1 + 1) + 1 := by omega
      rw [ih (by omega) fun j hj => before j (Nat.lt_succ_of_lt hj), attempt_run]
      simp only [hidle.cancelled, hidle.snapshot, hidle.sleep, hmore, hnext, hfuel, ↓reduceIte,
        Bool.false_eq_true]

/-! ## The endings -/

/-- The clock does not matter to the attempts. -/
theorem Idle.begun {i : Nat} (h : Idle request (sc.after p) i) : Idle request (sc.after p.begun) i :=
  ⟨h.cancelled, h.snapshot, h.sleep⟩

/-- What the wait makes of the state in which its polling ends. -/
theorem await_run_ok {state : State} {q : Played}
    (h : (poll request request.policy.maxAttempts.toNat .start).run sc.surroundings p.begun =
      (.ok state, q)) :
    (await request).run sc.surroundings p =
      (conclude request (Word.elapsed (sc.time p.times) (sc.time q.times)) state).run
        sc.surroundings q.begun := by
  have hclock : (sc.surroundings.clock p).2 = p.begun := rfl
  rw [await_run, hclock, h]
  rfl

/-- What the wait makes of a sleep that failed. -/
theorem await_run_error {fault : Fault} {q : Played}
    (h : (poll request request.policy.maxAttempts.toNat .start).run sc.surroundings p.begun =
      (.error fault, q)) :
    (await request).run sc.surroundings p = (.error fault, q) := by
  have hclock : (sc.surroundings.clock p).2 = p.begun := rfl
  rw [await_run, hclock, h]

theorem await_news {i : Nat} (hi : i < request.policy.maxAttempts.toNat)
    (before : ∀ j < i, Idle request (sc.after p) j) (hcancelled : (sc.after p).cancelled i = false)
    (hnews : State.isNews request.baseline ((sc.after p).snapshot i) = true) :
    ∃ q, (await request).run sc.surroundings p = (.ok ((sc.after p).snapshot i), q) ∧
      p.Advanced q 2 (i + 1) (List.replicate i request.policy.delay) := by
  have hpoll := poll_idle hi fun j hj => (before j hj).begun
  rw [attempt_run] at hpoll
  simp only [Script.after_begun_cancelled, Script.after_begun_snapshot, hcancelled, hnews, ↓reduceIte,
    Bool.false_eq_true] at hpoll
  rw [await_run_ok hpoll]
  exact ⟨_, rfl, rfl, rfl, rfl⟩

theorem await_timeout (before : ∀ j < request.policy.maxAttempts.toNat, Idle request (sc.after p) j) :
    ∃ q, (await request).run sc.surroundings p =
        (.error (timeoutFault request request.policy.maxAttempts
          (Word.elapsed ((sc.after p).time 0) ((sc.after p).time 1))), q) ∧
      p.Advanced q 2 request.policy.maxAttempts.toNat
        (List.replicate request.policy.maxAttempts.toNat request.policy.delay) := by
  obtain ⟨i, hi⟩ : ∃ i, request.policy.maxAttempts.toNat = i + 1 :=
    Nat.exists_eq_add_one.mpr request.policy.attempts_pos
  have hlast := (before i (by omega)).begun
  have hattempt := eq_ofNat_of_toNat_eq hi
  have hpoll := poll_idle (by omega) fun j (hj : j < i) => (before j (by omega)).begun
  rw [attempt_run] at hpoll
  simp only [hlast.cancelled, hlast.snapshot, hlast.sleep, ← hattempt, UInt32.le_refl, ↓reduceIte,
    Bool.false_eq_true] at hpoll
  rw [await_run_ok hpoll, hi]
  exact ⟨_, rfl, rfl, rfl, rfl⟩

theorem await_calledOff {i : Nat} {attempt : UInt32} (hi : i < request.policy.maxAttempts.toNat)
    (hattempt : attempt.toNat = i + 1) (before : ∀ j < i, Idle request (sc.after p) j)
    (hcancelled : (sc.after p).cancelled i = true) :
    ∃ q, (await request).run sc.surroundings p = (.error (cancelledFault attempt), q) ∧
      p.Advanced q 2 i (List.replicate i request.policy.delay) := by
  obtain rfl := eq_ofNat_of_toNat_eq hattempt
  have hpoll := poll_idle hi fun j hj => (before j hj).begun
  rw [attempt_run] at hpoll
  simp only [Script.after_begun_cancelled, hcancelled, ↓reduceIte] at hpoll
  rw [await_run_ok hpoll]
  exact ⟨_, rfl, rfl, rfl, rfl⟩

theorem await_calledOffAsleep {i : Nat} {attempt : UInt32} {fault : Fault}
    (hi : i < request.policy.maxAttempts.toNat) (hattempt : attempt.toNat = i + 1)
    (before : ∀ j < i, Idle request (sc.after p) j) (hcancelled : (sc.after p).cancelled i = false)
    (hnews : State.isNews request.baseline ((sc.after p).snapshot i) = false)
    (hsleep : (sc.after p).sleep i = .error fault) (hfault : fault.isCancelled = true) :
    ∃ q, (await request).run sc.surroundings p = (.error (cancelledFault attempt), q) ∧
      p.Advanced q 2 (i + 1) (List.replicate (i + 1) request.policy.delay) := by
  obtain rfl := eq_ofNat_of_toNat_eq hattempt
  have hpoll := poll_idle hi fun j hj => (before j hj).begun
  rw [attempt_run] at hpoll
  simp only [Script.after_begun_cancelled, Script.after_begun_snapshot, Script.after_begun_sleep,
    hcancelled, hnews, hsleep, hfault, ↓reduceIte, Bool.false_eq_true] at hpoll
  rw [await_run_ok hpoll]
  exact ⟨_, rfl, rfl, rfl, rfl⟩

theorem await_failedAsleep {i : Nat} {fault : Fault} (hi : i < request.policy.maxAttempts.toNat)
    (before : ∀ j < i, Idle request (sc.after p) j) (hcancelled : (sc.after p).cancelled i = false)
    (hnews : State.isNews request.baseline ((sc.after p).snapshot i) = false)
    (hsleep : (sc.after p).sleep i = .error fault) (hfault : fault.isCancelled = false) :
    ∃ q, (await request).run sc.surroundings p = (.error fault, q) ∧
      p.Advanced q 1 (i + 1) (List.replicate (i + 1) request.policy.delay) := by
  have hpoll := poll_idle hi fun j hj => (before j hj).begun
  rw [attempt_run] at hpoll
  simp only [Script.after_begun_cancelled, Script.after_begun_snapshot, Script.after_begun_sleep,
    hcancelled, hnews, hsleep, hfault, ↓reduceIte, Bool.false_eq_true] at hpoll
  rw [await_run_error hpoll]
  exact ⟨_, rfl, rfl, rfl, rfl⟩

/-! ## Every script ends a wait in one way -/

/-- The attempts run out, or there is a first one that is not idle. -/
theorem idle_or_first (request : Request) (sc : Script) (n : Nat) :
    (∀ j < n, Idle request sc j) ∨ ∃ i < n, (∀ j < i, Idle request sc j) ∧ ¬ Idle request sc i := by
  induction n with
  | zero => exact Or.inl fun j hj => absurd hj (Nat.not_lt_zero j)
  | succ n ih =>
      rcases ih with hall | ⟨i, hi, before, hfirst⟩
      · by_cases hn : Idle request sc n
        · refine Or.inl fun j hj => ?_
          rcases Nat.lt_succ_iff_lt_or_eq.mp hj with hj | rfl
          · exact hall j hj
          · exact hn
        · exact Or.inr ⟨n, Nat.lt_succ_self n, hall, hn⟩
      · exact Or.inr ⟨i, Nat.lt_succ_of_lt hi, before, hfirst⟩

theorem outcome_exists (request : Request) (sc : Script) :
    ∃ result taken slept, Outcome request sc result taken slept := by
  rcases idle_or_first request sc request.policy.maxAttempts.toNat with hall | ⟨i, hi, before, hfirst⟩
  · exact ⟨_, _, _, .timeout hall⟩
  · obtain ⟨attempt, hattempt⟩ := exists_toNat_eq hi
    cases hcancelled : sc.cancelled i with
    | true => exact ⟨_, _, _, .calledOff hi hattempt before hcancelled⟩
    | false =>
        cases hnews : State.isNews request.baseline (sc.snapshot i) with
        | true => exact ⟨_, _, _, .news hi before hcancelled hnews⟩
        | false =>
            cases hsleep : sc.sleep i with
            | ok _ => exact absurd ⟨hcancelled, hnews, hsleep⟩ hfirst
            | error fault =>
                cases hfault : fault.isCancelled with
                | true =>
                    exact ⟨_, _, _,
                      .calledOffAsleep hi hattempt before hcancelled hnews hsleep hfault⟩
                | false => exact ⟨_, _, _, .failedAsleep hi before hcancelled hnews hsleep hfault⟩

/-- A wait ends as the rest of the script calls for. -/
theorem await_outcome {result : Except Fault Snapshot} {taken : Nat} {slept : List Duration}
    (h : Outcome request (sc.after p) result taken slept) :
    ∃ q times, (await request).run sc.surroundings p = (result, q) ∧
      p.Advanced q times taken slept := by
  cases h with
  | news hi before hcancelled hnews =>
      obtain ⟨q, hrun, hq⟩ := await_news hi before hcancelled hnews
      exact ⟨q, 2, hrun, hq⟩
  | timeout before =>
      obtain ⟨q, hrun, hq⟩ := await_timeout before
      exact ⟨q, 2, hrun, hq⟩
  | calledOff hi hattempt before hcancelled =>
      obtain ⟨q, hrun, hq⟩ := await_calledOff hi hattempt before hcancelled
      exact ⟨q, 2, hrun, hq⟩
  | calledOffAsleep hi hattempt before hcancelled hnews hsleep hfault =>
      obtain ⟨q, hrun, hq⟩ := await_calledOffAsleep hi hattempt before hcancelled hnews hsleep hfault
      exact ⟨q, 2, hrun, hq⟩
  | failedAsleep hi before hcancelled hnews hsleep hfault =>
      obtain ⟨q, hrun, hq⟩ := await_failedAsleep hi before hcancelled hnews hsleep hfault
      exact ⟨q, 1, hrun, hq⟩

/-- The faults of a wait bear the number of attempts. -/
theorem timeoutFault_attempts (request : Request) (attempts : UInt32) (elapsedMs : UInt64) :
    (timeoutFault request attempts elapsedMs).context.get? "attempts" =
      some (Text.natText attempts.toNat) := by
  simp [timeoutFault, Fault.withContext, Dict.get?_insert]

theorem cancelledFault_attempt (attempt : UInt32) :
    (cancelledFault attempt).context.get? "attempt" = some (Text.natText attempt.toNat) := by
  simp [cancelledFault, Fault.withContext, Dict.get?_insert]

/-- A wait ends in one of its outcomes, with the snapshots taken and the sleeps slept of that outcome,
exactly when its script calls for that outcome; a timeout bears the number of all attempts and a
cancellation that of the attempt in progress. -/
theorem await_accounts_for_attempts (request : Request) (sc : Script) :
    (∀ result taken slept,
      (∃ q, (await request).run sc.surroundings .start = (result, q) ∧
        q.taken = taken ∧ q.slept = slept) ↔ Outcome request sc result taken slept) ∧
    (∀ attempts elapsedMs,
      (timeoutFault request attempts elapsedMs).code = .timeout ∧
      (timeoutFault request attempts elapsedMs).context.get? "attempts" =
        some (Text.natText attempts.toNat)) ∧
    ∀ attempt,
      (cancelledFault attempt).code = .cancelled ∧
      (cancelledFault attempt).context.get? "attempt" = some (Text.natText attempt.toNat) := by
  have hplayed : ∀ {result taken slept}, Outcome request sc result taken slept →
      ∃ q, (await request).run sc.surroundings .start = (result, q) ∧
        q.taken = taken ∧ q.slept = slept := by
    intro result taken slept h
    obtain ⟨q, times, hrun, hq⟩ := await_outcome (p := .start) (by simpa using h)
    exact ⟨q, hrun, by simpa [Played.start] using hq.taken, by simpa [Played.start] using hq.slept⟩
  refine ⟨fun result taken slept => ⟨?_, hplayed⟩, fun attempts elapsedMs =>
    ⟨rfl, timeoutFault_attempts request attempts elapsedMs⟩, fun attempt =>
    ⟨rfl, cancelledFault_attempt attempt⟩⟩
  -- Some outcome is called for, and the run ends in that one and no other.
  rintro ⟨q, hrun, rfl, rfl⟩
  obtain ⟨result', taken', slept', h⟩ := outcome_exists request sc
  obtain ⟨q', hrun', rfl, rfl⟩ := hplayed h
  obtain ⟨rfl, rfl⟩ := Prod.mk.inj (hrun.symm.trans hrun')
  exact h

end Wait

end CycleWatch
