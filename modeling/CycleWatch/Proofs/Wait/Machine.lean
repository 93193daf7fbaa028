import CycleWatch.Wait.State
/-!
# The states of a wait under any operations

Looks and cancellations may come in any order, with any arguments. `LeadsTo` says which operations lead
to which state: as long as nobody has called the wait off and no look that counts was answered with news,
the state counts the looks, up to the number of attempts and no further. One operation keeps to it
(`LeadsTo.perform`), and so do all of them from the beginning of a wait (`leadsTo_run`). What holds of
every sequence of operations is read off from there (`run_counts_attempts`).
-/
namespace CycleWatch.Wait

/-- What can be done to the state of a wait. -/
inductive Operation where
  /-- A look at a snapshot, with the baseline given for it. -/
  | observe (baseline : Baseline) (snapshot : Snapshot)
  /-- A cancellation during an attempt. -/
  | cancel (attempt : UInt32)
deriving DecidableEq, Repr

namespace Operation

/-- Whether it is a look that brings news. -/
def isHit : Operation → Bool
  | .observe baseline snapshot => State.isNews baseline snapshot
  | .cancel _ => false

/-- Whether it is a look that brings no news. -/
def isMiss : Operation → Bool
  | .observe baseline snapshot => !State.isNews baseline snapshot
  | .cancel _ => false

/-- Whether it calls the wait off. -/
def isCancel : Operation → Bool
  | .observe _ _ => false
  | .cancel _ => true

end Operation

namespace State

/-- One operation. -/
def perform (policy : Policy) (s : State) : Operation → State
  | .observe baseline snapshot => s.observe baseline policy snapshot
  | .cancel attempt => s.cancel attempt

/-- Operations one after the other, from a state on. -/
def performAll (policy : Policy) (s : State) (ops : List Operation) : State :=
  ops.foldl (perform policy) s

/-- Operations one after the other, from the beginning of a wait. -/
def run (policy : Policy) (ops : List Operation) : State :=
  start.performAll policy ops

end State

/-- Nobody has called the wait off, and none of the looks that count was answered with news. -/
structure Unanswered (policy : Policy) (ops : List Operation) : Prop where
  looks : ∀ op ∈ ops, op.isCancel = false
  misses : ∀ op ∈ ops.take policy.maxAttempts.toNat, op.isMiss = true

/-- The operations lead to the state. -/
inductive LeadsTo (policy : Policy) : List Operation → State → Prop
  | polling {ops : List Operation} {attempt : UInt32} : Unanswered policy ops →
      attempt.toNat = ops.length + 1 → attempt.toNat ≤ policy.maxAttempts.toNat →
      LeadsTo policy ops (.polling attempt)
  | timedOut {ops : List Operation} : Unanswered policy ops →
      policy.maxAttempts.toNat ≤ ops.length → LeadsTo policy ops (.timedOut policy.maxAttempts)
  | succeeded {before after : List Operation} {baseline : Baseline} {snapshot : Snapshot} :
      Unanswered policy before → before.length < policy.maxAttempts.toNat →
      State.isNews baseline snapshot = true →
      LeadsTo policy (before ++ .observe baseline snapshot :: after) (.succeeded snapshot)
  | cancelled {before after : List Operation} {attempt : UInt32} : Unanswered policy before →
      LeadsTo policy (before ++ .cancel attempt :: after) (.cancelled attempt)

variable {policy : Policy} {ops before after : List Operation} {op : Operation} {s : State}

/-! ## One operation -/

namespace State

theorem perform_succeeded (policy : Policy) (snapshot : Snapshot) (op : Operation) :
    perform policy (.succeeded snapshot) op = .succeeded snapshot := by
  cases op <;> rfl

theorem perform_cancelled (policy : Policy) (attempt : UInt32) (op : Operation) :
    perform policy (.cancelled attempt) op = .cancelled attempt := by
  cases op <;> rfl

/-- The attempt after one that is not the last of its kind never wraps around. -/
theorem toNat_next {attempt bound : UInt32} (h : attempt < bound) :
    (attempt + 1).toNat = attempt.toNat + 1 := by
  have hlt := UInt32.lt_iff_toNat_lt.mp h
  have hbound := UInt32.toNat_lt bound
  rw [UInt32.toNat_add, UInt32.toNat_one]
  exact Nat.mod_eq_of_lt (by omega)

/-- A look during any attempt, be it one that can be reached or not. -/
theorem observe_polling (baseline : Baseline) (policy : Policy) (snapshot : Snapshot)
    (attempt : UInt32) :
    (isNews baseline snapshot = true ∧
      observe baseline policy snapshot (.polling attempt) = .succeeded snapshot) ∨
    (isNews baseline snapshot = false ∧ policy.maxAttempts.toNat ≤ attempt.toNat ∧
      observe baseline policy snapshot (.polling attempt) = .timedOut attempt) ∨
    ∃ next, isNews baseline snapshot = false ∧ attempt.toNat < policy.maxAttempts.toNat ∧
      next.toNat = attempt.toNat + 1 ∧
      observe baseline policy snapshot (.polling attempt) = .polling next := by
  cases hnews : isNews baseline snapshot with
  | true => exact .inl ⟨rfl, by simp [observe, hnews]⟩
  | false =>
      by_cases hlast : policy.maxAttempts ≤ attempt
      · exact .inr (.inl ⟨rfl, UInt32.le_iff_toNat_le.mp hlast, by simp [observe, hnews, hlast]⟩)
      · have hlt := UInt32.not_le.mp hlast
        exact .inr (.inr ⟨attempt + 1, rfl, UInt32.lt_iff_toNat_lt.mp hlt, toNat_next hlt,
          by simp [observe, hnews, hlast]⟩)

end State

theorem Unanswered.concat (h : Unanswered policy ops) (op : Operation) (hlook : op.isCancel = false)
    (hmiss : ops.length < policy.maxAttempts.toNat → op.isMiss = true) :
    Unanswered policy (ops ++ [op]) where
  looks := by simpa [or_imp, forall_and] using ⟨h.looks, hlook⟩
  misses op' hmem := by
    rw [List.take_append] at hmem
    rcases List.mem_append.mp hmem with hbefore | hnew
    · exact h.misses op' hbefore
    · have hroom : ops.length < policy.maxAttempts.toNat := by
        refine Nat.lt_of_not_le fun hfull => ?_
        rw [Nat.sub_eq_zero_of_le hfull, List.take_zero] at hnew
        exact List.not_mem_nil hnew
      obtain rfl := List.mem_singleton.mp (List.mem_of_mem_take hnew)
      exact hmiss hroom

/-- What the operations so far lead to, one more operation leads on from. -/
theorem LeadsTo.perform (h : LeadsTo policy ops s) (op : Operation) :
    LeadsTo policy (ops ++ [op]) (s.perform policy op) := by
  cases h with
  | @polling _ attempt hops hcount hle =>
      cases op with
      | cancel attempt => exact .cancelled hops
      | observe baseline snapshot =>
          rcases State.observe_polling baseline policy snapshot attempt with
            ⟨hnews, heq⟩ | ⟨hnews, hlast, heq⟩ | ⟨next, hnews, hlt, hnext, heq⟩
          · rw [State.perform, heq]
            exact .succeeded hops (by omega) hnews
          · have hall := hops.concat (.observe baseline snapshot) rfl
              fun _ => by simp [Operation.isMiss, hnews]
            obtain rfl := UInt32.toNat_inj.mp (Nat.le_antisymm hle hlast)
            rw [State.perform, heq]
            exact .timedOut hall (Nat.le_of_eq (by rw [List.length_append, hcount]; rfl))
          · have hall := hops.concat (.observe baseline snapshot) rfl
              fun _ => by simp [Operation.isMiss, hnews]
            rw [State.perform, heq]
            exact .polling hall (by rw [List.length_append, hnext, hcount]; rfl) (by omega)
  | timedOut hops hfull =>
      cases op with
      | cancel attempt => exact .cancelled hops
      | observe baseline snapshot =>
          have hall := hops.concat (.observe baseline snapshot) rfl
            fun hroom => absurd hfull (Nat.not_le.mpr hroom)
          exact .timedOut hall (by rw [List.length_append]; omega)
  | succeeded hbefore hroom hnews =>
      rw [State.perform_succeeded, List.append_assoc, List.cons_append]
      exact .succeeded hbefore hroom hnews
  | cancelled hbefore =>
      rw [State.perform_cancelled, List.append_assoc, List.cons_append]
      exact .cancelled hbefore

/-! ## All operations -/

theorem LeadsTo.performAll (h : LeadsTo policy before s) (ops : List Operation) :
    LeadsTo policy (before ++ ops) (s.performAll policy ops) := by
  induction ops generalizing before s with
  | nil =>
      rw [List.append_nil]
      exact h
  | cons op rest ih =>
      have hrest := ih (h.perform op)
      rwa [List.append_assoc] at hrest

theorem leadsTo_run (policy : Policy) (ops : List Operation) :
    LeadsTo policy ops (State.run policy ops) := by
  have hstart : LeadsTo policy [] .start :=
    .polling ⟨List.forall_mem_nil _, by simp⟩ rfl policy.attempts_pos
  exact hstart.performAll ops

theorem Unanswered.not_hit {baseline : Baseline} {snapshot : Snapshot}
    (h : Unanswered policy (before ++ .observe baseline snapshot :: after))
    (hroom : before.length < policy.maxAttempts.toNat) : State.isNews baseline snapshot = false := by
  have hmem : Operation.observe baseline snapshot ∈
      (before ++ .observe baseline snapshot :: after).take policy.maxAttempts.toNat := by
    rw [List.take_append, List.mem_append]
    obtain ⟨room, hsucc⟩ := Nat.exists_eq_add_one_of_ne_zero (Nat.sub_ne_zero_of_lt hroom)
    rw [hsucc, List.take_succ_cons]
    exact .inr List.mem_cons_self
  simpa [Operation.isMiss] using h.misses _ hmem

theorem Unanswered.not_cancel {attempt : UInt32} :
    ¬ Unanswered policy (before ++ .cancel attempt :: after) := by
  intro h
  cases h.looks _ List.mem_append_cons_self

/-- As long as there is no answer, the state counts the looks up to the number of attempts. -/
theorem run_of_unanswered (h : Unanswered policy ops) :
    (ops.length < policy.maxAttempts.toNat → ∃ attempt,
      State.run policy ops = .polling attempt ∧ attempt.toNat = ops.length + 1) ∧
    (policy.maxAttempts.toNat ≤ ops.length →
      State.run policy ops = .timedOut policy.maxAttempts) := by
  have hleads := leadsTo_run policy ops
  generalize State.run policy ops = s at hleads ⊢
  cases hleads with
  | polling _ hcount hle => exact ⟨fun _ => ⟨_, rfl, hcount⟩, fun hfull => by omega⟩
  | timedOut _ hfull => exact ⟨fun hroom => by omega, fun _ => rfl⟩
  | succeeded _ hroom hnews => cases hnews.symm.trans (h.not_hit hroom)
  | cancelled _ => exact absurd h Unanswered.not_cancel

/-- Without a cancellation there is an answer only once the wait has succeeded. -/
theorem unanswered_of_not_succeeded (hlooks : ∀ op ∈ ops, op.isCancel = false)
    (hopen : ∀ snapshot, State.run policy ops ≠ .succeeded snapshot) : Unanswered policy ops := by
  have hleads := leadsTo_run policy ops
  generalize State.run policy ops = s at hleads hopen
  cases hleads with
  | polling hops _ _ => exact hops
  | timedOut hops _ => exact hops
  | succeeded _ _ _ => exact absurd rfl (hopen _)
  | cancelled _ => cases hlooks _ List.mem_append_cons_self

/-- What a wait has succeeded with was looked at during an attempt, and was news then. -/
theorem exists_look_of_succeeded {snapshot : Snapshot}
    (h : State.run policy ops = .succeeded snapshot) :
    ∃ before baseline after attempt, ops = before ++ .observe baseline snapshot :: after ∧
      State.run policy before = .polling attempt ∧ snapshot.hasLine = true ∧
      baseline.accepts snapshot.version = true := by
  have hleads := leadsTo_run policy ops
  rw [h] at hleads
  cases hleads with
  | @succeeded before after baseline _ hbefore hroom hnews =>
      obtain ⟨attempt, hrun, -⟩ := (run_of_unanswered hbefore).1 hroom
      obtain ⟨hline, hnew⟩ := Bool.and_eq_true_iff.mp hnews
      exact ⟨before, baseline, after, attempt, rfl, hrun, hline, hnew⟩

theorem polling_bounds {attempt : UInt32} (h : State.run policy ops = .polling attempt) :
    1 ≤ attempt.toNat ∧ attempt.toNat ≤ policy.maxAttempts.toNat := by
  have hleads := leadsTo_run policy ops
  rw [h] at hleads
  cases hleads with
  | polling _ hcount hle => exact ⟨by omega, hle⟩

/-! ## The end of a wait -/

/-- As long as there is room for attempts, all operations were looks without news. -/
theorem Unanswered.isMiss_of_room (h : Unanswered policy ops)
    (hroom : ops.length ≤ policy.maxAttempts.toNat) : ∀ op ∈ ops, op.isMiss = true := by
  intro op hop
  refine h.misses op ?_
  rwa [List.take_of_length_le hroom]

theorem Unanswered.countP_isMiss (h : Unanswered policy ops)
    (hfull : policy.maxAttempts.toNat ≤ ops.length) :
    policy.maxAttempts.toNat ≤ ops.countP Operation.isMiss := by
  calc policy.maxAttempts.toNat
      = (ops.take policy.maxAttempts.toNat).length := by rw [List.length_take_of_le hfull]
    _ = (ops.take policy.maxAttempts.toNat).countP Operation.isMiss :=
        (List.countP_eq_length.mpr h.misses).symm
    _ ≤ ops.countP Operation.isMiss := (List.take_sublist _ _).countP_le

theorem isTerminal_run_iff :
    (State.run policy ops).isTerminal = true ↔
      (∃ op ∈ ops, op.isHit = true ∨ op.isCancel = true) ∨
        policy.maxAttempts.toNat ≤ ops.countP Operation.isMiss := by
  have hleads := leadsTo_run policy ops
  generalize State.run policy ops = s at hleads
  cases hleads with
  | polling hops hcount hle =>
      refine iff_of_false (by simp [State.isTerminal]) ?_
      have hmisses := hops.isMiss_of_room (by omega)
      rintro (⟨op, hop, hhit | hcancel⟩ | hfull)
      · cases op with
        | observe baseline snapshot =>
            have hmiss := hmisses _ hop
            rw [Operation.isHit] at hhit
            simp [Operation.isMiss, hhit] at hmiss
        | cancel attempt => cases hhit
      · rw [hops.looks op hop] at hcancel
        cases hcancel
      · have hall := List.countP_le_length (p := Operation.isMiss) (l := ops)
        omega
  | timedOut hops hfull => exact iff_of_true rfl (.inr (hops.countP_isMiss hfull))
  | succeeded _ _ hnews => exact iff_of_true rfl (.inl ⟨_, List.mem_append_cons_self, .inl hnews⟩)
  | cancelled _ => exact iff_of_true rfl (.inl ⟨_, List.mem_append_cons_self, .inr rfl⟩)

/-- Whatever is done to the state of a wait with a number of attempts: without a success and a
cancellation, the state counts the looks, and after the last attempt there is a timeout; a success is
with a snapshot that was looked at during an attempt and was news to the baseline given then; successes and
cancellations stay as they are, and a timeout can only be turned into a cancellation; the attempt is
always one of those allowed; and the wait has ended exactly if there has been news, a cancellation or as
many looks without news as there are attempts. -/
theorem run_counts_attempts (policy : Policy) :
    (∀ ops, (∀ op ∈ ops, op.isCancel = false) →
      (∀ snapshot, State.run policy ops ≠ .succeeded snapshot) →
      (ops.length < policy.maxAttempts.toNat → ∃ attempt,
        State.run policy ops = .polling attempt ∧ attempt.toNat = ops.length + 1) ∧
      (policy.maxAttempts.toNat ≤ ops.length →
        State.run policy ops = .timedOut policy.maxAttempts)) ∧
    (∀ ops snapshot, State.run policy ops = .succeeded snapshot →
      ∃ before baseline after attempt, ops = before ++ .observe baseline snapshot :: after ∧
        State.run policy before = .polling attempt ∧ snapshot.hasLine = true ∧
        baseline.accepts snapshot.version = true) ∧
    (∀ op snapshot, State.perform policy (.succeeded snapshot) op = .succeeded snapshot) ∧
    (∀ op attempt, State.perform policy (.cancelled attempt) op = .cancelled attempt) ∧
    (∀ attempts baseline snapshot,
      State.perform policy (.timedOut attempts) (.observe baseline snapshot) = .timedOut attempts) ∧
    (∀ attempts attempt,
      State.perform policy (.timedOut attempts) (.cancel attempt) = .cancelled attempt) ∧
    (∀ ops attempt, State.run policy ops = .polling attempt →
      1 ≤ attempt.toNat ∧ attempt.toNat ≤ policy.maxAttempts.toNat) ∧
    ∀ ops, (State.run policy ops).isTerminal = true ↔
      (∃ op ∈ ops, op.isHit = true ∨ op.isCancel = true) ∨
        policy.maxAttempts.toNat ≤ ops.countP Operation.isMiss :=
  ⟨fun _ hlooks hopen => run_of_unanswered (unanswered_of_not_succeeded hlooks hopen),
    fun _ _ => exists_look_of_succeeded,
    fun op snapshot => State.perform_succeeded policy snapshot op,
    fun op attempt => State.perform_cancelled policy attempt op,
    fun _ _ _ => rfl, fun _ _ => rfl, fun _ _ => polling_bounds, fun _ => isTerminal_run_iff⟩

/-- Two attempts that miss, news that comes too late, and the success that it would have been. -/
theorem run_counts_attempts_two :
    let policy := Policy.of 2 (.ofMillis 10)
    let seen := Operation.observe (.version ⟨4⟩) ⟨⟨4⟩, some "a=1", 0⟩
    let blank := Operation.observe .none .empty
    let news := Operation.observe (.version ⟨4⟩) ⟨⟨3⟩, some "b=2", 0⟩
    State.run policy [seen, blank, news] = .timedOut 2 ∧
      (∃ before baseline after attempt,
        [seen, news, .cancel 9] = before ++ .observe baseline ⟨⟨3⟩, some "b=2", 0⟩ :: after ∧
          State.run policy before = .polling attempt) ∧
      (State.run policy [seen, blank, news]).isTerminal = true := by
  intro policy seen blank news
  obtain ⟨hcount, hsuccess, -, -, -, -, -, hterminal⟩ := run_counts_attempts policy
  have hlate : State.run policy [seen, blank, news] = .timedOut 2 := by decide
  have hlooks : ∀ op ∈ [seen, blank, news], op.isCancel = false := by decide
  have hopen : ∀ snapshot, State.run policy [seen, blank, news] ≠ .succeeded snapshot := by
    rw [hlate]
    nofun
  have hmisses : policy.maxAttempts.toNat ≤ [seen, blank, news].countP Operation.isMiss := by decide
  obtain ⟨before, baseline, after, attempt, hops, hrun, -, -⟩ :=
    hsuccess [seen, news, .cancel 9] ⟨⟨3⟩, some "b=2", 0⟩ (by decide)
  exact ⟨(hcount _ hlooks hopen).2 (by decide), ⟨before, baseline, after, attempt, hops, hrun⟩,
    (hterminal _).mpr (.inr hmisses)⟩

end CycleWatch.Wait
