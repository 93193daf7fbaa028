import CycleWatch.Proofs.Wait.Attempts
/-!
# What a wait logs

`Emits` says that a routine logs events of one kind only, whatever is answered to it. What such a
routine logs when it is played comes after what was logged before (`events_of_emits`). A wait logs how it
ended and nothing else (`await_emits`).
-/
namespace CycleWatch

namespace Routine

variable {α β : Type} {kind : Log.Event → Prop}

/-- Only events of the kind are logged, whatever is answered. -/
def Emits (kind : Log.Event → Prop) : Routine α → Prop
  | .done _ => True
  | .readClock next => ∀ t, (next t).Emits kind
  | .askCancelled next => ∀ b, (next b).Emits kind
  | .takeSnapshot next => ∀ s, (next s).Emits kind
  | .sleep _ next => ∀ e, (next e).Emits kind
  | .emit event next => kind event ∧ next.Emits kind

theorem Emits.mono {kind' : Log.Event → Prop} {r : Routine α} (h : r.Emits kind)
    (hkind : ∀ e, kind e → kind' e) : r.Emits kind' := by
  induction r with
  | done a => exact trivial
  | readClock next ih => exact fun t => ih t (h t)
  | askCancelled next ih => exact fun b => ih b (h b)
  | takeSnapshot next ih => exact fun s => ih s (h s)
  | sleep ms next ih => exact fun e => ih e (h e)
  | emit event next ih => exact ⟨hkind event h.1, ih h.2⟩

theorem Emits.bind {r : Routine α} {f : α → Routine β} (h : r.Emits kind)
    (hf : ∀ a, (f a).Emits kind) : (r.bind f).Emits kind := by
  induction r with
  | done a => exact hf a
  | readClock next ih => exact fun t => ih t (h t)
  | askCancelled next ih => exact fun b => ih b (h b)
  | takeSnapshot next ih => exact fun s => ih s (h s)
  | sleep ms next ih => exact fun e => ih e (h e)
  | emit event next ih => exact ⟨h.1, ih h.2⟩

/-- What is logged comes after what was logged before, and is of the kind. -/
theorem events_of_emits {r : Routine α} (h : r.Emits kind) (sc : Script) (p : Script.Played) :
    ∃ logged, (r.run sc.surroundings p).2.events = p.events ++ logged ∧ ∀ e ∈ logged, kind e := by
  induction r generalizing p with
  | done a => exact ⟨[], by rw [List.append_nil]; rfl, by simp⟩
  | readClock next ih => exact ih _ (h _) _
  | askCancelled next ih => exact ih _ (h _) _
  | takeSnapshot next ih => exact ih _ (h _) _
  | sleep ms next ih => exact ih _ (h _) _
  | emit event next ih =>
    obtain ⟨logged, hlogged, hkind⟩ := ih h.2 (sc.surroundings.emit event p)
    refine ⟨event :: logged, ?_, List.forall_mem_cons.mpr ⟨h.1, hkind⟩⟩
    rw [run, hlogged]
    simp [Script.surroundings]

end Routine

namespace Wait

/-- The event is one of those with which a wait ends. -/
def IsEnding (e : Log.Event) : Prop :=
  e.name ∈ ["waiter.update_received", "waiter.timed_out", "waiter.cancelled"]

/-- The events with which waits end, whatever they waited for. -/
inductive Ending : Log.Event → Prop
  | received (request : Request) (news : Snapshot) (elapsedMs : UInt64) :
    Ending (receivedEvent request news elapsedMs)
  | timedOut (request : Request) (attempts : UInt32) (elapsedMs : UInt64) :
    Ending (timedOutEvent request attempts elapsedMs)
  | cancelled (request : Request) (attempt : UInt32) : Ending (cancelledEvent request attempt)

theorem Ending.isEnding {e : Log.Event} (h : Ending e) : IsEnding e := by
  cases h with
  | received request news elapsedMs => exact .head _
  | timedOut request attempts elapsedMs => exact .tail _ (.head _)
  | cancelled request attempt => exact .tail _ (.tail _ (.head _))

variable {request : Request}

theorem poll_emits (kind : Log.Event → Prop) (fuel : Nat) (state : State) :
    (poll request fuel state).Emits kind := by
  induction fuel generalizing state with
  | zero => cases state <;> exact trivial
  | succ fuel ih =>
    cases state with
    | polling attempt =>
      rw [poll]
      intro called
      cases called with
      | true => exact trivial
      | false =>
        intro snapshot
        dsimp only
        split
        · exact trivial
        · intro slept
          dsimp only
          split
          · split <;> exact trivial
          · split
            · exact trivial
            · exact ih _
    | succeeded _ | timedOut _ | cancelled _ => exact trivial

theorem conclude_emits (elapsedMs : UInt64) (state : State) :
    (conclude request elapsedMs state).Emits Ending := by
  cases state with
  | succeeded news => exact ⟨.received _ _ _, trivial⟩
  | timedOut attempts => exact ⟨.timedOut _ _ _, trivial⟩
  | cancelled attempt => exact ⟨.cancelled _ _, trivial⟩
  | polling attempt => exact trivial

theorem await_emits (request : Request) : (await request).Emits Ending := by
  intro startMs
  refine (poll_emits Ending _ _).bind fun outcome => ?_
  cases outcome with
  | error fault => exact trivial
  | ok state => exact fun endMs => conclude_emits _ state

end Wait

end CycleWatch
