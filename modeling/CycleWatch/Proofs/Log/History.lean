import CycleWatch.Log.Journal
/-!
# Histories of a family of loggers

A history is what a program does with a family of loggers that share a journal: it makes children,
logs through any of them, and takes lines out, in any order. `Journal.run` gives the lines taken out and
the journal left behind. The least level never changes (`minLevel_run`), and loggers are only added, each
with the fields of its parent and its own (`addChild_of_logger`).
-/
namespace CycleWatch.Log.Journal

variable {j : Journal} {i : Nat} {base fields : Fields} {timeMs : UInt64} {event : Event}

@[simp] theorem run_nil : j.run [] = ([], j) := rfl

theorem run_cons (call : Call) (calls : List Call) :
    j.run (call :: calls) =
      ((j.perform call).1 ++ ((j.perform call).2.run calls).1,
        ((j.perform call).2.run calls).2) := rfl

/-! ## One call -/

theorem addChild_of_logger (h : j.loggers[i]? = some base) (fields : Fields) :
    j.addChild i fields = { j with loggers := j.loggers ++ [base.merge fields] } := by
  simp [addChild, h]

theorem addChild_of_no_logger (h : j.loggers[i]? = none) : j.addChild i fields = j := by
  simp [addChild, h]

theorem log_of_no_logger (h : j.loggers[i]? = none) : j.log timeMs i event = j := by
  simp [log, h]

theorem log_of_below (h : event.level.rank < j.minLevel.rank) : j.log timeMs i event = j := by
  unfold log
  split
  · rw [if_pos h]
  · rfl

theorem log_of_logger (h : j.loggers[i]? = some base)
    (hlevel : ¬event.level.rank < j.minLevel.rank) :
    j.log timeMs i event = { j with lines := j.lines ++ [line timeMs base event] } := by
  simp [log, h, hlevel]

theorem lines_log (h : j.loggers[i]? = some base) (timeMs : UInt64) (event : Event) :
    (j.log timeMs i event).lines =
      j.lines ++ if event.level.rank < j.minLevel.rank then [] else [line timeMs base event] := by
  by_cases hlevel : event.level.rank < j.minLevel.rank
  · rw [log_of_below hlevel, if_pos hlevel, List.append_nil]
  · rw [log_of_logger h hlevel, if_neg hlevel]

@[simp] theorem minLevel_addChild : (j.addChild i fields).minLevel = j.minLevel := by
  unfold addChild
  split <;> rfl

@[simp] theorem minLevel_log : (j.log timeMs i event).minLevel = j.minLevel := by
  unfold log
  split
  · split <;> rfl
  · rfl

@[simp] theorem loggers_log : (j.log timeMs i event).loggers = j.loggers := by
  unfold log
  split
  · split <;> rfl
  · rfl

@[simp] theorem minLevel_perform (call : Call) : (j.perform call).2.minLevel = j.minLevel := by
  cases call <;> simp [perform, take]

/-! ## A history -/

@[simp] theorem minLevel_run (calls : List Call) : (j.run calls).2.minLevel = j.minLevel := by
  induction calls generalizing j with
  | nil => rfl
  | cons call calls ih => rw [run_cons, ih, minLevel_perform]

theorem fst_run_of_no_take {calls : List Call} (h : .take ∉ calls) : (j.run calls).1 = [] := by
  induction calls generalizing j with
  | nil => rfl
  | cons call calls ih =>
    have hnone : (j.perform call).1 = [] := by
      cases call with
      | child | log => rfl
      | take => exact absurd (.head _) h
    rw [run_cons, hnone, ih fun hmem => h (.tail _ hmem), List.append_nil]

/-- The fields of an event logged with base fields, one by one: the event's own counts. -/
theorem get?_mergedFields (base : Fields) (event : Event) (k : String) :
    (mergedFields base event).get? k =
      ((event.fields.getD Dict.empty).get? k).or (base.get? k) :=
  Dict.get?_merge base _ k

end CycleWatch.Log.Journal
