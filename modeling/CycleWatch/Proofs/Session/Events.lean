import CycleWatch.Proofs.Cycle.Diagnostics
import CycleWatch.Proofs.Log.Lines
import CycleWatch.Proofs.Tailer.Survival
import CycleWatch.Session
/-!
# The events of a session

A check and a tailer log events of a few kinds (`check_emits`, `turned_step`), which their names tell
apart. A run logs through a child of the logger of the runtime, which it makes with the id of the run and
the path of the sink as fields. No event has a field of either name itself, so that every entry of a run
has both, and every line for one (`marked_loggerCalls`, `lines_loggerCalls`).
-/
namespace CycleWatch

/-- The events of a check: its start, the ends of its waits, and its own end. -/
inductive Cycle.Logs (settings : Cycle.Settings) : Log.Event → Prop
  | started (testStartMs : UInt64) : Logs settings (startEvent settings testStartMs)
  | waited {e : Log.Event} : Wait.Ending e → Logs settings e
  | ended (durationMs : UInt64) (result : Except Fault Cycle.Report) :
    Logs settings (endEvent durationMs result)

/-- The events of a tailer between its start and its end. -/
inductive Tailer.Reports (o : Tailer.Options) : Log.Event → Prop
  | published (version : Version) (line : String) : Reports o (publishedEvent version line)
  | readFailed (fault : Fault) : Reports o (readFailedEvent o fault)

/-- The events of a tailer. -/
inductive Tailer.Logs (o : Tailer.Options) : Log.Event → Prop
  | started : Logs o (startedEvent o)
  | reported {e : Log.Event} : Reports o e → Logs o e
  | stopped (t : Tailer) : t.options = o → Logs o t.stoppedEvent

/-- The event is one of a tailer. -/
def ofTailer (e : Log.Event) : Bool :=
  Text.startsWith e.name "tailer."

/-! ## What a check and a tailer log -/

theorem Cycle.check_emits (settings : Cycle.Settings) :
    (Cycle.check settings).Emits (Cycle.Logs settings) := by
  intro startMs
  refine ⟨.started startMs, ?_⟩
  refine ((runStages_emits settings startMs).mono fun _ => .waited).bind fun result => ?_
  exact fun endMs => ⟨.ended _ _, trivial⟩

theorem ofTailer_of_cycleLogs {settings : Cycle.Settings} {e : Log.Event}
    (h : Cycle.Logs settings e) : ofTailer e = false := by
  have hnames : ∀ name ∈ ["scenario.gcCycles.start", "waiter.update_received", "waiter.timed_out",
      "waiter.cancelled", "scenario.gcCycles.completed", "scenario.gcCycles.aborted",
      "scenario.gcCycles.failed"], Text.startsWith name "tailer." = false := by
    decide
  apply hnames
  cases h with
  | started => exact .head _
  | waited h =>
    cases h <;> simp [Wait.receivedEvent, Wait.timedOutEvent, Wait.cancelledEvent, Log.Event.plain]
  | ended durationMs result =>
    cases result with
    | ok report => simp [Cycle.endEvent, Cycle.completedEvent, Log.Event.plain]
    | error fault =>
      rw [Cycle.endEvent]
      split <;> simp [Cycle.abortedEvent, Cycle.failedEvent, Log.Event.plain]

theorem ofTailer_of_tailerLogs {o : Tailer.Options} {e : Log.Event} (h : Tailer.Logs o e) :
    ofTailer e = true := by
  have hnames : ∀ name ∈ ["tailer.started", "tailer.published", "tailer.read_failed",
      "tailer.stopped"], Text.startsWith name "tailer." = true := by
    decide
  apply hnames
  cases h with
  | started => exact .head _
  | reported h => cases h <;> simp [Tailer.publishedEvent, Tailer.readFailedEvent, Log.Event.plain]
  | stopped t _ => simp [Tailer.stoppedEvent, Log.Event.plain]

theorem filter_ofTailer_of_cycleLogs {settings : Cycle.Settings} {events : List Log.Event}
    (h : ∀ e ∈ events, Cycle.Logs settings e) : events.filter ofTailer = [] := by
  rw [List.filter_eq_nil_iff]
  intro e he
  rw [ofTailer_of_cycleLogs (h e he)]
  exact Bool.false_ne_true

theorem filter_ofTailer_of_tailerLogs {o : Tailer.Options} {events : List Log.Event}
    (h : ∀ e ∈ events, Tailer.Logs o e) : events.filter ofTailer = events :=
  List.filter_eq_self.mpr fun e he => ofTailer_of_tailerLogs (h e he)

namespace Tailer

/-- What one move of a tailer logs: its end if it stops, and reports if it does not. -/
structure Turned (o : Options) (moved : Tailer × List Log.Event) : Prop where
  options : moved.1.options = o
  reports : moved.1.phase ≠ .stopped → ∀ e ∈ moved.2, Reports o e
  ends : moved.1.phase = .stopped → moved.2 = [moved.1.stoppedEvent]

theorem Turned.logs {o : Options} {moved : Tailer × List Log.Event} (h : Turned o moved) :
    ∀ e ∈ moved.2, Logs o e := by
  intro e he
  by_cases hphase : moved.1.phase = .stopped
  · rw [h.ends hphase, List.mem_singleton] at he
    rw [he]
    exact .stopped moved.1 h.options
  · exact .reported (h.reports hphase e he)

variable {t : Tailer}

theorem turned_stop (t : Tailer) : Turned t.options t.stop where
  options := rfl
  reports hphase := absurd rfl hphase
  ends _ := rfl

theorem turned_silent {phase : Phase} (hphase : phase ≠ .stopped) :
    Turned t.options ({ t with phase }, []) where
  options := rfl
  reports _ := by simp
  ends hstopped := absurd hstopped hphase

theorem turned_turn (t : Tailer) (cancelled : Bool) : Turned t.options (t.turn cancelled) := by
  cases cancelled with
  | true => exact turned_stop t
  | false => exact turned_silent (by simp)

theorem turned_absorb (t : Tailer) (nowMs : UInt64) (reading : Reading) :
    Turned t.options (t.absorb nowMs reading) := by
  match reading with
  | .ok none => exact turned_silent (by simp)
  | .error fault =>
    rw [absorb]
    split
    · exact turned_stop t
    · refine ⟨rfl, fun _ e he => ?_, fun hstopped => by cases hstopped⟩
      rw [List.mem_singleton.mp he]
      exact .readFailed fault
  | .ok (some contents) =>
    cases hline : lastLine contents with
    | none =>
      simp only [absorb, hline]
      exact turned_silent (by simp)
    | some line =>
      simp only [absorb, hline, publish]
      split
      · exact turned_silent (by simp)
      · refine ⟨rfl, fun _ e he => ?_, fun hstopped => by cases hstopped⟩
        rw [List.mem_singleton.mp he]
        exact .published _ _

theorem turned_step (hphase : t.phase ≠ .stopped) (signal : Signal) :
    Turned t.options (t.step signal) := by
  have hpassed : Turned t.options (t, []) := turned_silent hphase
  unfold step
  split
  · exact turned_absorb t _ _
  · exact turned_turn t _
  · exact turned_stop t
  · exact hpassed

end Tailer

/-! ## The marks -/

namespace Session

open Config (Admitted)

/-- The names of the fields that mark a session. -/
def marks : List String := ["correlationId", "sinkFile"]

/-- The event has no field with the name of a mark. -/
def Unmarked (e : Log.Event) : Prop :=
  ∀ k ∈ marks, (e.fields.getD Dict.empty).get? k = none

/-- The entry has this text as its field of the name, and so has what is written of it. -/
structure Shows (x : Log.Entry) (name text : String) : Prop where
  field : x.fields.get? name = some (.str text)
  written : ∃ fields : Log.Fields, ("fields", .obj fields.toList) ∈ x.shownMembers ∧
    fields.get? name = some (.str text)

/-- The entry has both marks. -/
structure Carries (a : Admitted) (id : CorrelationId) (x : Log.Entry) : Prop where
  run : Shows x "correlationId" id.text
  sink : Shows x "sinkFile" a.config.tailer.sinkFile

/-- The entries are those of the events, in their order, and have both marks. -/
structure Marked (a : Admitted) (id : CorrelationId) (events : List Log.Event) (xs : List Log.Entry) :
    Prop where
  events : xs.map Log.Entry.event = events
  carries : ∀ x ∈ xs, Carries a id x

variable {a : Admitted} {id : CorrelationId} {e : Log.Event}

theorem unmarked_plain {level : Log.Level} {name message : String} {bindings : List (String × Json)}
    (h : ∀ b ∈ bindings, b.1 ∉ marks) :
    Unmarked (.plain level name message (some (Dict.ofList bindings))) := by
  intro k hk
  refine Dict.get?_ofList_eq_none fun b hb heq => h b hb ?_
  rwa [heq]

theorem unmarked_failedEvent (durationMs : UInt64) (fault : Fault) :
    Unmarked (Cycle.failedEvent durationMs fault) := by
  intro k hk
  have hown : (Dict.ofList [("durationMs", Log.number durationMs), ("errorCode", .str fault.code.text),
      ("error", .str fault.text)]).get? k = none := by
    refine Dict.get?_ofList_eq_none fun b hb heq => ?_
    revert hk
    rw [← heq]
    revert b
    simp [marks]
  have hcycle : k ≠ "cycle" := by
    rintro rfl
    revert hk
    simp [marks]
  simp only [Cycle.failedEvent, Log.Event.plain, Option.getD_some]
  split
  · rw [Dict.get?_insert, if_neg hcycle, hown]
  · exact hown

theorem unmarked_of_ending (h : Wait.Ending e) : Unmarked e := by
  cases h <;> exact unmarked_plain (by simp [marks])

theorem unmarked_of_cycleLogs {settings : Cycle.Settings} (h : Cycle.Logs settings e) :
    Unmarked e := by
  cases h with
  | started testStartMs => exact unmarked_plain (by simp [marks])
  | waited h => exact unmarked_of_ending h
  | ended durationMs result =>
    cases result with
    | ok report => exact unmarked_plain (by simp [marks])
    | error fault =>
      rw [Cycle.endEvent]
      split
      · exact unmarked_plain (by simp [marks])
      · exact unmarked_failedEvent durationMs fault

theorem unmarked_of_tailerLogs {o : Tailer.Options} (h : Tailer.Logs o e) : Unmarked e := by
  cases h with
  | started => exact unmarked_plain (by simp [marks])
  | reported h => cases h <;> exact unmarked_plain (by simp [marks])
  | stopped t _ => exact unmarked_plain (by simp [marks])

theorem get?_baseFields (a : Admitted) (id : CorrelationId) :
    (baseFields a id).get? "correlationId" = some (.str id.text) ∧
      (baseFields a id).get? "sinkFile" = some (.str a.config.tailer.sinkFile) := by
  simp [baseFields, Dict.ofList, Dict.insertAll, Dict.get?_insert]

/-- A field of an entry is in its line, unless it is taken for a secret. -/
theorem shows_of_get? {x : Log.Entry} {name text : String}
    (hfield : x.fields.get? name = some (.str text)) (hopen : Secret.isSecretKey name = false) :
    Shows x name text where
  field := hfield
  written := by
    refine ⟨Log.redactFields x.fields, ?_, ?_⟩
    · rw [Log.Entry.shownMembers, ← Log.lineMembers_eq]
      simp [Log.lineMembers, Dict.isEmpty_of_get? hfield]
    · rw [Log.redactFields, Dict.get?_mapValues, hfield, Option.map_some, hopen]
      rfl

/-- An event of a run that is logged through its logger gets both marks, whatever fields the loggers
above have. -/
theorem carries_of_unmarked (h : Unmarked e) (timeMs : UInt64) (chain : List Log.Fields) :
    Carries a id ⟨timeMs, chain ++ [baseFields a id], e⟩ := by
  have hopen : ∀ name ∈ marks, Secret.isSecretKey name = false := by decide +kernel
  have hfield {name text : String} (hname : name ∈ marks)
      (hbase : (baseFields a id).get? name = some (.str text)) :
      (Log.Entry.mk timeMs (chain ++ [baseFields a id]) e).fields.get? name = some (.str text) := by
    rw [Log.Entry.get?_fields, h name hname, Option.none_or, List.reverse_concat, List.findSome?_cons,
      hbase]
  have hrun : "correlationId" ∈ marks := .head _
  have hsink : "sinkFile" ∈ marks := .tail _ (.head _)
  exact ⟨shows_of_get? (hfield hrun (get?_baseFields a id).1) (hopen _ hrun),
    shows_of_get? (hfield hsink (get?_baseFields a id).2) (hopen _ hsink)⟩

/-! ## The logger of a run -/

variable {chains : List (List Log.Fields)} {chain : List Log.Fields} {i made : Nat}
  {timed : List (UInt64 × Log.Event)}

theorem entries_logThrough (h : chains[i]? = some chain) (timed : List (UInt64 × Log.Event)) :
    Log.entries chains (timed.flatMap fun x => logThrough (some i) x.1 x.2) =
      timed.map fun x => ⟨x.1, chain, x.2⟩ := by
  induction timed with
  | nil => rfl
  | cons x timed ih =>
    rw [List.flatMap_cons, List.map_cons, ← ih]
    simp [logThrough, Log.entries, Log.entryOf_log_of_chain h, Log.grown]

/-- What a run logs has the fields of the run after those of the runtime's logger. -/
theorem entries_loggerCalls (hruntime : chains[i]? = some chain) (hmade : chains.length = made)
    (timed : List (UInt64 × Log.Event)) :
    Log.entries chains (loggerCalls a id made (some i) timed) =
      timed.map fun x => ⟨x.1, chain ++ [baseFields a id], x.2⟩ := by
  have hchild : Log.grown chains (.child i (baseFields a id)) = chains ++ [chain ++ [baseFields a id]] := by
    simp only [Log.grown, hruntime]
  have hown : (chains ++ [chain ++ [baseFields a id]])[made]? = some (chain ++ [baseFields a id]) := by
    rw [← hmade, List.getElem?_concat_length]
  calc Log.entries chains (loggerCalls a id made (some i) timed)
      = Log.entries (Log.grown chains (.child i (baseFields a id)))
          (timed.flatMap fun x => logThrough (some made) x.1 x.2) := rfl
    _ = timed.map fun x => ⟨x.1, chain ++ [baseFields a id], x.2⟩ := by
      rw [hchild, entries_logThrough hown]

theorem marked_loggerCalls (hunmarked : ∀ x ∈ timed, Unmarked x.2) (hruntime : i < chains.length)
    (hmade : chains.length = made) :
    Marked a id (timed.map Prod.snd) (Log.entries chains (loggerCalls a id made (some i) timed)) := by
  rw [entries_loggerCalls (List.getElem?_eq_getElem hruntime) hmade]
  refine ⟨by simp [Function.comp_def], fun x hx => ?_⟩
  obtain ⟨y, hy, rfl⟩ := List.mem_map.mp hx
  exact carries_of_unmarked (hunmarked y hy) y.1 _

theorem loggerCalls_none (timed : List (UInt64 × Log.Event)) :
    loggerCalls a id made none timed = [] := by
  simp [loggerCalls, makeLogger, logThrough, runLogger]

/-- A run takes no lines out of the journal. -/
theorem take_not_mem_loggerCalls (runtime : Option Nat) :
    Log.Journal.Call.take ∉ loggerCalls a id made runtime timed := by
  cases runtime <;> simp [loggerCalls, makeLogger, logThrough, runLogger]

/-- What a run leaves in a journal: the lines for entries that have both marks. -/
theorem lines_loggerCalls (j : Log.Journal) (hunmarked : ∀ x ∈ timed, Unmarked x.2)
    (hruntime : i < j.loggers.length) :
    ∃ xs, Marked a id (timed.map Prod.snd) xs ∧
      (j.run (loggerCalls a id j.loggers.length (some i) timed)).2.lines =
        j.lines ++ Log.Journal.linesFor j.minLevel xs := by
  have hchains : j.loggers = (j.loggers.map fun fields => [fields]).map Log.chainFields := by
    simp [Function.comp_def, Log.chainFields_singleton]
  have hlines := Log.Journal.lines_run hchains (loggerCalls a id j.loggers.length (some i) timed)
  rw [Log.Journal.fst_run_of_no_take (take_not_mem_loggerCalls _), List.nil_append] at hlines
  exact ⟨_, marked_loggerCalls hunmarked (by simpa using hruntime) (by simp), hlines⟩

theorem marked_journalLines (hunmarked : ∀ x ∈ timed, Unmarked x.2) :
    ∃ xs, Marked a id (timed.map Prod.snd) xs ∧
      journalLines a id timed = Log.Journal.linesFor a.config.logging.level xs :=
  lines_loggerCalls (Log.Journal.start a.config.logging.level Dict.empty) hunmarked Nat.zero_lt_one

end Session

end CycleWatch
