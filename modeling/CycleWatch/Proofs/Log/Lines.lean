import CycleWatch.Proofs.Json.Compact
import CycleWatch.Proofs.Log.Secrecy
import Mathlib.Data.List.Induction
/-!
# One line for each event

The entries of a history are the events logged in it, each with the fields given to its logger and to
that logger's ancestors. The lines of the journal are those of the entries that are not below its least
level, in order, whether they were taken out or are still there (`Journal.lines_run`), and a record
keeps every entry with the same fields (`Record.events_replay`). A new line stands at the end of a line
and nowhere else in it (`Entry.line_eq`).
-/
namespace CycleWatch.Log

/-- An event that was logged. -/
structure Entry where
  /-- When it was logged. -/
  timeMs : UInt64
  /-- The fields given to the loggers from the root down to the one it was logged through. -/
  chain : List Fields
  /-- What was logged. -/
  event : Event

/-- The fields along a chain; of two for one name the later one counts. -/
def chainFields (chain : List Fields) : Fields :=
  chain.foldl Dict.merge Dict.empty

namespace Entry

/-- The fields along the chain, and those of the event on top of them. -/
def fields (x : Entry) : Fields :=
  chainFields (x.chain ++ [x.event.fields.getD Dict.empty])

/-- What an entry says, its secrets concealed, and its time. -/
def shownMembers (x : Entry) : List (String × Json) :=
  redactMembers (plainMembers x.event x.fields) ++ [("timestampMs", number x.timeMs)]

/-- The line for an entry. -/
def line (x : Entry) : String :=
  String.ofList (Json.compact (.obj x.shownMembers) ++ ['\n'])

/-- The event is that of the entry, with the fields of the entry; no fields are the same as none at
all. -/
structure RecordedAs (x : Entry) (event : Event) : Prop where
  name : event.name = x.event.name
  level : event.level = x.event.level
  message : event.message = x.event.message
  fields : event.fields.getD Dict.empty = x.fields
  error : event.error = x.event.error

end Entry

/-! ## The entries of a history -/

/-- The chains of the loggers after a call. -/
def grown (chains : List (List Fields)) : Journal.Call → List (List Fields)
  | .child i fields =>
    match chains[i]? with
    | some chain => chains ++ [chain ++ [fields]]
    | none => chains
  | .log .. | .take => chains

/-- The entry that a call makes, if it logs an event. -/
def entryOf (chains : List (List Fields)) : Journal.Call → Option Entry
  | .log timeMs i event => chains[i]?.map fun chain => ⟨timeMs, chain, event⟩
  | .child .. | .take => none

/-- The entries that the calls make, in order, by loggers with these chains. -/
def entries (chains : List (List Fields)) : List Journal.Call → List Entry
  | [] => []
  | call :: calls => (entryOf chains call).toList ++ entries (grown chains call) calls

/-- The same call on a record. Its root has no fields, so that the root of the journal is its first
child. -/
def Record.replay (r : Record) : Journal.Call → Record
  | .child i fields => r.addChild (i + 1) fields
  | .log _ i event => r.log (i + 1) event
  | .take => r

variable {chains : List (List Fields)} {chain : List Fields} {fields : Fields} {x : Entry}

/-! ## Fields along a chain -/

theorem empty_merge (fields : Fields) : Dict.empty.merge fields = fields := by
  apply Dict.ext_get?
  intro k
  rw [Dict.get?_merge, Dict.get?_empty, Option.or_none]

theorem chainFields_concat (chain : List Fields) (fields : Fields) :
    chainFields (chain ++ [fields]) = (chainFields chain).merge fields := by
  rw [chainFields, List.foldl_concat]
  rfl

theorem chainFields_singleton (fields : Fields) : chainFields [fields] = fields :=
  empty_merge fields

/-- The last of a chain that has a field of the name decides. -/
theorem get?_chainFields (chain : List Fields) (k : String) :
    (chainFields chain).get? k = chain.reverse.findSome? (·.get? k) := by
  induction chain using List.reverseRecOn with
  | nil => rfl
  | append_singleton chain fields ih =>
    rw [chainFields_concat, Dict.get?_merge, ih, List.reverse_concat, List.findSome?_cons]
    cases fields.get? k <;> rfl

theorem Entry.fields_eq (x : Entry) : x.fields = mergedFields (chainFields x.chain) x.event :=
  chainFields_concat x.chain _

theorem Entry.get?_fields (x : Entry) (k : String) :
    x.fields.get? k =
      ((x.event.fields.getD Dict.empty).get? k).or (x.chain.reverse.findSome? (·.get? k)) := by
  rw [Entry.fields_eq, Journal.get?_mergedFields, get?_chainFields]

/-! ## The line for an entry -/

theorem line_eq_entryLine (timeMs : UInt64) (chain : List Fields) (event : Event) :
    Log.line timeMs (chainFields chain) event = Entry.line ⟨timeMs, chain, event⟩ := by
  rw [Log.line, lineMembers_eq, ← Entry.fields_eq ⟨timeMs, chain, event⟩]
  rfl

/-- A new line stands at the end of a line and nowhere else. -/
theorem Entry.line_eq (x : Entry) :
    ∃ text, x.line = String.ofList (text ++ ['\n']) ∧ '\n' ∉ text ∧
      Json.Spells (Json.obj x.shownMembers).toTree text :=
  ⟨Json.compact (.obj x.shownMembers), rfl, Json.newline_not_mem_compact _, Json.spells_compact _⟩

theorem Entry.recordedAs_complete (x : Entry) :
    x.RecordedAs (Record.complete (chainFields x.chain) x.event) := by
  rw [Record.complete]
  split
  case isTrue hempty =>
    have hnone : chainFields x.chain = Dict.empty := by
      apply Dict.ext_toList
      exact List.isEmpty_iff.mp hempty
    refine ⟨rfl, rfl, rfl, ?_, rfl⟩
    rw [Entry.fields_eq, hnone, mergedFields, empty_merge]
  case isFalse => exact ⟨rfl, rfl, rfl, x.fields_eq.symm, rfl⟩

/-! ## The loggers and their chains -/

theorem map_grown_child {i : Nat} (h : chains[i]? = some chain) :
    (grown chains (.child i fields)).map chainFields =
      chains.map chainFields ++ [(chainFields chain).merge fields] := by
  simp only [grown, h, List.map_append, List.map_cons, List.map_nil, chainFields_concat]

theorem grown_child_of_no_chain {i : Nat} (h : chains[i]? = none) :
    grown chains (.child i fields) = chains := by
  simp only [grown, h]

theorem entryOf_log_of_chain {timeMs : UInt64} {i : Nat} {event : Event}
    (h : chains[i]? = some chain) :
    entryOf chains (.log timeMs i event) = some ⟨timeMs, chain, event⟩ := by
  rw [entryOf, h]
  rfl

theorem entryOf_log_of_no_chain {timeMs : UInt64} {i : Nat} {event : Event}
    (h : chains[i]? = none) : entryOf chains (.log timeMs i event) = none := by
  rw [entryOf, h]
  rfl

/-! ## The journal -/

namespace Journal

/-- The lines for those of the entries that are not below a level. -/
def linesFor (minLevel : Level) (xs : List Entry) : List String :=
  (xs.filter fun x => minLevel.rank ≤ x.event.level.rank).map Entry.line

theorem linesFor_append (minLevel : Level) (xs ys : List Entry) :
    linesFor minLevel (xs ++ ys) = linesFor minLevel xs ++ linesFor minLevel ys := by
  rw [linesFor, List.filter_append, List.map_append]
  rfl

theorem linesFor_singleton (minLevel : Level) (x : Entry) :
    linesFor minLevel [x] = if x.event.level.rank < minLevel.rank then [] else [x.line] := by
  by_cases hlevel : x.event.level.rank < minLevel.rank
  · simp [linesFor, hlevel]
  · simp [linesFor, Nat.not_lt.mp hlevel, hlevel]

variable {j : Journal}

/-- One call: the loggers go on having the fields along their chains, and the line for an entry is
added to those that were there. -/
theorem perform_spec (hloggers : j.loggers = chains.map chainFields) (call : Call) :
    (j.perform call).2.loggers = (grown chains call).map chainFields ∧
      (j.perform call).1 ++ (j.perform call).2.lines =
        j.lines ++ linesFor j.minLevel (entryOf chains call).toList := by
  have hlogger (i : Nat) : j.loggers[i]? = chains[i]?.map chainFields := by
    rw [hloggers, List.getElem?_map]
  cases call with
  | child i fields =>
    cases hi : chains[i]? with
    | none =>
      have hbase : j.loggers[i]? = none := by rw [hlogger, hi]; rfl
      simp [perform, addChild_of_no_logger hbase, grown_child_of_no_chain hi, hloggers, entryOf,
        linesFor]
    | some chain =>
      have hbase : j.loggers[i]? = some (chainFields chain) := by rw [hlogger, hi]; rfl
      simp [perform, addChild_of_logger hbase, map_grown_child hi, hloggers, entryOf, linesFor]
  | log timeMs i event =>
    cases hi : chains[i]? with
    | none =>
      have hbase : j.loggers[i]? = none := by rw [hlogger, hi]; rfl
      simp [perform, log_of_no_logger hbase, entryOf_log_of_no_chain hi, hloggers, grown, linesFor]
    | some chain =>
      have hbase : j.loggers[i]? = some (chainFields chain) := by rw [hlogger, hi]; rfl
      refine ⟨loggers_log.trans hloggers, ?_⟩
      simp only [perform, List.nil_append, lines_log hbase, entryOf_log_of_chain hi,
        Option.toList_some, linesFor_singleton, line_eq_entryLine]
  | take => simp [perform, take, hloggers, grown, entryOf, linesFor]

/-- A history: the lines taken out and those left are the lines for its entries. -/
theorem lines_run (hloggers : j.loggers = chains.map chainFields) (calls : List Call) :
    (j.run calls).1 ++ (j.run calls).2.lines =
      j.lines ++ linesFor j.minLevel (entries chains calls) := by
  induction calls generalizing j chains with
  | nil => simp [entries, linesFor]
  | cons call calls ih =>
    obtain ⟨hnext, hlines⟩ := perform_spec hloggers call
    calc (j.run (call :: calls)).1 ++ (j.run (call :: calls)).2.lines
        = (j.perform call).1 ++
            (((j.perform call).2.run calls).1 ++ ((j.perform call).2.run calls).2.lines) := by
          rw [run_cons, List.append_assoc]
      _ = ((j.perform call).1 ++ (j.perform call).2.lines) ++
            linesFor j.minLevel (entries (grown chains call) calls) := by
          rw [ih hnext, minLevel_perform, List.append_assoc]
      _ = j.lines ++ linesFor j.minLevel (entries chains (call :: calls)) := by
          rw [hlines, entries, linesFor_append, List.append_assoc]

end Journal

/-! ## The record -/

namespace Record

variable {r : Record} {base : Fields} {i : Nat} {event : Event}

theorem addChild_of_logger (h : r.loggers[i]? = some base) (fields : Fields) :
    r.addChild i fields = { r with loggers := r.loggers ++ [base.merge fields] } := by
  simp [addChild, h]

theorem addChild_of_no_logger (h : r.loggers[i]? = none) : r.addChild i fields = r := by
  simp [addChild, h]

theorem log_of_logger (h : r.loggers[i]? = some base) (event : Event) :
    r.log i event = { r with events := r.events ++ [complete base event] } := by
  simp [log, h]

theorem log_of_no_logger (h : r.loggers[i]? = none) : r.log i event = r := by
  simp [log, h]

/-- One call: the loggers go on having the fields along their chains, and the entry is added to the
events. -/
theorem replay_spec (hloggers : r.loggers = Dict.empty :: chains.map chainFields)
    (call : Journal.Call) :
    (r.replay call).loggers = Dict.empty :: (grown chains call).map chainFields ∧
      (r.replay call).events =
        r.events ++ (entryOf chains call).toList.map fun x => complete (chainFields x.chain) x.event := by
  have hlogger (i : Nat) : r.loggers[i + 1]? = chains[i]?.map chainFields := by
    rw [hloggers, List.getElem?_cons_succ, List.getElem?_map]
  cases call with
  | child i fields =>
    cases hi : chains[i]? with
    | none =>
      have hbase : r.loggers[i + 1]? = none := by rw [hlogger, hi]; rfl
      rw [replay, addChild_of_no_logger hbase, grown_child_of_no_chain hi]
      simp [hloggers, entryOf]
    | some chain =>
      have hbase : r.loggers[i + 1]? = some (chainFields chain) := by rw [hlogger, hi]; rfl
      rw [replay, addChild_of_logger hbase, map_grown_child hi]
      simp [hloggers, entryOf]
  | log timeMs i event =>
    cases hi : chains[i]? with
    | none =>
      have hbase : r.loggers[i + 1]? = none := by rw [hlogger, hi]; rfl
      rw [replay, log_of_no_logger hbase, entryOf_log_of_no_chain hi]
      simp [hloggers, grown]
    | some chain =>
      have hbase : r.loggers[i + 1]? = some (chainFields chain) := by rw [hlogger, hi]; rfl
      rw [replay, log_of_logger hbase, entryOf_log_of_chain hi]
      simp [hloggers, grown]
  | take => simp [replay, hloggers, grown, entryOf]

theorem events_replay (hloggers : r.loggers = Dict.empty :: chains.map chainFields)
    (calls : List Journal.Call) :
    (calls.foldl replay r).events =
      r.events ++ (entries chains calls).map fun x => complete (chainFields x.chain) x.event := by
  induction calls generalizing r chains with
  | nil => simp [entries]
  | cons call calls ih =>
    obtain ⟨hnext, hevents⟩ := replay_spec hloggers call
    rw [List.foldl_cons, ih hnext, hevents, entries, List.map_append, List.append_assoc]

end Record

/-- Whatever is done with a family of loggers: the lines taken out and then those still there are one
line for each entry that is not below the least level, in the order of the calls, and no other. The
fields of an entry are those of the event, then those given to its logger, then those given to that
logger's ancestors, the root's last; a record of the same calls keeps every entry with just these
fields. A line holds what its entry says, its secrets concealed, and ends with the one new line in it,
whatever the keys and texts are. -/
theorem journal_keeps_every_event (minLevel : Level) (root : Fields) (calls : List Journal.Call) :
    let past := (Journal.start minLevel root).run calls
    let logged := entries [[root]] calls
    past.1 ++ past.2.lines =
        (logged.filter fun x => minLevel.rank ≤ x.event.level.rank).map Entry.line ∧
      (∀ x ∈ logged, ∀ k, x.fields.get? k =
        ((x.event.fields.getD Dict.empty).get? k).or (x.chain.reverse.findSome? (·.get? k))) ∧
      List.Forall₂ Entry.RecordedAs logged
        (calls.foldl Record.replay (Record.start.addChild 0 root)).events ∧
      ∀ x ∈ logged, ∃ text, x.line = String.ofList (text ++ ['\n']) ∧ '\n' ∉ text ∧
        Json.Spells (Json.obj x.shownMembers).toTree text := by
  intro past logged
  refine ⟨?_, fun x _ => x.get?_fields, ?_, fun x _ => x.line_eq⟩
  · have hroot : (Journal.start minLevel root).loggers = [[root]].map chainFields := by
      rw [List.map_singleton, chainFields_singleton]
      rfl
    exact Journal.lines_run hroot calls
  · have hroot : (Record.start.addChild 0 root).loggers =
        Dict.empty :: [[root]].map chainFields := rfl
    rw [Record.events_replay hroot]
    refine List.forall₂_map_right_iff.mpr (List.forall₂_same.mpr ?_)
    exact fun x _ => x.recordedAs_complete

end CycleWatch.Log
