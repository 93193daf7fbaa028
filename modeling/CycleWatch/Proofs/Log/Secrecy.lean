import CycleWatch.Proofs.Log.History
import CycleWatch.Proofs.Log.Redaction
import Mathlib.Data.List.Forall2
/-!
# The journal keeps secrets

A line of the journal is the redaction of what its event says, whoever contributed the fields, and the
time of writing (`lineMembers_eq`). So two histories of a family of loggers that differ in nothing but
what stands under secret keys leave the same journal (`Indistinct.run`), and a line tells everything
else (`journal_keeps_secrets`).
-/
namespace CycleWatch.Log

/-- What an event with these fields says, nothing concealed, by ascending key. -/
def plainMembers (event : Event) (fields : Fields) : List (String × Json) :=
  (match event.error with
    | some e => [("error", e)]
    | none => []) ++
  [("event", .str event.name)] ++
  (if fields.isEmpty then [] else [("fields", .obj fields.toList)]) ++
  [("level", .str event.level.word), ("message", .str event.message)]

/-- The fields are the same but for what stands under secret keys. -/
def FieldsAlike (fields fields' : Fields) : Prop :=
  MembersAlike fields.toList fields'.toList

/-- The events are the same but for what stands under secret keys. -/
structure EventsAlike (event event' : Event) : Prop where
  name : event.name = event'.name
  level : event.level = event'.level
  message : event.message = event'.message
  fields : Option.Rel FieldsAlike event.fields event'.fields
  error : Option.Rel Alike event.error event'.error

/-- The calls are the same but for what stands under secret keys. -/
inductive CallsAlike : Journal.Call → Journal.Call → Prop
  | child (i : Nat) {fields fields' : Fields} :
    FieldsAlike fields fields' → CallsAlike (.child i fields) (.child i fields')
  | log (timeMs : UInt64) (i : Nat) {event event' : Event} :
    EventsAlike event event' → CallsAlike (.log timeMs i event) (.log timeMs i event')
  | take : CallsAlike .take .take

/-! ## A line -/

theorem toList_redactFields (fields : Fields) :
    (redactFields fields).toList = redactMembers fields.toList :=
  (redactMembers_eq_map fields.toList).symm

theorem redactMembers_append (ms ns : List (String × Json)) :
    redactMembers (ms ++ ns) = redactMembers ms ++ redactMembers ns := by
  simp only [redactMembers_eq_map, List.map_append]

/-- None of the names that a line gives to its own members is that of a secret. -/
theorem isSecretKey_of_lineName {k : String}
    (h : k ∈ ["error", "event", "fields", "level", "message"]) : Secret.isSecretKey k = false := by
  revert k
  decide +kernel

theorem redactMembers_own {k : String} (h : k ∈ ["error", "event", "fields", "level", "message"])
    (x : Json) : redactMembers [(k, x)] = [(k, redact x)] := by
  rw [redactMembers_cons, shown_of_open (isSecretKey_of_lineName h)]
  rfl

theorem redact_obj (ms : List (String × Json)) : redact (.obj ms) = .obj (redactMembers ms) := rfl

/-- A line is the redaction of what its event says, and the time of writing. -/
theorem lineMembers_eq (timeMs : UInt64) (event : Event) (fields : Fields) :
    lineMembers timeMs event fields =
      redactMembers (plainMembers event fields) ++ [("timestampMs", number timeMs)] := by
  have hname : redactMembers [("event", .str event.name)] = [("event", .str event.name)] :=
    redactMembers_own (by simp) _
  have hfields : redactMembers (if fields.isEmpty then [] else [("fields", .obj fields.toList)]) =
      if fields.isEmpty then [] else [("fields", .obj (redactFields fields).toList)] := by
    split
    · rfl
    · rw [redactMembers_own (by simp), redact_obj, toList_redactFields]
  have hlast : redactMembers [("level", .str event.level.word), ("message", .str event.message)] =
      [("level", .str event.level.word), ("message", .str event.message)] := by
    rw [← List.singleton_append, redactMembers_append, redactMembers_own (by simp),
      redactMembers_own (by simp)]
    rfl
  simp only [plainMembers, lineMembers, redactMembers_append, hname, hfields, hlast]
  cases event.error with
  | none => simp [redactMembers]
  | some e => simp [redactMembers_own (k := "error") (by simp)]

/-! ## Two lines -/

theorem redactFields_eq_of_alike {fields fields' : Fields} (h : FieldsAlike fields fields') :
    redactFields fields = redactFields fields' := by
  apply Dict.ext_toList
  rw [toList_redactFields, toList_redactFields, redactMembers_eq_of_alike h]

theorem redactFields_redactFields (fields : Fields) :
    redactFields (redactFields fields) = redactFields fields := by
  apply Dict.ext_toList
  rw [toList_redactFields, toList_redactFields, redactMembers_redactMembers]

theorem redactFields_merge (base fields : Fields) :
    redactFields (base.merge fields) = (redactFields base).merge (redactFields fields) :=
  Dict.mapValues_merge _ base fields

theorem EventsAlike.redactFields_eq {event event' : Event} (h : EventsAlike event event') :
    redactFields (event.fields.getD Dict.empty) = redactFields (event'.fields.getD Dict.empty) := by
  have hfields := h.fields
  generalize event.fields = fields, event'.fields = fields' at hfields
  cases hfields with
  | none => rfl
  | some hfields => exact redactFields_eq_of_alike hfields

/-- A line depends on the redactions of the fields and the error alone. -/
theorem lineMembers_congr {timeMs : UInt64} {event event' : Event} {fields fields' : Fields}
    (h : EventsAlike event event') (hfields : redactFields fields = redactFields fields') :
    lineMembers timeMs event fields = lineMembers timeMs event' fields' := by
  have hempty : fields.isEmpty = fields'.isEmpty := by
    have hmapped := congrArg Dict.isEmpty hfields
    rwa [redactFields, redactFields, Dict.isEmpty_mapValues, Dict.isEmpty_mapValues] at hmapped
  have herror := h.error
  unfold lineMembers
  rw [h.name, h.level, h.message, hempty, hfields]
  generalize event.error = e, event'.error = e' at herror
  cases herror with
  | none => rfl
  | some herror => simp only [redact_eq_of_alike herror]

theorem line_eq_of_alike {timeMs : UInt64} {event event' : Event} {base base' : Fields}
    (h : EventsAlike event event') (hbase : redactFields base = redactFields base') :
    line timeMs base event = line timeMs base' event' := by
  have hfields : redactFields (mergedFields base event) = redactFields (mergedFields base' event') := by
    rw [mergedFields, mergedFields, redactFields_merge, redactFields_merge, hbase, h.redactFields_eq]
  rw [line, line, lineMembers_congr h hfields]

/-! ## Two histories -/

namespace Journal

/-- Two journals that show the same lines and will go on doing so: their loggers differ in nothing but
what stands under secret keys. -/
structure Indistinct (j j' : Journal) : Prop where
  minLevel : j.minLevel = j'.minLevel
  loggers : j.loggers.map redactFields = j'.loggers.map redactFields
  lines : j.lines = j'.lines

variable {j j' : Journal} {call call' : Call} {calls calls' : List Call}

/-- The loggers of one number in both journals: there are none, or their fields have one redaction. -/
theorem Indistinct.logger (h : Indistinct j j') (i : Nat) :
    (j.loggers[i]? = none ∧ j'.loggers[i]? = none) ∨
      ∃ base base', j.loggers[i]? = some base ∧ j'.loggers[i]? = some base' ∧
        redactFields base = redactFields base' := by
  have hi : (j.loggers.map redactFields)[i]? = (j'.loggers.map redactFields)[i]? := by rw [h.loggers]
  rw [List.getElem?_map, List.getElem?_map] at hi
  cases hb : j.loggers[i]? with
  | none =>
    rw [hb] at hi
    exact .inl ⟨rfl, Option.map_eq_none_iff.mp hi.symm⟩
  | some base =>
    rw [hb] at hi
    obtain ⟨base', hb', heq⟩ := Option.map_eq_some_iff.mp hi.symm
    exact .inr ⟨base, base', rfl, hb', heq.symm⟩

theorem Indistinct.addChild (h : Indistinct j j') (i : Nat) {fields fields' : Fields}
    (hfields : FieldsAlike fields fields') :
    Indistinct (j.addChild i fields) (j'.addChild i fields') := by
  rcases h.logger i with ⟨hb, hb'⟩ | ⟨base, base', hb, hb', hbase⟩
  · rwa [addChild_of_no_logger hb, addChild_of_no_logger hb']
  · have hmerge : redactFields (base.merge fields) = redactFields (base'.merge fields') := by
      rw [redactFields_merge, redactFields_merge, hbase, redactFields_eq_of_alike hfields]
    rw [addChild_of_logger hb, addChild_of_logger hb']
    refine ⟨h.minLevel, ?_, h.lines⟩
    simp only [List.map_append, List.map_cons, List.map_nil, h.loggers, hmerge]

theorem Indistinct.log (h : Indistinct j j') (timeMs : UInt64) (i : Nat) {event event' : Event}
    (hevent : EventsAlike event event') :
    Indistinct (j.log timeMs i event) (j'.log timeMs i event') := by
  by_cases hlevel : event.level.rank < j.minLevel.rank
  · have hlevel' : event'.level.rank < j'.minLevel.rank := by
      rwa [← hevent.level, ← h.minLevel]
    rwa [log_of_below hlevel, log_of_below hlevel']
  · have hlevel' : ¬event'.level.rank < j'.minLevel.rank := by
      rwa [← hevent.level, ← h.minLevel]
    rcases h.logger i with ⟨hb, hb'⟩ | ⟨base, base', hb, hb', hbase⟩
    · rwa [log_of_no_logger hb, log_of_no_logger hb']
    · rw [log_of_logger hb hlevel, log_of_logger hb' hlevel']
      refine ⟨h.minLevel, h.loggers, ?_⟩
      simp only [h.lines, line_eq_of_alike hevent hbase]

theorem Indistinct.perform (h : Indistinct j j') (hcall : CallsAlike call call') :
    (j.perform call).1 = (j'.perform call').1 ∧
      Indistinct (j.perform call).2 (j'.perform call').2 := by
  cases hcall with
  | child i hfields => exact ⟨rfl, h.addChild i hfields⟩
  | log timeMs i hevent => exact ⟨rfl, h.log timeMs i hevent⟩
  | take => exact ⟨h.lines, h.minLevel, h.loggers, rfl⟩

theorem Indistinct.run (h : Indistinct j j') (hcalls : List.Forall₂ CallsAlike calls calls') :
    (j.run calls).1 = (j'.run calls').1 ∧ Indistinct (j.run calls).2 (j'.run calls').2 := by
  induction hcalls generalizing j j' with
  | nil => exact ⟨rfl, h⟩
  | cons hcall _ ih =>
    obtain ⟨htaken, hnext⟩ := h.perform hcall
    obtain ⟨hrest, hlast⟩ := ih hnext
    rw [run_cons, run_cons, htaken, hrest]
    exact ⟨rfl, hlast⟩

theorem Indistinct.start (minLevel : Level) {root root' : Fields} (hroot : FieldsAlike root root') :
    Indistinct (.start minLevel root) (.start minLevel root') :=
  ⟨rfl, congrArg (fun fields => [fields]) (redactFields_eq_of_alike hroot), rfl⟩

end Journal

/-- Whatever is done with a family of loggers: two histories that differ in nothing but what stands
under secret keys hand out and leave the same lines. What a logger writes for an event is one object,
and the time. In that object every member with a secret key, at any depth, holds the placeholder, and
everything else is as the event and the fields of its logger have it, those of the logger's ancestors
included; to redact it once more changes nothing. -/
theorem journal_keeps_secrets (minLevel : Level) (root : Fields) (calls : List Journal.Call) :
    let past := (Journal.start minLevel root).run calls
    (∀ root' calls', FieldsAlike root root' → List.Forall₂ CallsAlike calls calls' →
      let past' := (Journal.start minLevel root').run calls'
      past.1 = past'.1 ∧ past.2.lines = past'.2.lines) ∧
    (∀ i base event, past.2.loggers[i]? = some base →
      ∃ members,
        (∀ timeMs, (past.2.log timeMs i event).lines =
          past.2.lines ++ if event.level.rank < minLevel.rank then [] else
            [String.ofList
              (Json.compact (.obj (members ++ [("timestampMs", number timeMs)])) ++ ['\n'])]) ∧
        (∀ k v, Json.HasMember k v (.obj members) → Secret.isSecretKey k = true →
          v = .str Secret.placeholder) ∧
        Alike (.obj (plainMembers event (mergedFields base event))) (.obj members) ∧
        redact (.obj members) = .obj members) ∧
    (∀ base event k, (mergedFields base event).get? k =
      ((event.fields.getD Dict.empty).get? k).or (base.get? k)) ∧
    (∀ i base fields, past.2.loggers[i]? = some base →
      ∃ merged, (past.2.addChild i fields).loggers = past.2.loggers ++ [merged] ∧
        ∀ k, merged.get? k = (fields.get? k).or (base.get? k)) ∧
    (∀ j, redact (redact j) = redact j) ∧
    ∀ fields, redactFields (redactFields fields) = redactFields fields := by
  intro past
  refine ⟨?_, ?_, ?_, ?_, redact_redact, redactFields_redactFields⟩
  · intro root' calls' hroot hcalls
    obtain ⟨htaken, hleft⟩ := (Journal.Indistinct.start minLevel hroot).run hcalls
    exact ⟨htaken, hleft.lines⟩
  · intro i base event hbase
    refine ⟨redactMembers (plainMembers event (mergedFields base event)), ?_, ?_, ?_, ?_⟩
    · intro timeMs
      rw [Journal.lines_log hbase, Journal.minLevel_run, line, lineMembers_eq]
      rfl
    · intro k v hmember hsecret
      exact eq_placeholder_of_hasMember_redact hsecret (.obj _) hmember
    · exact alike_redact (.obj _)
    · exact redact_redact (.obj _)
  · intro base event k
    exact Journal.get?_mergedFields base event k
  · intro i base fields hbase
    refine ⟨base.merge fields, ?_, Dict.get?_merge base fields⟩
    rw [Journal.addChild_of_logger hbase]

end CycleWatch.Log
