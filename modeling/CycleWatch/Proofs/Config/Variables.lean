import CycleWatch.Proofs.Config.Admission
import CycleWatch.Proofs.Config.KeyLists
import CycleWatch.Proofs.Text.Letter
import CycleWatch.Proofs.Text.Numeral

/-!
# The language of the environment

A variable that is set has to have a meaning in its language: any text, an unsigned number of some width,
a word for a truth value or for a level, or names between commas. Its setting is what the trimmed text
means (`Reads`). The overrides of an environment are read exactly if all variables that are set have a
meaning, and otherwise the first one that has none is refused (`ofVars_reads_variables`).
-/

namespace CycleWatch.Config

open CycleWatch.Metric

/-! ## The specification -/

/-- How the values of a variable are understood. -/
structure Language (α : Type) where
  /-- The trimmed text means this. -/
  means : String → α → Prop
  /-- The variable with this value, which means nothing, is refused for this. -/
  refusedFor : String → String → VarFault → Prop

namespace Language

def text : Language String where
  means s t := t = s
  refusedFor _ _ _ := False

/-- A number, of any width that has a number for it. -/
def number {α : Type} (toNat : α → Nat) : Language α where
  means s n := Text.Unsigned s.toList (toNat n)
  refusedFor var raw e := e = .invalidInt var raw

def truthWords : Bool → List String
  | true => ["true", "1", "yes", "on"]
  | false => ["false", "0", "no", "off"]

def truth : Language Bool where
  means s b := ∃ w ∈ truthWords b, Text.InAnyCase s w
  refusedFor var raw e := e = .invalidBool var raw

def levelWords : Log.Level → List String
  | .debug => ["debug"]
  | .info => ["info"]
  | .warn => ["warn", "warning"]
  | .error => ["error"]

def level : Language Log.Level where
  means s l := ∃ w ∈ levelWords l, Text.InAnyCase s w
  refusedFor var raw e := e = .invalidEnum var raw

/-- These are the names between the commas of the text. -/
def Lists (s : String) (keys : List String) : Prop :=
  ∃ pieces, CutAtCommas s pieces ∧ NormalForm pieces keys

/-- The names between commas, from one to 256 of them. -/
def keys : Language (List String) where
  means s keys := Lists s keys ∧ 1 ≤ keys.length ∧ keys.length ≤ 256
  refusedFor var raw e := ∃ keys, Lists raw keys ∧
    (keys = [] ∧ e = .emptyValue var ∨ 256 < keys.length ∧ e = .csvTooLarge var keys.length 256)

end Language

section

variable {α : Type} (vars : Dict String) (var : String) (language : Language α)

/-- What the environment sets by the variable. -/
inductive Sets : Option α → Prop
  | unset : vars.get? var = none → Sets none
  | set {raw : String} {a : α} : vars.get? var = some raw → Text.trim raw ≠ "" →
      language.means (Text.trim raw) a → Sets (some a)

/-- What the variable is refused for. -/
inductive Refuses : VarFault → Prop
  | blank {raw : String} : vars.get? var = some raw → Text.trim raw = "" → Refuses (.emptyValue var)
  | meaningless {raw : String} {e : VarFault} : vars.get? var = some raw → Text.trim raw ≠ "" →
      (∀ a, ¬ language.means (Text.trim raw) a) → language.refusedFor var raw e → Refuses e

/-- The variable is read as what it sets, or else it is refused. -/
structure Reads (outcome : Except VarFault (Option α)) : Prop where
  ok_iff : ∀ o, outcome = .ok o ↔ Sets vars var language o
  error_iff : ∀ e, outcome = .error e ↔ Refuses vars var language e

end

/-- A variable that overrides a setting. -/
structure Variable where
  name : String
  {Value : Type}
  language : Language Value

/-- The variables in the order in which they are read. -/
def knownVariables : List Variable :=
  [⟨"GCM_SINK_FILE", .text⟩, ⟨"GCM_TAILER_POLL_INTERVAL_MS", .number UInt64.toNat⟩,
    ⟨"GCM_WAITER_MAX_ATTEMPTS", .number UInt32.toNat⟩, ⟨"GCM_WAITER_DELAY_MS", .number UInt64.toNat⟩,
    ⟨"GCM_METRIC_PREFIX", .text⟩, ⟨"GCM_EXPECTED_KEYS", .keys⟩, ⟨"GCM_SKIP_STALE_FIRST", .truth⟩,
    ⟨"GCM_LOG_LEVEL", .level⟩]

/-- If the variable is set, it is not blank and means something. -/
def Variable.Accepted (v : Variable) (vars : Dict String) : Prop :=
  ∀ raw, vars.get? v.name = some raw →
    Text.trim raw ≠ "" ∧ ∃ a, v.language.means (Text.trim raw) a

/-- What the first of the variables that is not accepted is refused for. -/
inductive FirstRefused (vars : Dict String) : List Variable → VarFault → Prop
  | head {v : Variable} {rest : List Variable} {e : VarFault} : Refuses vars v.name v.language e →
      FirstRefused vars (v :: rest) e
  | tail {v : Variable} {rest : List Variable} {e : VarFault} : v.Accepted vars →
      FirstRefused vars rest e → FirstRefused vars (v :: rest) e

/-- Each setting is what its variable sets. -/
structure Overrides.SetBy (o : Overrides) (vars : Dict String) : Prop where
  sinkFile : Sets vars "GCM_SINK_FILE" .text o.sinkFile
  pollIntervalMs : Sets vars "GCM_TAILER_POLL_INTERVAL_MS" (.number UInt64.toNat) o.pollIntervalMs
  maxAttempts : Sets vars "GCM_WAITER_MAX_ATTEMPTS" (.number UInt32.toNat) o.maxAttempts
  delayMs : Sets vars "GCM_WAITER_DELAY_MS" (.number UInt64.toNat) o.delayMs
  family : Sets vars "GCM_METRIC_PREFIX" .text o.family
  expectedKeys : Sets vars "GCM_EXPECTED_KEYS" .keys o.expectedKeys
  skipStaleFirst : Sets vars "GCM_SKIP_STALE_FIRST" .truth o.skipStaleFirst
  level : Sets vars "GCM_LOG_LEVEL" .level o.level

variable {α β : Type} {vars vars' : Dict String} {var raw s : String} {language : Language α}
  {o : Option α} {e : VarFault} {v : Variable} {rest : List Variable}

/-! ## What one variable sets -/

theorem sets_of_unset (h : vars.get? var = none) : Sets vars var language o ↔ o = none := by
  constructor
  · intro hsets
    cases hsets with
    | unset => rfl
    | set hset => simp [h] at hset
  · rintro rfl
    exact .unset h

theorem not_refuses_of_unset (h : vars.get? var = none) : ¬ Refuses vars var language e := by
  intro hrefuses
  cases hrefuses with
  | blank hset => simp [h] at hset
  | meaningless hset => simp [h] at hset

theorem not_sets_of_blank (h : vars.get? var = some raw) (hblank : Text.trim raw = "") :
    ¬ Sets vars var language o := by
  intro hsets
  cases hsets with
  | unset hunset => simp [h] at hunset
  | set hset hfilled =>
      obtain rfl := Option.some.inj (h.symm.trans hset)
      exact hfilled hblank

theorem refuses_of_blank (h : vars.get? var = some raw) (hblank : Text.trim raw = "") :
    Refuses vars var language e ↔ e = .emptyValue var := by
  constructor
  · intro hrefuses
    cases hrefuses with
    | blank => rfl
    | meaningless hset hfilled =>
        obtain rfl := Option.some.inj (h.symm.trans hset)
        exact absurd hblank hfilled
  · rintro rfl
    exact .blank h hblank

theorem sets_of_filled (h : vars.get? var = some raw) (hfilled : Text.trim raw ≠ "") :
    Sets vars var language o ↔ ∃ a, o = some a ∧ language.means (Text.trim raw) a := by
  constructor
  · intro hsets
    cases hsets with
    | unset hunset => simp [h] at hunset
    | set hset _ hmeans =>
        obtain rfl := Option.some.inj (h.symm.trans hset)
        exact ⟨_, rfl, hmeans⟩
  · rintro ⟨a, rfl, hmeans⟩
    exact .set h hfilled hmeans

theorem refuses_of_filled (h : vars.get? var = some raw) (hfilled : Text.trim raw ≠ "") :
    Refuses vars var language e ↔
      (∀ a, ¬ language.means (Text.trim raw) a) ∧ language.refusedFor var raw e := by
  constructor
  · intro hrefuses
    cases hrefuses with
    | blank hset hblank =>
        obtain rfl := Option.some.inj (h.symm.trans hset)
        exact absurd hblank hfilled
    | meaningless hset _ hnone hfor =>
        obtain rfl := Option.some.inj (h.symm.trans hset)
        exact ⟨hnone, hfor⟩
  · rintro ⟨hnone, hfor⟩
    exact .meaningless h hfilled hnone hfor

theorem accepted_iff : v.Accepted vars ↔ ∃ o, Sets vars v.name v.language o := by
  constructor
  · intro haccepted
    cases hget : vars.get? v.name with
    | none => exact ⟨none, .unset hget⟩
    | some raw =>
        obtain ⟨hfilled, a, hmeans⟩ := haccepted raw hget
        exact ⟨some a, .set hget hfilled hmeans⟩
  · rintro ⟨o, hsets⟩ raw hget
    by_cases hblank : Text.trim raw = ""
    · exact absurd hsets (not_sets_of_blank hget hblank)
    · obtain ⟨a, -, hmeans⟩ := (sets_of_filled hget hblank).mp hsets
      exact ⟨hblank, a, hmeans⟩

theorem not_refuses_of_accepted (h : v.Accepted vars) : ¬ Refuses vars v.name v.language e := by
  intro hrefuses
  cases hrefuses with
  | blank hset hblank => exact (h _ hset).1 hblank
  | meaningless hset _ hnone =>
      obtain ⟨-, a, hmeans⟩ := h _ hset
      exact hnone a hmeans

/-! ## Reading one variable -/

/-- The value is read as what the trimmed text means, or else it is refused. -/
structure Understood (language : Language α) (var raw : String)
    (outcome : Except VarFault (Option α)) : Prop where
  ok_iff : ∀ o, outcome = .ok o ↔ ∃ a, o = some a ∧ language.means (Text.trim raw) a
  error_iff : ∀ e, outcome = .error e ↔
    (∀ a, ¬ language.means (Text.trim raw) a) ∧ language.refusedFor var raw e

theorem Understood.ok {a : α} (h : ∀ b, language.means (Text.trim raw) b ↔ b = a) :
    Understood language var raw (.ok (some a)) where
  ok_iff o := by
    simp only [h, exists_eq_right, Except.ok.injEq]
    exact eq_comm
  error_iff e := by
    have hmeans : ¬ ∀ a, ¬ language.means (Text.trim raw) a := fun hnone => hnone a ((h a).mpr rfl)
    simp only [reduceCtorEq, hmeans, false_and]

theorem Understood.error (hnone : ∀ a, ¬ language.means (Text.trim raw) a)
    (hfor : ∀ e', language.refusedFor var raw e' ↔ e' = e) :
    Understood language var raw (.error e) where
  ok_iff o := by simp only [reduceCtorEq, hnone, and_false, exists_false]
  error_iff e' := by simp only [Except.error.injEq, hnone, not_false_eq_true, implies_true, true_and,
    hfor, eq_comm]

/-- A reader goes on from the value: it is enough to know what it makes of that. -/
theorem Reads.of_value? {next : Option (String × String) → Except VarFault (Option α)}
    (hnone : next none = .ok none)
    (hnext : ∀ raw, Understood language var raw (next (some (raw, Text.trim raw)))) :
    Reads vars var language (value? vars var >>= next) := by
  cases hget : vars.get? var with
  | none =>
      have hgoes : (value? vars var >>= next) = .ok none := by
        rw [value?, hget]
        exact hnone
      rw [hgoes]
      refine ⟨fun o => ?_, fun e => ?_⟩
      · rw [sets_of_unset hget, Except.ok.injEq, eq_comm]
      · simp only [reduceCtorEq, not_refuses_of_unset hget]
  | some raw =>
      by_cases hblank : Text.trim raw = ""
      · have hfails : (value? vars var >>= next) = .error (.emptyValue var) := by
          rw [value?_of_blank hget hblank]
          rfl
        rw [hfails]
        refine ⟨fun o => ?_, fun e => ?_⟩
        · simp only [reduceCtorEq, not_sets_of_blank hget hblank]
        · rw [refuses_of_blank hget hblank, Except.error.injEq, eq_comm]
      · have hgoes : (value? vars var >>= next) = next (some (raw, Text.trim raw)) := by
          rw [value?_of_filled hget hblank]
          rfl
        rw [hgoes]
        refine ⟨fun o => ?_, fun e => ?_⟩
        · rw [(hnext raw).ok_iff, sets_of_filled hget hblank]
        · rw [(hnext raw).error_iff, refuses_of_filled hget hblank]

theorem reads_text (vars : Dict String) (var : String) : Reads vars var .text (text? vars var) :=
  .of_value? rfl fun _ => .ok fun _ => Iff.rfl

theorem reads_setting {read : String → Option α} {refuse : String → String → VarFault}
    (hread : ∀ s a, Text.trim s = s → (read s = some a ↔ language.means s a))
    (hrefuse : ∀ raw e, language.refusedFor var raw e ↔ e = refuse var raw) (vars : Dict String) :
    Reads vars var language (setting? vars var read refuse) := by
  refine .of_value? rfl fun raw => ?_
  have hmeans : ∀ a, read (Text.trim raw) = some a ↔ language.means (Text.trim raw) a := fun a =>
    hread _ a (Text.trim_trim raw)
  cases hval : read (Text.trim raw) with
  | some a =>
      simp only [hval]
      exact .ok fun b => by rw [← hmeans, hval, Option.some.injEq, eq_comm]
  | none =>
      simp only [hval]
      refine .error (fun a ha => ?_) (hrefuse raw)
      rw [← hmeans, hval] at ha
      cases ha

/-! ## The languages and their readers -/

/-- The numbers of a width are read as any number is, if the width has the number. -/
theorem number_reader {toNat : α → Nat} {ofInt? : Int → Option α}
    (hwidth : ∀ (n : Nat) a, ofInt? n = some a ↔ toNat a = n) {a : α} :
    (Text.readNat s.toList).bind (fun n => ofInt? n) = some a ↔ (Language.number toNat).means s a := by
  simp only [Option.bind_eq_some_iff, Text.readNat_eq_some_iff, hwidth]
  constructor
  · rintro ⟨n, hnumeral, rfl⟩
    exact hnumeral
  · intro hnumeral
    exact ⟨_, hnumeral, rfl⟩

theorem uint64Text?_eq_some_iff {n : UInt64} :
    uint64Text? s = some n ↔ (Language.number UInt64.toNat).means s n := by
  refine number_reader fun m n => ⟨Word.toNat_of_uint64?, ?_⟩
  rintro rfl
  exact Word.uint64?_toNat n

theorem uint32Text?_eq_some_iff {n : UInt32} :
    uint32Text? s = some n ↔ (Language.number UInt32.toNat).means s n := by
  refine number_reader fun m n => ⟨Word.toNat_of_uint32?, ?_⟩
  rintro rfl
  exact Word.uint32?_toNat n

theorem truth?_eq_some_iff {b : Bool} : truth? s = some b ↔ Language.truth.means s b := by
  have hmeans : Language.truth.means s b ↔
      String.ofList (Text.lowerChars s.toList) ∈ Language.truthWords b :=
    (Text.lowerChars_mem_iff (by cases b <;> simp [Language.truthWords, Text.isUpper_eq_false_iff])).symm
  have hdisjoint : ∀ w ∈ Language.truthWords true, w ∉ Language.truthWords false := by decide
  rw [hmeans, truth?]
  generalize String.ofList (Text.lowerChars s.toList) = word
  split
  case isTrue hcontains =>
      have htrue : word ∈ Language.truthWords true := List.contains_iff_mem.mp hcontains
      have hfalse := hdisjoint word htrue
      cases b <;> simp only [htrue, hfalse, Option.some.injEq, reduceCtorEq]
  case isFalse hcontains =>
      have htrue : word ∉ Language.truthWords true := fun h => hcontains (List.contains_iff_mem.mpr h)
      split
      case isTrue hcontains =>
          have hfalse : word ∈ Language.truthWords false := List.contains_iff_mem.mp hcontains
          cases b <;> simp only [htrue, hfalse, Option.some.injEq, reduceCtorEq]
      case isFalse hcontains =>
          have hfalse : word ∉ Language.truthWords false := fun h =>
            hcontains (List.contains_iff_mem.mpr h)
          cases b <;> simp only [htrue, hfalse, reduceCtorEq]

theorem level?_eq_some_iff {l : Log.Level} (htrim : Text.trim s = s) :
    level? s = some l ↔ Language.level.means s l := by
  have hchars : Text.trimChars s.toList = s.toList := by rw [← Text.toList_trim, htrim]
  have hmeans : Language.level.means s l ↔
      String.ofList (Text.lowerChars s.toList) ∈ Language.levelWords l :=
    (Text.lowerChars_mem_iff (by cases l <;> simp [Language.levelWords, Text.isUpper_eq_false_iff])).symm
  rw [hmeans, level?, hchars]
  generalize String.ofList (Text.lowerChars s.toList) = word
  split <;> cases l <;> simp_all [Language.levelWords]

theorem lists_iff {keys : List String} :
    Language.Lists s keys ↔ keys = normalKeys (commaTexts s) := by
  constructor
  · rintro ⟨pieces, hcut, hnormal⟩
    rw [commaTexts_of_cutAtCommas hcut]
    exact eq_of_normalForm hnormal
  · rintro rfl
    exact ⟨_, cutAtCommas_pieces s, normalForm_normalKeys _⟩

theorem means_keys_iff {keys : List String} :
    Language.keys.means s keys ↔
      keys = normalKeys (commaTexts s) ∧ 1 ≤ keys.length ∧ keys.length ≤ 256 :=
  and_congr_left fun _ => lists_iff

theorem keys_refusedFor_iff :
    Language.keys.refusedFor var raw e ↔
      normalKeys (commaTexts raw) = [] ∧ e = .emptyValue var ∨
        256 < (normalKeys (commaTexts raw)).length ∧
          e = .csvTooLarge var (normalKeys (commaTexts raw)).length 256 := by
  simp only [Language.keys, lists_iff, exists_eq_left]

theorem reads_keys (vars : Dict String) (var : String) : Reads vars var .keys (keys? vars var) := by
  refine .of_value? rfl fun raw => ?_
  have hmeans : ∀ keys, Language.keys.means (Text.trim raw) keys ↔
      keys = normalKeys (commaTexts raw) ∧ 1 ≤ keys.length ∧ keys.length ≤ 256 := fun keys => by
    rw [means_keys_iff, normalKeys_commaTexts_trim]
  have hfor : ∀ e, Language.keys.refusedFor var raw e ↔ _ := fun e => keys_refusedFor_iff
  simp only [normalKeys_commaTexts_trim]
  generalize normalKeys (commaTexts raw) = names at hmeans hfor
  split
  case isTrue hnil =>
    refine .error (fun keys hkeys => ?_) fun e => ?_
    · obtain ⟨rfl, hpos, -⟩ := (hmeans keys).mp hkeys
      simp [hnil] at hpos
    · simp [hfor, hnil]
  case isFalse hne =>
    split
    case isTrue hlarge =>
      refine .error (fun keys hkeys => ?_) fun e => ?_
      · obtain ⟨rfl, -, hsmall⟩ := (hmeans keys).mp hkeys
        exact absurd hlarge (Nat.not_lt.mpr hsmall)
      · have hsize : 256 < names.length := hlarge
        simp [hfor, hne, hsize, expectedKeysMax]
    case isFalse hsmall =>
      refine .ok fun keys => ?_
      rw [hmeans]
      refine and_iff_left_of_imp ?_
      rintro rfl
      exact ⟨List.length_pos_iff.mpr hne, Nat.not_lt.mp hsmall⟩

/-! ## All variables -/

/-- The outcome is a success exactly if all the variables are accepted, and otherwise the first one that
is not is refused. -/
structure Strict (vars : Dict String) (vs : List Variable) (outcome : Except VarFault β) : Prop where
  ok_iff : (∃ b, outcome = .ok b) ↔ ∀ v ∈ vs, v.Accepted vars
  error_iff : ∀ e, outcome = .error e ↔ FirstRefused vars vs e

theorem firstRefused_cons :
    FirstRefused vars (v :: rest) e ↔
      Refuses vars v.name v.language e ∨ v.Accepted vars ∧ FirstRefused vars rest e := by
  constructor
  · intro h
    cases h with
    | head hrefuses => exact .inl hrefuses
    | tail haccepted hrest => exact .inr ⟨haccepted, hrest⟩
  · rintro (hrefuses | ⟨haccepted, hrest⟩)
    · exact .head hrefuses
    · exact .tail haccepted hrest

theorem Strict.nil (b : β) : Strict vars [] (.ok b) where
  ok_iff := by simp
  error_iff e := ⟨nofun, nofun⟩

theorem Strict.bind {outcome : Except VarFault (Option v.Value)}
    {next : Option v.Value → Except VarFault β} (h : Reads vars v.name v.language outcome)
    (hnext : ∀ o, Strict vars rest (next o)) : Strict vars (v :: rest) (outcome >>= next) := by
  cases houtcome : outcome with
  | error e =>
      have hrefuses := (h.error_iff e).mp houtcome
      have hunaccepted : ¬ v.Accepted vars := fun haccepted =>
        not_refuses_of_accepted haccepted hrefuses
      have hfails : (Except.error e >>= next) = .error e := rfl
      rw [hfails]
      refine ⟨?_, fun e' => ?_⟩
      · simp only [reduceCtorEq, exists_false, List.forall_mem_cons, hunaccepted, false_and]
      · rw [firstRefused_cons, ← h.error_iff, houtcome]
        simp only [hunaccepted, false_and, or_false, Except.error.injEq]
  | ok o =>
      have haccepted : v.Accepted vars := accepted_iff.mpr ⟨o, (h.ok_iff o).mp houtcome⟩
      have hgoes : (Except.ok o >>= next) = next o := rfl
      rw [hgoes]
      refine ⟨?_, fun e => ?_⟩
      · rw [(hnext o).ok_iff, List.forall_mem_cons, and_iff_right haccepted]
      · rw [(hnext o).error_iff, firstRefused_cons, and_iff_right haccepted]
        exact (or_iff_right (not_refuses_of_accepted haccepted)).symm

theorem reads_uint64 (vars : Dict String) (var : String) :
    Reads vars var (.number UInt64.toNat) (setting? vars var uint64Text? .invalidInt) :=
  reads_setting (fun _ _ _ => uint64Text?_eq_some_iff) (fun _ _ => Iff.rfl) vars

theorem reads_uint32 (vars : Dict String) (var : String) :
    Reads vars var (.number UInt32.toNat) (setting? vars var uint32Text? .invalidInt) :=
  reads_setting (fun _ _ _ => uint32Text?_eq_some_iff) (fun _ _ => Iff.rfl) vars

theorem reads_truth (vars : Dict String) (var : String) :
    Reads vars var .truth (setting? vars var truth? .invalidBool) :=
  reads_setting (fun _ _ _ => truth?_eq_some_iff) (fun _ _ => Iff.rfl) vars

theorem reads_level (vars : Dict String) (var : String) :
    Reads vars var .level (setting? vars var level? .invalidEnum) :=
  reads_setting (fun _ _ => level?_eq_some_iff) (fun _ _ => Iff.rfl) vars

theorem strict_ofVars (vars : Dict String) : Strict vars knownVariables (Overrides.ofVars vars) := by
  refine .bind (reads_text _ _) fun _ => ?_
  refine .bind (reads_uint64 _ _) fun _ => ?_
  refine .bind (reads_uint32 _ _) fun _ => ?_
  refine .bind (reads_uint64 _ _) fun _ => ?_
  refine .bind (reads_text _ _) fun _ => ?_
  refine .bind (reads_keys _ _) fun _ => ?_
  refine .bind (reads_truth _ _) fun _ => ?_
  exact .bind (reads_level _ _) fun _ => .nil _

theorem ofVars_eq_ok_iff {o : Overrides} : Overrides.ofVars vars = .ok o ↔ o.SetBy vars := by
  constructor
  · intro h
    obtain ⟨_, hsinkFile, h⟩ := ok_of_bind h
    obtain ⟨_, hpoll, h⟩ := ok_of_bind h
    obtain ⟨_, hattempts, h⟩ := ok_of_bind h
    obtain ⟨_, hdelay, h⟩ := ok_of_bind h
    obtain ⟨_, hfamily, h⟩ := ok_of_bind h
    obtain ⟨_, hkeys, h⟩ := ok_of_bind h
    obtain ⟨_, hskip, h⟩ := ok_of_bind h
    obtain ⟨_, hlevel, h⟩ := ok_of_bind h
    cases h
    exact
      { sinkFile := ((reads_text _ _).ok_iff _).mp hsinkFile
        pollIntervalMs := ((reads_uint64 _ _).ok_iff _).mp hpoll
        maxAttempts := ((reads_uint32 _ _).ok_iff _).mp hattempts
        delayMs := ((reads_uint64 _ _).ok_iff _).mp hdelay
        family := ((reads_text _ _).ok_iff _).mp hfamily
        expectedKeys := ((reads_keys _ _).ok_iff _).mp hkeys
        skipStaleFirst := ((reads_truth _ _).ok_iff _).mp hskip
        level := ((reads_level _ _).ok_iff _).mp hlevel }
  · intro h
    have hsinkFile := ((reads_text vars sinkFileVar).ok_iff _).mpr h.sinkFile
    have hpoll := ((reads_uint64 vars pollIntervalVar).ok_iff _).mpr h.pollIntervalMs
    have hattempts := ((reads_uint32 vars maxAttemptsVar).ok_iff _).mpr h.maxAttempts
    have hdelay := ((reads_uint64 vars delayVar).ok_iff _).mpr h.delayMs
    have hfamily := ((reads_text vars familyVar).ok_iff _).mpr h.family
    have hkeys := ((reads_keys vars expectedKeysVar).ok_iff _).mpr h.expectedKeys
    have hskip := ((reads_truth vars skipStaleFirstVar).ok_iff _).mpr h.skipStaleFirst
    have hlevel := ((reads_level vars levelVar).ok_iff _).mpr h.level
    simp only [Overrides.ofVars, hsinkFile, hpoll, hattempts, hdelay, hfamily, hkeys, hskip, hlevel]
    rfl

theorem ofVars_congr (h : ∀ v ∈ knownVariables, vars'.get? v.name = vars.get? v.name) :
    Overrides.ofVars vars' = Overrides.ofVars vars := by
  have hvalue : ∀ v ∈ knownVariables, value? vars' v.name = value? vars v.name := fun v hv => by
    rw [value?, h v hv, value?]
  simp only [knownVariables, List.forall_mem_cons] at hvalue
  obtain ⟨hsinkFile, hpoll, hattempts, hdelay, hfamily, hkeys, hskip, hlevel, -⟩ := hvalue
  simp only [Overrides.ofVars, text?, setting?, keys?, sinkFileVar, pollIntervalVar, maxAttemptsVar, delayVar,
    familyVar, expectedKeysVar, skipStaleFirstVar, levelVar, hsinkFile, hpoll, hattempts, hdelay, hfamily,
    hkeys, hskip, hlevel]

/-- The overrides depend on no variable but the known ones. They are read exactly if each of these that is
set is not blank and means something in its language, and then each setting is none if its variable is
not set, and what the trimmed text means if it is. Otherwise the first variable that is not so is refused:
as empty if it is blank or has no name in its list, with the number of its names if these are too many, and
else with its value as it stands. -/
theorem ofVars_reads_variables (vars : Dict String) :
    (∀ vars' : Dict String, (∀ v ∈ knownVariables, vars'.get? v.name = vars.get? v.name) →
      Overrides.ofVars vars' = Overrides.ofVars vars) ∧
    ((∃ o, Overrides.ofVars vars = .ok o) ↔ ∀ v ∈ knownVariables, v.Accepted vars) ∧
    (∀ o, Overrides.ofVars vars = .ok o ↔ o.SetBy vars) ∧
    (∀ e, Overrides.ofVars vars = .error e ↔ FirstRefused vars knownVariables e) :=
  ⟨fun _ => ofVars_congr, (strict_ofVars vars).ok_iff, fun _ => ofVars_eq_ok_iff,
    (strict_ofVars vars).error_iff⟩

theorem ofVars_reads_variables_sample :
    Overrides.ofVars (.ofList [("GCM_TAILER_POLL_INTERVAL_MS", " +007\t"), ("GCM_EXPECTED_KEYS", "b, a,,b"),
        ("GCM_LOG_LEVEL", "Warning"), ("PATH", "")]) =
      .ok ⟨none, some 7, none, none, none, some ["a", "b"], none, some .warn⟩ ∧
    Overrides.ofVars (.ofList [("GCM_WAITER_DELAY_MS", "-1 "), ("GCM_EXPECTED_KEYS", " , ")]) =
      .error (.invalidInt "GCM_WAITER_DELAY_MS" "-1 ") := by
  have hframe := (ofVars_reads_variables (.ofList [("GCM_TAILER_POLL_INTERVAL_MS", " +007\t"),
    ("GCM_EXPECTED_KEYS", "b, a,,b"), ("GCM_LOG_LEVEL", "Warning")])).1
  obtain ⟨-, -, hset, -⟩ := ofVars_reads_variables (.ofList [("GCM_TAILER_POLL_INTERVAL_MS", " +007\t"),
    ("GCM_EXPECTED_KEYS", "b, a,,b"), ("GCM_LOG_LEVEL", "Warning")])
  obtain ⟨-, -, -, hrefused⟩ := ofVars_reads_variables (.ofList [("GCM_WAITER_DELAY_MS", "-1 "),
    ("GCM_EXPECTED_KEYS", " , ")])
  refine ⟨(hframe _ (by decide)).trans ((hset _).mpr ?_), (hrefused _).mpr ?_⟩
  · have hseven : (Language.number UInt64.toNat).means (Text.trim " +007\t") 7 := by
      rw [show Text.trim " +007\t" = "+007" by decide]
      show Text.Unsigned ['+', '0', '0', '7'] (Text.digitsValue ['0', '0', '7'])
      exact .plus (by simp) (by simp [Char.isDigit])
    have hnames : Language.Lists (Text.trim "b, a,,b") ["a", "b"] := lists_iff.mpr (by decide +kernel)
    have hwarn : Text.InAnyCase (Text.trim "Warning") "warning" := by decide
    exact
      { sinkFile := .unset (by decide)
        pollIntervalMs := .set (by decide) (by decide) hseven
        maxAttempts := .unset (by decide)
        delayMs := .unset (by decide)
        family := .unset (by decide)
        expectedKeys := .set (by decide) (by decide) ⟨hnames, by decide, by decide⟩
        skipStaleFirst := .unset (by decide)
        level := .set (by decide) (by decide) ⟨"warning", by decide, hwarn⟩ }
  · have hmeaningless : ∀ n, ¬ (Language.number UInt64.toNat).means (Text.trim "-1 ") n := by
      intro n hn
      have hread := uint64Text?_eq_some_iff.mpr hn
      rw [show uint64Text? (Text.trim "-1 ") = none by decide] at hread
      cases hread
    exact .tail (accepted_iff.mpr ⟨none, .unset (by decide)⟩)
      (.tail (accepted_iff.mpr ⟨none, .unset (by decide)⟩)
        (.tail (accepted_iff.mpr ⟨none, .unset (by decide)⟩)
          (.head (.meaningless (by decide) (by decide) hmeaningless rfl))))

end CycleWatch.Config
