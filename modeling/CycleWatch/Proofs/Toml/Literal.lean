import CycleWatch.Toml.Writer
import Mathlib.Tactic.SplitIfs

/-!
# String literals read back

A text is written in one of four forms. Whatever the text, its literal is read as the text again, in
each of the forms (`scan_quoted`, `scan_raw`, `scan_longQuoted`, `scan_longRaw`), and so in the one that
is chosen for it (`readString_writeText`).
-/

namespace CycleWatch.Toml

/-! ## Machines -/

section

variable {σ : Type} {step : σ → Char → Move σ} {atEnd : σ → Bool} {s s' : σ}
  {cs text more out rest : List Char} {c : Char}

/-- What a machine yields over a text that ends no literal, and where it stands then. -/
def pass (step : σ → Char → Move σ) : σ → List Char → Option (List Char × σ)
  | s, [] => some ([], s)
  | s, c :: rest =>
    match step s c with
    | .go out s => (pass step s rest).map fun (text, s) => (out ++ text, s)
    | _ => none

theorem scan_cons_go (h : step s c = .go out s') (hscan : scan step atEnd s' more = some (text, rest)) :
    scan step atEnd s (c :: more) = some (out ++ text, rest) := by
  simp only [scan, h, hscan, Option.map_some]

theorem scan_of_pass (h : pass step s cs = some (out, s'))
    (hscan : scan step atEnd s' more = some (text, rest)) :
    scan step atEnd s (cs ++ more) = some (out ++ text, rest) := by
  induction cs generalizing s out with
  | nil =>
      cases h
      exact hscan
  | cons c cs ih =>
      simp only [pass] at h
      split at h
      case h_2 => cases h
      case h_1 first next hstep =>
        obtain ⟨⟨text', s''⟩, hpass, heq⟩ := Option.map_eq_some_iff.mp h
        cases heq
        rw [List.append_assoc]
        exact scan_cons_go hstep (ih hpass)

end

/-! ## Escapes -/

variable {c : Char} {cs rest p : List Char} {k : Nat} {quote : Char} {escapes : Bool}

/-- What may follow a literal: no further quote. -/
def EndsText (rest : List Char) : Prop :=
  ∀ c ∈ rest.head?, c ≠ '"' ∧ c ≠ apostrophe

theorem isPrintable_or_newline (h : isControl c = false) : isPrintable c = true ∨ c = '\n' := by
  cases hprintable : isPrintable c with
  | true => exact .inl rfl
  | false => exact .inr (by simpa [isControl, hprintable] using h)

theorem toNat_lt_of_isControl (h : isControl c = true) : c.toNat < 0x80 := by
  simp only [isControl, isPrintable, Bool.and_eq_true, Bool.not_eq_true', Bool.or_eq_false_iff,
    Bool.and_eq_false_iff, decide_eq_false_iff_not, bne_eq_false_iff_eq] at h
  omega

theorem pass_numbered : ∀ n < 0x80,
    let digits := ['\\', 'u', '0', '0', hexDigit (n / 16), hexDigit (n % 16)]
    pass quotedStep .plain digits = some ([Char.ofNat n], .plain) ∧
      pass (linesStep '"' true) .text digits = some ([Char.ofNat n], .text) := by
  decide

/-- An escape stands for its character, on one line and on several. -/
theorem pass_escape (h : escape? c = some p) :
    pass quotedStep .plain p = some ([c], .plain) ∧
      pass (linesStep '"' true) .text p = some ([c], .text) := by
  have hofNat {n : Nat} (hn : c.toNat = n) : c = Char.ofNat n := by
    rw [← hn, Char.ofNat_toNat]
  unfold escape? at h
  split at h
  case h_6 =>
    split at h
    case isFalse => cases h
    case isTrue hcontrol =>
      cases h
      simpa using pass_numbered c.toNat (toNat_lt_of_isControl hcontrol)
  all_goals
    rename_i hn
    cases h
    rw [hofNat hn]
    decide

theorem escape_eq_cons (h : escape? c = some p) : ∃ rest, p = '\\' :: rest := by
  unfold escape? at h
  split at h
  case h_6 =>
    split at h
    case isFalse => cases h
    case isTrue => exact ⟨_, (Option.some.inj h).symm⟩
  all_goals exact ⟨_, (Option.some.inj h).symm⟩

/-- A character that is not escaped may stand by itself. -/
theorem plain_of_not_escaped (h : escape? c = none) :
    c ≠ '\\' ∧ c ≠ '\r' ∧ (isPrintable c = true ∨ c = '\n') := by
  refine ⟨?_, ?_, ?_⟩
  · rintro rfl
    cases h
  · rintro rfl
    cases h
  · unfold escape? at h
    split at h
    case h_6 =>
      split at h
      case isTrue => cases h
      case isFalse hcontrol => exact isPrintable_or_newline (Bool.eq_false_iff.mpr hcontrol)
    all_goals cases h

/-! ## Literals of one line -/

theorem pass_quotedChar (c : Char) : pass quotedStep .plain (quotedChar c) = some ([c], .plain) := by
  unfold quotedChar
  split
  case isTrue hc =>
    rw [hc]
    decide
  case isFalse hquote =>
    split
    case isTrue hc =>
      rw [hc]
      decide
    case isFalse hnewline =>
      cases hescape : escape? c with
      | some p => exact (pass_escape hescape).1
      | none =>
          obtain ⟨hslash, -, hplain⟩ := plain_of_not_escaped hescape
          have hprintable : isPrintable c = true := hplain.resolve_right hnewline
          simp [pass, quotedStep, hquote, hslash, hprintable]

theorem scan_quoted (cs rest : List Char) :
    scan quotedStep (fun _ => false) .plain (cs.flatMap quotedChar ++ '"' :: rest) =
      some (cs, rest) := by
  induction cs with
  | nil => rfl
  | cons c cs ih =>
      rw [List.flatMap_cons, List.append_assoc]
      exact scan_of_pass (pass_quotedChar c) ih

theorem scan_raw (h : ∀ c ∈ cs, isPrintable c = true ∧ c ≠ apostrophe) (rest : List Char) :
    scan rawStep (fun _ => false) () (cs ++ apostrophe :: rest) = some (cs, rest) := by
  induction cs with
  | nil => rfl
  | cons c cs ih =>
      obtain ⟨⟨hprintable, hquote⟩, hcs⟩ := List.forall_mem_cons.mp h
      have hstep : rawStep () c = .go [c] () := by simp [rawStep, hprintable, hquote]
      exact scan_cons_go hstep (ih hcs)

/-! ## Literals of several lines -/

/-- Where the machine stands after so many quotes of the text. It yields them once it has seen that they
do not close the literal. -/
def pending : Nat → Lines
  | 0 => .text
  | k + 1 => .quotes (k + 1)

theorem after_nil (m : Move Lines) : m.after [] = m := by
  cases m <;> rfl

theorem linesStep_pending (hc : c ≠ quote) :
    linesStep quote escapes (pending k) c =
      (linesText quote escapes c).after (List.replicate k quote) := by
  cases k with
  | zero => exact (after_nil _).symm
  | succ k => simp [pending, linesStep, hc]

theorem linesStep_quote (hk : k < 2) :
    linesStep quote escapes (pending k) quote = .go [] (pending (k + 1)) := by
  cases k with
  | zero => simp [pending, linesStep, linesText]
  | succ k =>
      have hcount : ¬ 2 ≤ k + 1 := by omega
      simp [pending, linesStep, hcount]

theorem linesText_plain (hc : c ≠ quote) (hslash : escapes = true → c ≠ '\\')
    (hplain : isPrintable c = true ∨ c = '\n') : linesText quote escapes c = .go [c] .text := by
  rcases hplain with hprintable | rfl
  · have hnewline : c ≠ '\n' := by
      rintro rfl
      simp [isPrintable] at hprintable
    have hreturn : c ≠ '\r' := by
      rintro rfl
      simp [isPrintable] at hprintable
    have hescape : (escapes && c == '\\') = false := by
      cases escapes <;> simp_all
    simp [linesText, hc, hescape, hnewline, hreturn, hprintable]
  · simp [linesText, hc]

theorem scan_closed (more : Nat) (h : ∀ c ∈ rest.head?, c ≠ quote) :
    scan (linesStep quote escapes) Lines.closed (.closing more) rest = some ([], rest) := by
  cases rest with
  | nil => rfl
  | cons c rest => simp [scan, linesStep, h c rfl]

/-- The closing quotes are the last three in a row; those before them belong to the text. -/
theorem scan_closing (hk : k ≤ 2) (h : ∀ c ∈ rest.head?, c ≠ quote) :
    scan (linesStep quote escapes) Lines.closed (pending k) (quote :: quote :: quote :: rest) =
      some (List.replicate k quote, rest) := by
  have hclosed (more : Nat) :
      scan (linesStep quote escapes) Lines.closed (.closing more) rest = some ([], rest) :=
    scan_closed more h
  match k, hk with
  | 0, _ => simp [scan, pending, linesStep, linesText, hclosed]
  | 1, _ => simp [scan, pending, linesStep, hclosed]
  | 2, _ => simp [scan, pending, linesStep, hclosed]

theorem pass_pending (hp : pass (linesStep quote escapes) .text p = some ([c], .text))
    (hhead : ∃ d tail, p = d :: tail ∧ d ≠ quote) :
    pass (linesStep quote escapes) (pending k) p = some (List.replicate k quote ++ [c], .text) := by
  obtain ⟨d, tail, rfl, hd⟩ := hhead
  have htext : linesStep quote escapes .text d = linesText quote escapes d := rfl
  simp only [pass, htext] at hp
  simp only [pass, linesStep_pending hd]
  cases hstep : linesText quote escapes d with
  | go out next =>
      simp only [hstep] at hp
      obtain ⟨⟨text, s⟩, hpass, heq⟩ := Option.map_eq_some_iff.mp hp
      simp only [Prod.mk.injEq] at heq
      simp only [Move.after, hpass, Option.map_some, List.append_assoc, heq.1, heq.2]
  | _ => simp [hstep] at hp

theorem replicate_append_cons (k : Nat) (quote : Char) (cs : List Char) :
    List.replicate k quote ++ quote :: cs = List.replicate (k + 1) quote ++ cs := by
  rw [List.replicate_succ', List.append_assoc]
  rfl

theorem scan_longQuoted (hk : k ≤ 2) (h : EndsText rest) (cs : List Char) :
    scan (linesStep '"' true) Lines.closed (pending k)
        (longQuotedFrom k cs ++ '"' :: '"' :: '"' :: rest) =
      some (List.replicate k '"' ++ cs, rest) := by
  have hrest : ∀ c ∈ rest.head?, c ≠ '"' := fun c hc => (h c hc).1
  induction cs generalizing k with
  | nil => simpa [longQuotedFrom] using scan_closing hk hrest
  | cons c cs ih =>
      rw [longQuotedFrom]
      split
      case isTrue hc =>
        subst hc
        split
        case isTrue htwo =>
          -- The third quote in a row is escaped, which ends the row.
          subst htwo
          have hslash : linesStep '"' true (pending 2) '\\' =
              .go ['"', '"'] (.escape .backslash) := rfl
          have hquote : linesStep '"' true (.escape .backslash) '"' = .go ['"'] .text := rfl
          exact scan_cons_go hslash (scan_cons_go hquote (ih (Nat.zero_le 2)))
        case isFalse htwo =>
          have hlt : k < 2 := by omega
          have hscan := scan_cons_go (linesStep_quote hlt) (ih hlt)
          rw [replicate_append_cons]
          exact hscan
      case isFalse hc =>
        rw [List.append_assoc]
        have hpass : pass (linesStep '"' true) (pending k) ((escape? c).getD [c]) =
            some (List.replicate k '"' ++ [c], .text) := by
          cases hescape : escape? c with
          | some p =>
              obtain ⟨tail, rfl⟩ := escape_eq_cons hescape
              exact pass_pending (pass_escape hescape).2 ⟨'\\', tail, rfl, by decide⟩
          | none =>
              obtain ⟨hslash, -, hplain⟩ := plain_of_not_escaped hescape
              have hstep : linesText '"' true c = .go [c] .text :=
                linesText_plain hc (fun _ => hslash) hplain
              refine pass_pending ?_ ⟨c, [], rfl, hc⟩
              simp [pass, linesStep, hstep]
        have hscan := scan_of_pass hpass (ih (Nat.zero_le 2))
        simpa using hscan

theorem hasRun_suffix {part front : List Char} (h : Text.hasRun part (front ++ cs) = false) :
    Text.hasRun part cs = false := by
  induction front with
  | nil => exact h
  | cons c front ih =>
      rw [List.cons_append, Text.hasRun, Bool.or_eq_false_iff] at h
      exact ih h.2

theorem scan_longRaw (hk : k ≤ 2) (h : EndsText rest)
    (hplain : ∀ c ∈ cs, isPrintable c = true ∨ c = '\n')
    (hrun : Text.hasRun [apostrophe, apostrophe, apostrophe]
      (List.replicate k apostrophe ++ cs) = false) :
    scan (linesStep apostrophe false) Lines.closed (pending k)
        (cs ++ apostrophe :: apostrophe :: apostrophe :: rest) =
      some (List.replicate k apostrophe ++ cs, rest) := by
  have hrest : ∀ c ∈ rest.head?, c ≠ apostrophe := fun c hc => (h c hc).2
  induction cs generalizing k with
  | nil => simpa using scan_closing hk hrest
  | cons c cs ih =>
      obtain ⟨hc, hcs⟩ := List.forall_mem_cons.mp hplain
      by_cases hquote : c = apostrophe
      · subst hquote
        have htwo : k ≠ 2 := by
          rintro rfl
          simp [Text.hasRun, List.replicate, List.isPrefixOf] at hrun
        have hlt : k < 2 := by omega
        rw [replicate_append_cons] at hrun ⊢
        have hscan := scan_cons_go (linesStep_quote hlt) (ih hlt hcs hrun)
        exact hscan
      · have hstep : linesStep apostrophe false (pending k) c =
            .go (List.replicate k apostrophe ++ [c]) .text := by
          rw [linesStep_pending hquote, linesText_plain hquote (by simp) hc]
          rfl
        have hrun' : Text.hasRun [apostrophe, apostrophe, apostrophe] cs = false := by
          have hsplit : List.replicate k apostrophe ++ c :: cs =
              (List.replicate k apostrophe ++ [c]) ++ cs := by simp
          exact hasRun_suffix (hsplit ▸ hrun)
        have hscan := scan_cons_go hstep (ih (Nat.zero_le 2) hcs hrun')
        simpa [pending] using hscan

/-- The new line after the opening quotes does not belong to the text. -/
theorem readLong_opening {body : List Char}
    (h : '\n' ∉ cs → ∀ c ∈ body.head?, c ≠ '\n' ∧ c ≠ '\r') :
    readLong quote (opening cs ++ body) =
      scan (linesStep quote (quote == '"')) Lines.closed .text body := by
  by_cases hnewline : '\n' ∈ cs
  · simp [readLong, opening, hnewline, scan, linesStep]
  · have hcontains : cs.contains '\n' = false := by simpa using hnewline
    simp only [readLong, opening, hcontains, Bool.false_eq_true, if_false, List.nil_append]
    cases body with
    | nil => rfl
    | cons c body =>
        obtain ⟨hline, hreturn⟩ := h hnewline c rfl
        simp [scan, linesStep, hline, hreturn]

theorem head_longQuoted (hnewline : '\n' ∉ cs) :
    ∀ c ∈ (longQuotedFrom 0 cs ++ '"' :: rest).head?, c ≠ '\n' ∧ c ≠ '\r' := by
  cases cs with
  | nil => simp [longQuotedFrom]
  | cons c cs =>
      obtain ⟨hc, -⟩ := List.ne_and_not_mem_of_not_mem_cons hnewline
      by_cases hquote : c = '"'
      · simp [longQuotedFrom, hquote]
      · cases hescape : escape? c with
        | some p =>
            obtain ⟨tail, rfl⟩ := escape_eq_cons hescape
            simp [longQuotedFrom, hquote, hescape]
        | none =>
            obtain ⟨-, hreturn, -⟩ := plain_of_not_escaped hescape
            simp [longQuotedFrom, hquote, hescape, hreturn, Ne.symm hc]

theorem readLong_longQuoted (h : EndsText rest) (cs : List Char) :
    readLong '"' (opening cs ++ (longQuotedFrom 0 cs ++ '"' :: '"' :: '"' :: rest)) =
      some (cs, rest) := by
  rw [readLong_opening head_longQuoted]
  exact scan_longQuoted (Nat.zero_le 2) h cs

theorem readLong_longRaw (h : EndsText rest) (hplain : ∀ c ∈ cs, isPrintable c = true ∨ c = '\n')
    (hrun : Text.hasRun [apostrophe, apostrophe, apostrophe] cs = false) :
    readLong apostrophe (opening cs ++ (cs ++ apostrophe :: apostrophe :: apostrophe :: rest)) =
      some (cs, rest) := by
  have hhead : '\n' ∉ cs →
      ∀ c ∈ (cs ++ apostrophe :: apostrophe :: apostrophe :: rest).head?, c ≠ '\n' ∧ c ≠ '\r' := by
    intro hnewline
    cases cs with
    | nil => simp [apostrophe]
    | cons c cs =>
        rintro d ⟨⟩
        have hc := hplain c List.mem_cons_self
        refine ⟨fun hline => hnewline (hline ▸ List.mem_cons_self), ?_⟩
        rintro rfl
        simp [isPrintable] at hc
  rw [readLong_opening hhead]
  exact scan_longRaw (Nat.zero_le 2) h hplain hrun

/-! ## The form of a text -/

theorem plain_of_not_any (h : cs.any isControl = false) :
    ∀ c ∈ cs, isPrintable c = true ∨ c = '\n' := by
  intro c hc
  exact isPrintable_or_newline (List.any_eq_false.mp h c hc |> Bool.eq_false_iff.mpr)

theorem of_formOf_eq_raw (h : formOf cs = .raw) :
    ∀ c ∈ cs, isPrintable c = true ∧ c ≠ apostrophe := by
  simp only [formOf] at h
  split_ifs at h with hquoted hraw
  simp only [Bool.and_eq_true, Bool.not_eq_true', List.contains_eq_mem, decide_eq_false_iff_not] at hraw
  obtain ⟨⟨hplain, hquote⟩, hnewline⟩ := hraw
  intro c hc
  refine ⟨(plain_of_not_any hplain c hc).resolve_right ?_, ?_⟩
  · rintro rfl
    exact hnewline hc
  · rintro rfl
    exact hquote hc

theorem of_formOf_eq_longRaw (h : formOf cs = .longRaw) :
    (∀ c ∈ cs, isPrintable c = true ∨ c = '\n') ∧
      Text.hasRun [apostrophe, apostrophe, apostrophe] cs = false := by
  simp only [formOf] at h
  split_ifs at h with hquoted hraw hlongQuoted hlongRaw
  simp only [Bool.and_eq_true, Bool.not_eq_true'] at hlongRaw
  exact ⟨plain_of_not_any hlongRaw.1, hlongRaw.2⟩

/-! ## The whole literal -/

/-- The literal does not open with three quotes. -/
theorem readString_short {body : List Char}
    (h : ∀ rest, body ≠ quote :: quote :: rest) : readString quote body = readShort quote body := by
  unfold readString
  split
  case h_2 => rfl
  case h_1 a b rest =>
    have hquotes : (a == quote && b == quote) = false := by
      rw [Bool.eq_false_iff]
      intro hboth
      simp only [Bool.and_eq_true, beq_iff_eq] at hboth
      exact h rest (by rw [hboth.1, hboth.2])
    rw [hquotes]
    rfl

theorem readString_long (body : List Char) :
    readString quote (quote :: quote :: body) = readLong quote body := by
  simp [readString]

theorem readString_quoted (h : EndsText rest) (cs : List Char) :
    readString '"' (cs.flatMap quotedChar ++ '"' :: rest) = some (cs, rest) := by
  have hshort : ∀ more, cs.flatMap quotedChar ++ '"' :: rest ≠ '"' :: '"' :: more := by
    intro more heq
    cases cs with
    | nil =>
        simp only [List.flatMap_nil, List.nil_append, List.cons.injEq, true_and] at heq
        exact (h '"' (by rw [heq]; rfl)).1 rfl
    | cons c cs =>
        -- Every character begins with a backslash or is no quote.
        have hfirst : ∃ d tail, quotedChar c = d :: tail ∧ d ≠ '"' := by
          unfold quotedChar
          split_ifs with hquote hnewline
          · exact ⟨_, _, rfl, by decide⟩
          · exact ⟨_, _, rfl, by decide⟩
          · cases hescape : escape? c with
            | some p =>
                obtain ⟨tail, rfl⟩ := escape_eq_cons hescape
                exact ⟨_, _, rfl, by decide⟩
            | none => exact ⟨c, [], rfl, hquote⟩
        obtain ⟨d, tail, hd, hne⟩ := hfirst
        rw [List.flatMap_cons, hd] at heq
        exact hne (List.cons.inj heq).1
  rw [readString_short hshort]
  exact scan_quoted cs rest

theorem readString_raw (h : EndsText rest) (hplain : ∀ c ∈ cs, isPrintable c = true ∧ c ≠ apostrophe) :
    readString apostrophe (cs ++ apostrophe :: rest) = some (cs, rest) := by
  have hshort : ∀ more, cs ++ apostrophe :: rest ≠ apostrophe :: apostrophe :: more := by
    intro more heq
    cases cs with
    | nil =>
        simp only [List.nil_append, List.cons.injEq, true_and] at heq
        exact (h apostrophe (by rw [heq]; rfl)).2 rfl
    | cons c cs => exact (hplain c List.mem_cons_self).2 (List.cons.inj heq).1
  rw [readString_short hshort]
  exact scan_raw hplain rest

/-- A text is read back from its literal, unless another quote follows. -/
theorem readString_writeText (s : String) :
    ∃ quote body, (quote = '"' ∨ quote = apostrophe) ∧ writeText s = quote :: body ∧
      ∀ rest, EndsText rest → readString quote (body ++ rest) = some (s.toList, rest) := by
  cases hform : formOf s.toList with
  | quoted =>
      refine ⟨'"', _, .inl rfl, by simp only [writeText, hform]; rfl, fun rest h => ?_⟩
      simpa using readString_quoted h s.toList
  | raw =>
      refine ⟨apostrophe, _, .inr rfl, by simp only [writeText, hform]; rfl, fun rest h => ?_⟩
      simpa using readString_raw h (of_formOf_eq_raw hform)
  | longQuoted =>
      refine ⟨'"', _, .inl rfl, by simp only [writeText, hform]; rfl, fun rest h => ?_⟩
      simpa [readString_long] using readLong_longQuoted h s.toList
  | longRaw =>
      obtain ⟨hplain, hrun⟩ := of_formOf_eq_longRaw hform
      refine ⟨apostrophe, _, .inr rfl, by simp only [writeText, hform]; rfl, fun rest h => ?_⟩
      simpa [readString_long] using readLong_longRaw h hplain hrun

end CycleWatch.Toml
