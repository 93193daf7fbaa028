import CycleWatch.Proofs.Json.Scalar
import CycleWatch.Proofs.Toml.Literal
import CycleWatch.Toml.Reader

/-!
# Values read back

A value that is written is read as the same value, whatever follows it, as long as that ends a value
(`readValue_writeValue`). The items of a list stand on one line or on a line each.
-/

namespace CycleWatch.Toml

variable {cs rest word : List Char} {c : Char} {n fuel depth : Nat}

/-- The tree of a value. -/
def Value.toTree : Value → Tree
  | .bool b => .bool b
  | .nat n => .int n
  | .text s => .text (some s)
  | .texts items => .list (items.map fun s => .text (some s))

/-- What follows a value that was written. -/
def EndsValue (rest : List Char) : Prop :=
  ∀ c ∈ rest.head?, c = '\n' ∨ c = ',' ∨ c = ']'

theorem EndsValue.endsText (h : EndsValue rest) : EndsText rest := by
  intro c hc
  rcases h c hc with rfl | rfl | rfl <;> decide

/-! ## Numbers -/

theorem readGrouped_digits {digit? : Char → Option Nat}
    (hdigit : ∀ d < 10, digit? (Text.digitChar d) = some d)
    (hcs : ∀ c ∈ cs, ∃ d < 10, c = Text.digitChar d) (value : Nat) :
    readGrouped 10 digit? value cs = Text.readDigitsFrom value cs := by
  induction cs generalizing value with
  | nil => rfl
  | cons c cs ih =>
      obtain ⟨⟨d, hd, rfl⟩, hrest⟩ := List.forall_mem_cons.mp hcs
      -- No digit is an underscore, so nothing is grouped.
      have hne : Text.digitChar d ≠ '_' := Text.ne_of_kind (Json.isDigit_digitChar hd) (by decide)
      rw [readGrouped]
      · rw [hdigit d hd, Text.readDigitsFrom, Text.digitValue?_digitChar hd]
        exact ih hrest _
      · intro _ _ heq
        exact absurd heq hne

theorem readBased_writeNat (n : Nat) : readBased 10 (Text.writeNat n) = some n := by
  obtain ⟨d, tail, hd, hw⟩ := Text.writeNat_eq_cons n
  have hdigit : ∀ d < 10, (Json.hexValue? (Text.digitChar d)).filter (· < 10) = some d := by decide
  have htail : ∀ c ∈ tail, ∃ d < 10, c = Text.digitChar d := by
    intro c hc
    exact Text.mem_writeNat (n := n) (hw ▸ List.mem_cons_of_mem _ hc)
  have hread := Text.readDigitsFrom_writeNat n
  rw [hw] at hread ⊢
  simp only [Text.readDigitsFrom, Text.digitValue?_digitChar hd, Nat.mul_zero, Nat.zero_add] at hread
  simp only [readBased, hdigit d hd, Option.bind_some]
  rw [readGrouped_digits hdigit htail]
  exact hread

theorem readUnsigned_writeNat (n : Nat) : readUnsigned (Text.writeNat n) = some n := by
  by_cases hn : n = 0
  · subst hn
    simp [Text.writeNat, Text.digitChar, readUnsigned]
  · have hread := readBased_writeNat n
    obtain ⟨d, tail, -, hne, hw⟩ := Json.head_writeNat hn
    rw [hw] at hread ⊢
    rw [readUnsigned]
    · exact hread
    · intro heq
      exact hne (List.cons.inj heq).1
    · intro _ heq
      exact hne (List.cons.inj heq).1

/-- No mark of a base and no sign starts the number. -/
theorem readInteger_writeNat (n : Nat) : readInteger (Text.writeNat n) = some (.ofNat n) := by
  have hread := readUnsigned_writeNat n
  by_cases hn : n = 0
  · subst hn
    simp [Text.writeNat, Text.digitChar, readInteger, readUnsigned]
  · obtain ⟨d, tail, hd, hzero, hw⟩ := Json.head_writeNat hn
    obtain ⟨hplus, hminus⟩ := Text.digitChar_ne_sign hd
    rw [hw] at hread ⊢
    unfold readInteger
    split
    case h_6 => rw [hread, Option.map_some]
    all_goals
      rename_i heq
      simp [hzero, hplus, hminus] at heq

theorem treeOfWord?_writeNat (n : Nat) : treeOfWord? (Text.writeNat n) = some (.int n) := by
  obtain ⟨d, tail, hd, hw⟩ := Text.writeNat_eq_cons n
  have ht : Text.digitChar d ≠ 't' := Text.ne_of_kind (Json.isDigit_digitChar hd) (by decide)
  have hf : Text.digitChar d ≠ 'f' := Text.ne_of_kind (Json.isDigit_digitChar hd) (by decide)
  have hread := readInteger_writeNat n
  rw [hw] at hread ⊢
  rw [treeOfWord?]
  · rw [hread]
    rfl
  · intro heq
    exact ht (List.cons.inj heq).1
  · intro heq
    exact hf (List.cons.inj heq).1

/-! ## Words -/

theorem takeWord_append (hword : ∀ c ∈ word, endsWord c = false) (h : EndsValue rest) :
    takeWord (word ++ rest) = (word, rest) := by
  have htake : ∀ c ∈ word, (!endsWord c) = true := by
    intro c hc
    rw [hword c hc]
    rfl
  have hstop : ∀ c ∈ rest.head?, (!endsWord c) = false ∧ c ≠ ' ' := by
    intro c hc
    rcases h c hc with rfl | rfl | rfl <;> decide
  obtain ⟨hword, hrest⟩ :=
    Text.takeWhile_dropWhile_append htake fun c hc => (hstop c hc).1
  rw [takeWord, hword, hrest]
  cases rest with
  | nil => rfl
  | cons c rest =>
      have hspace : c ≠ ' ' := (hstop c rfl).2
      simp [hspace]

/-- What holds no quote and nothing that ends a word is read as a word. -/
theorem readValue_word (hne : word ≠ [])
    (hword : ∀ c ∈ word, endsWord c = false ∧ c ≠ '"' ∧ c ≠ apostrophe) (h : EndsValue rest) :
    readValue (fuel + 1) depth (word ++ rest) =
      (treeOfWord? word).map fun scalar => (scalar, rest) := by
  have hscalar : readScalar (word ++ rest) = (treeOfWord? word).map fun scalar => (scalar, rest) := by
    rw [readScalar, takeWord_append (fun c hc => (hword c hc).1) h]
  obtain ⟨c, tail, rfl⟩ := List.exists_cons_of_ne_nil hne
  obtain ⟨hends, hquote, hapostrophe⟩ := hword c List.mem_cons_self
  have hbracket : c ≠ '[' := by
    rintro rfl
    cases hends
  have hbrace : c ≠ '\x7b' := by
    rintro rfl
    cases hends
  rw [← hscalar]
  cases depth <;> simp [readValue, hbracket, hbrace, hquote, hapostrophe]

theorem readValue_writeNat (n : Nat) (h : EndsValue rest) :
    readValue (fuel + 1) depth (Text.writeNat n ++ rest) = some (.int n, rest) := by
  rw [readValue_word (Text.writeNat_ne_nil n) ?_ h, treeOfWord?_writeNat, Option.map_some]
  intro c hc
  obtain ⟨d, hd, rfl⟩ := Text.mem_writeNat hc
  have hall : ∀ d < 10, endsWord (Text.digitChar d) = false ∧ Text.digitChar d ≠ '"' ∧
      Text.digitChar d ≠ apostrophe := by
    decide
  exact hall d hd

theorem readValue_writeBool (b : Bool) (h : EndsValue rest) :
    readValue (fuel + 1) depth (writeValue (.bool b) ++ rest) = some (.bool b, rest) := by
  cases b with
  | true =>
      have hword : writeValue (.bool true) = ['t', 'r', 'u', 'e'] := by simp [writeValue]
      rw [hword, readValue_word (by simp) (by simp [endsWord, apostrophe]) h]
      rfl
  | false =>
      have hword : writeValue (.bool false) = ['f', 'a', 'l', 's', 'e'] := by simp [writeValue]
      rw [hword, readValue_word (by simp) (by simp [endsWord, apostrophe]) h]
      rfl

/-! ## Texts -/

theorem readValue_writeText (s : String) (h : EndsValue rest) :
    readValue (fuel + 1) depth (writeText s ++ rest) = some (.text (some s), rest) := by
  obtain ⟨quote, body, hquote, hwrite, hread⟩ := readString_writeText s
  have htext := hread rest h.endsText
  rw [hwrite, List.cons_append]
  rcases hquote with rfl | rfl
  · simp [readValue, htext]
  · rw [apostrophe] at htext ⊢
    simp [readValue, htext, apostrophe]

/-! ## Space between items -/

/-- The text starts with no blank, comment or new line. -/
def Flush (cs : List Char) : Prop :=
  ∀ c ∈ cs.head?, c ≠ ' ' ∧ c ≠ '\t' ∧ c ≠ '#' ∧ c ≠ '\n' ∧ c ≠ '\r'

theorem flush_writeText (s : String) : Flush (writeText s ++ rest) := by
  obtain ⟨quote, body, hquote, hwrite, -⟩ := readString_writeText s
  rw [hwrite]
  rintro c ⟨⟩
  rcases hquote with rfl | rfl <;> decide

theorem Flush.skipBlanks_eq (h : Flush cs) : skipBlanks cs = cs := by
  cases cs with
  | nil => rfl
  | cons c cs =>
      obtain ⟨hspace, htab, -⟩ := h c rfl
      simp [skipBlanks, hspace, htab]

theorem Flush.newLine?_eq (h : Flush cs) : newLine? (skipComment cs) = none := by
  cases cs with
  | nil => rfl
  | cons c cs =>
      obtain ⟨-, -, hcomment, hline, hreturn⟩ := h c rfl
      simp [skipComment, newLine?, hcomment, hline, hreturn]

theorem skipLines_flush (h : Flush cs) : skipLines fuel cs = cs := by
  cases fuel with
  | zero => rfl
  | succ fuel => simp [skipLines, h.skipBlanks_eq, h.newLine?_eq]

theorem skipLines_newLine : skipLines (fuel + 1) ('\n' :: cs) = skipLines fuel cs := by
  rfl

/-- The spaces at the start of a line. -/
def indent : List Char := "    ".toList

theorem skipLines_indent (h : Flush cs) : skipLines (fuel + 1) (indent ++ cs) = cs := by
  have hskip : skipBlanks (indent ++ cs) = cs := by
    rw [skipBlanks, List.dropWhile_append_of_pos (by simp [indent])]
    exact h.skipBlanks_eq
  simp [skipLines, hskip, h.newLine?_eq]

/-! ## Lists -/

section

variable {items : List Tree} {more : List Char} {s : String}

/-- A text is an item, and not the end of the list. -/
theorem exists_cons_item (fuel depth : Nat) (s : String) (hmore : EndsValue more) :
    ∃ c tail, writeText s ++ more = c :: tail ∧ c ≠ ']' ∧
      readValue (fuel + 1) depth (c :: tail) = some (.text (some s), more) := by
  have hread : readValue (fuel + 1) depth (writeText s ++ more) = some (.text (some s), more) :=
    readValue_writeText s hmore
  obtain ⟨quote, body, hquote, hwrite, -⟩ := readString_writeText s
  rw [hwrite, List.cons_append] at hread ⊢
  refine ⟨quote, body ++ more, rfl, ?_, hread⟩
  rcases hquote with rfl | rfl <;> decide

theorem readItems_last (hskip : skipLines cs.length cs = writeText s ++ ']' :: rest) :
    readItems (fuel + 2) depth cs = some ([.text (some s)], rest) := by
  have hends : EndsValue (']' :: rest) := by simp [EndsValue]
  have hflush : Flush (']' :: rest) := by simp [Flush]
  obtain ⟨c, tail, htext, hc, hread⟩ := exists_cons_item fuel depth s hends
  rw [readItems, hskip, htext]
  simp [hc, hread, skipLines_flush hflush]

theorem readItems_cons (hskip : skipLines cs.length cs = writeText s ++ ',' :: more)
    (hothers : readItems (fuel + 1) depth more = some (items, rest)) :
    readItems (fuel + 2) depth cs = some (.text (some s) :: items, rest) := by
  have hends : EndsValue (',' :: more) := by simp [EndsValue]
  have hflush : Flush (',' :: more) := by simp [Flush]
  obtain ⟨c, tail, htext, hc, hread⟩ := exists_cons_item fuel depth s hends
  rw [readItems, hskip, htext]
  simp [hc, hread, skipLines_flush hflush, hothers]

end

/-- An item on a line of its own. -/
def itemLine (s : String) : List Char :=
  indent ++ writeText s ++ [',', '\n']

theorem readItems_lines (depth : Nat) (items : List String) (rest : List Char)
    (hfuel : items.length < fuel) :
    readItems fuel depth ('\n' :: (items.flatMap itemLine ++ ']' :: rest)) =
      some (items.map fun s => .text (some s), rest) := by
  induction items generalizing fuel with
  | nil =>
      obtain ⟨fuel, rfl⟩ : ∃ f, fuel = f + 1 := ⟨fuel - 1, by omega⟩
      have hflush : Flush (']' :: rest) := by simp [Flush]
      simp [readItems, skipLines_newLine, skipLines_flush hflush]
  | cons s items ih =>
      rw [List.length_cons] at hfuel
      obtain ⟨fuel, rfl⟩ : ∃ f, fuel = f + 2 := ⟨fuel - 2, by omega⟩
      -- The item and the items after it are read with the same fuel.
      have hshort : items.length < fuel + 1 := by omega
      refine readItems_cons ?_ (ih hshort)
      simp only [List.flatMap_cons, itemLine, List.append_assoc, List.cons_append, List.nil_append,
        List.length_cons, List.length_append, skipLines_newLine]
      rw [Nat.add_comm indent.length]
      exact skipLines_indent (flush_writeText s)

theorem readValue_list (fuel depth : Nat) (cs : List Char) :
    readValue (fuel + 1) (depth + 1) ('[' :: cs) =
      (readItems fuel depth cs).map fun (items, rest) => (.list items, rest) := by
  simp [readValue]

theorem writeValue_lines (s t : String) (items : List String) :
    writeValue (.texts (s :: t :: items)) =
      '[' :: '\n' :: ((s :: t :: items).flatMap itemLine ++ [']']) := by
  have hline : itemLine = fun s => "    ".toList ++ writeText s ++ ",\n".toList := by
    funext s
    simp [itemLine, indent]
  rw [hline]
  simp [writeValue]

theorem readValue_writeTexts (items : List String) (hfuel : items.length + 2 ≤ fuel) :
    readValue fuel (depth + 1) (writeValue (.texts items) ++ rest) =
      some ((Value.texts items).toTree, rest) := by
  obtain ⟨fuel, rfl⟩ : ∃ f, fuel = f + 2 := ⟨fuel - 2, by omega⟩
  match items with
  | [] =>
      have hflush : Flush (']' :: rest) := by simp [Flush]
      simp [writeValue, readValue, readItems, skipLines_flush hflush, Value.toTree]
  | [s] =>
      obtain ⟨fuel, rfl⟩ : ∃ f, fuel = f + 1 := ⟨fuel - 1, by simp at hfuel; omega⟩
      have hlast : readItems (fuel + 2) depth (writeText s ++ ']' :: rest) =
          some ([.text (some s)], rest) :=
        readItems_last (skipLines_flush (flush_writeText s))
      simp [writeValue, readValue_list, hlast, Value.toTree]
  | s :: t :: items =>
      have hlong : (s :: t :: items).length < fuel + 1 := by omega
      have hlines := readItems_lines depth (s :: t :: items) rest hlong
      rw [writeValue_lines]
      simp only [List.cons_append, List.append_assoc, List.nil_append, readValue_list, hlines]
      rfl

/-! ## Values -/

theorem length_writeText_pos (s : String) : 0 < (writeText s).length := by
  obtain ⟨quote, body, -, hwrite, -⟩ := readString_writeText s
  simp [hwrite]

theorem length_flatMap_itemLine (items : List String) :
    items.length ≤ (items.flatMap itemLine).length := by
  induction items with
  | nil => exact Nat.le_refl 0
  | cons s items ih =>
      simp only [List.flatMap_cons, List.length_cons, List.length_append, itemLine]
      omega

theorem length_le_writeTexts (items : List String) :
    items.length + 2 ≤ (writeValue (.texts items)).length := by
  match items with
  | [] => simp [writeValue]
  | [s] =>
      have hpos := length_writeText_pos s
      simp [writeValue]
      omega
  | s :: t :: items =>
      have hlines := length_flatMap_itemLine (s :: t :: items)
      rw [writeValue_lines]
      simp at hlines ⊢
      omega

/-- No value starts with a blank, a comment or a new line. -/
theorem flush_writeValue (v : Value) : Flush (writeValue v ++ rest) := by
  cases v with
  | bool b => cases b <;> simp [Flush, writeValue]
  | nat n =>
      obtain ⟨d, tail, hd, hw⟩ := Text.writeNat_eq_cons n
      rw [writeValue, hw]
      rintro c ⟨⟩
      have hall : ∀ d < 10, Text.digitChar d ≠ ' ' ∧ Text.digitChar d ≠ '\t' ∧
          Text.digitChar d ≠ '#' ∧ Text.digitChar d ≠ '\n' ∧ Text.digitChar d ≠ '\r' := by
        decide
      exact hall d hd
  | text s => exact flush_writeText s
  | texts items =>
      match items with
      | [] => simp [Flush, writeValue]
      | [s] => simp [Flush, writeValue]
      | s :: t :: items => simp [Flush, writeValue_lines]

theorem readValue_writeValue (v : Value) (hfuel : (writeValue v).length < fuel)
    (h : EndsValue rest) :
    readValue fuel (depth + 1) (writeValue v ++ rest) = some (v.toTree, rest) := by
  obtain ⟨fuel, rfl⟩ : ∃ f, fuel = f + 1 := ⟨fuel - 1, by omega⟩
  cases v with
  | bool b => exact readValue_writeBool b h
  | nat n => exact readValue_writeNat n h
  | text s => exact readValue_writeText s h
  | texts items =>
      have hlength := length_le_writeTexts items
      exact readValue_writeTexts items (by omega)

theorem readOuterValue_writeValue (v : Value) (h : EndsValue rest) :
    readOuterValue (writeValue v ++ rest) = some (v.toTree, rest) := by
  refine readValue_writeValue v ?_ h
  rw [List.length_append]
  omega

end CycleWatch.Toml
