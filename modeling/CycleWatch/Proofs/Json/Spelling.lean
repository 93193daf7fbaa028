import CycleWatch.Proofs.Json.Scalar
/-!
# The spellings of a tree

A tree is spelled as JSON with any space before its items and members, after its colons and before its
closing brackets. Every spelling is read as that tree (`read?_of_spells`). What is written with one item
or member on a line is a spelling (`spells_pretty`), so the value reads back (`read?_toPrettyText`).
-/
namespace CycleWatch.Json

/-- Nothing but white space. -/
def AllSpace (cs : List Char) : Prop :=
  ∀ c ∈ cs, isSpace c = true

mutual

/-- The text spells the tree. -/
inductive Spells : Tree → List Char → Prop
  | null : Spells .null ['n', 'u', 'l', 'l']
  | yes : Spells (.bool true) ['t', 'r', 'u', 'e']
  | no : Spells (.bool false) ['f', 'a', 'l', 's', 'e']
  | int (n : Int) : Spells (.int n) (writeNumber (.whole n))
  | decimal (d : Decimal) : Spells .other (writeNumber (.decimal d))
  | text (s : String) : Spells (.text (some s)) (writeText s)
  | noItems : Spells (.list []) ['[', ']']
  | items {t : Tree} {ts : List Tree} {space text after : List Char} : AllSpace space →
      Spells t text → SpellsItems ts after →
      Spells (.list (t :: ts)) ('[' :: (space ++ (text ++ after)))
  | noMembers : Spells (.table []) ['\x7b', '\x7d']
  | members {k : String} {t : Tree} {ms : List (Option String × Tree)}
      {space space' text after : List Char} : AllSpace space → AllSpace space' →
      Spells t text → SpellsMembers ms after →
      Spells (.table ((some k, t) :: ms))
        ('\x7b' :: (space ++ (writeText k ++ ':' :: (space' ++ (text ++ after)))))

/-- The text spells the items after the first one, and the closing bracket. -/
inductive SpellsItems : List Tree → List Char → Prop
  | nil {space : List Char} : AllSpace space → SpellsItems [] (space ++ [']'])
  | cons {t : Tree} {ts : List Tree} {space text after : List Char} : AllSpace space →
      Spells t text → SpellsItems ts after →
      SpellsItems (t :: ts) (',' :: (space ++ (text ++ after)))

/-- The text spells the members after the first one, and the closing brace. -/
inductive SpellsMembers : List (Option String × Tree) → List Char → Prop
  | nil {space : List Char} : AllSpace space → SpellsMembers [] (space ++ ['\x7d'])
  | cons {k : String} {t : Tree} {ms : List (Option String × Tree)}
      {space space' text after : List Char} : AllSpace space → AllSpace space' →
      Spells t text → SpellsMembers ms after →
      SpellsMembers ((some k, t) :: ms)
        (',' :: (space ++ (writeText k ++ ':' :: (space' ++ (text ++ after)))))

end

variable {t : Tree} {ts : List Tree} {ms : List (Option String × Tree)} {fuel : Nat}
  {space text after rest cs : List Char} {c : Char}

/-! ## Space -/

theorem skipSpace_append (h : AllSpace space) : skipSpace (space ++ cs) = skipSpace cs :=
  List.dropWhile_append_of_pos h

theorem skipSpace_cons (h : isSpace c = false) : skipSpace (c :: cs) = c :: cs :=
  List.dropWhile_cons_of_neg (by simp [h])

theorem readValue_skip (h : AllSpace space) : readValue fuel (space ++ cs) = readValue fuel cs := by
  cases fuel with
  | zero => rfl
  | succ fuel => simp only [readValue, skipSpace_append h]

theorem readItems_skip (h : AllSpace space) : readItems fuel (space ++ cs) = readItems fuel cs := by
  cases fuel with
  | zero => rfl
  | succ fuel => simp only [readItems, readValue_skip h]

theorem readMembers_skip (h : AllSpace space) :
    readMembers fuel (space ++ cs) = readMembers fuel cs := by
  cases fuel with
  | zero => rfl
  | succ fuel => simp only [readMembers, skipSpace_append h]

/-! ## Where a value starts and what follows it -/

theorem EndsNumber.append (h : AllSpace space) (hcs : EndsNumber cs) : EndsNumber (space ++ cs) := by
  have hspace : ∀ c, isSpace c = true → isDigit c = false ∧ c ≠ '.' ∧ c ≠ 'e' ∧ c ≠ 'E' := by
    intro c hc
    simp only [isSpace, Bool.or_eq_true, beq_iff_eq] at hc
    rcases hc with ((rfl | rfl) | rfl) | rfl <;> decide
  cases space with
  | nil => exact hcs
  | cons c space =>
    rintro d ⟨⟩
    exact hspace c (h c List.mem_cons_self)

theorem endsNumber_separator (h : c = ',' ∨ c = ']' ∨ c = '\x7d') : EndsNumber (c :: rest) := by
  rintro d ⟨⟩
  rcases h with rfl | rfl | rfl <;> decide

theorem SpellsItems.endsNumber (h : SpellsItems ts after) : EndsNumber (after ++ rest) := by
  cases h with
  | nil hspace =>
    rw [List.append_assoc]
    exact .append hspace (endsNumber_separator (.inr (.inl rfl)))
  | cons => exact endsNumber_separator (.inl rfl)

theorem SpellsMembers.endsNumber (h : SpellsMembers ms after) : EndsNumber (after ++ rest) := by
  cases h with
  | nil hspace =>
    rw [List.append_assoc]
    exact .append hspace (endsNumber_separator (.inr (.inr rfl)))
  | cons => exact endsNumber_separator (.inl rfl)

/-- The first character of a value is neither space nor the end of a list. -/
theorem Spells.exists_cons (h : Spells t text) :
    ∃ c tail, text = c :: tail ∧ isSpace c = false ∧ c ≠ ']' := by
  have hnumber (n : Number) : ∃ c tail, writeNumber n = c :: tail ∧ isSpace c = false ∧ c ≠ ']' := by
    obtain ⟨c, tail, hw, hc⟩ := writeNumber_eq_cons n
    have hdigit : ∀ d < 10, isSpace (Text.digitChar d) = false ∧ Text.digitChar d ≠ ']' := by decide
    rcases hc with rfl | ⟨d, hd, rfl⟩
    · exact ⟨_, _, hw, by decide⟩
    · exact ⟨_, _, hw, hdigit d hd⟩
  cases h with
  | int n => exact hnumber _
  | decimal d => exact hnumber _
  | _ => exact ⟨_, _, rfl, by decide⟩

/-! ## Reading a spelling -/

/-- What starts with a digit or with a minus sign is a number. -/
theorem readValue_cons_number (hc : c = '-' ∨ ∃ d < 10, c = Text.digitChar d) :
    readValue (fuel + 1) (c :: cs) = readNumber (c :: cs) := by
  have hother : isSpace c = false ∧ c ≠ 'n' ∧ c ≠ 't' ∧ c ≠ 'f' ∧ c ≠ '"' ∧ c ≠ '[' ∧
      c ≠ '\x7b' := by
    have hdigit : ∀ d < 10, isSpace (Text.digitChar d) = false ∧ Text.digitChar d ≠ 'n' ∧
        Text.digitChar d ≠ 't' ∧ Text.digitChar d ≠ 'f' ∧ Text.digitChar d ≠ '"' ∧
        Text.digitChar d ≠ '[' ∧ Text.digitChar d ≠ '\x7b' := by
      decide
    rcases hc with rfl | ⟨d, hd, rfl⟩
    · decide
    · exact hdigit d hd
  obtain ⟨hspace, hn, ht, hf, hquote, hbracket, hbrace⟩ := hother
  simp only [readValue, skipSpace_cons hspace]
  split
  case h_7 => rfl
  all_goals
    rename_i heq
    exact absurd (List.cons.inj heq).1 (by assumption)

theorem readValue_writeNumber (n : Number) :
    readValue (fuel + 1) (writeNumber n ++ rest) = readNumber (writeNumber n ++ rest) := by
  obtain ⟨c, tail, hw, hc⟩ := writeNumber_eq_cons n
  rw [hw, List.cons_append, readValue_cons_number hc]

theorem writeText_append (s : String) :
    writeText s ++ cs = '"' :: (s.toList.flatMap writeChar ++ '"' :: cs) := by
  simp [writeText]

theorem readValue_writeText (s : String) :
    readValue (fuel + 1) (writeText s ++ rest) = some (.text (some s), rest) := by
  simp only [writeText_append, readValue, skipSpace_cons (c := '"') (by decide),
    readText_writeText, Option.map_some]

/-- A list with something in it is read item by item. -/
theorem readValue_items (hspace : AllSpace space) (h : Spells t text)
    (hread : readItems fuel (text ++ cs) = some (ts, rest)) :
    readValue (fuel + 1) ('[' :: (space ++ (text ++ cs))) = some (.list ts, rest) := by
  obtain ⟨c, tail, rfl, hc, hbracket⟩ := h.exists_cons
  rw [List.cons_append] at hread
  simp only [readValue, skipSpace_cons (c := '[') (by decide), skipSpace_append hspace,
    List.cons_append, skipSpace_cons hc]
  split
  case h_1 heq => exact absurd (List.cons.inj heq).1 hbracket
  case h_2 => rw [hread, Option.map_some]

/-- An object with something in it is read member by member. -/
theorem readValue_members (hspace : AllSpace space) {k : String}
    (hread : readMembers fuel (writeText k ++ cs) = some (ms, rest)) :
    readValue (fuel + 1) ('\x7b' :: (space ++ (writeText k ++ cs))) = some (.table ms, rest) := by
  rw [writeText_append] at hread ⊢
  simp only [readValue, skipSpace_cons (c := '\x7b') (by decide), skipSpace_append hspace,
    skipSpace_cons (c := '"') (by decide)]
  show (readMembers fuel _).map _ = _
  rw [hread, Option.map_some]

/-- The last item is read. -/
theorem readItems_last (hread : readValue fuel (text ++ cs) = some (t, cs))
    (hskip : skipSpace cs = ']' :: rest) :
    readItems (fuel + 1) (text ++ cs) = some ([t], rest) := by
  simp only [readItems, hread, hskip]

/-- An item is read, and others after it. -/
theorem readItems_cons (hread : readValue fuel (text ++ cs) = some (t, cs))
    (hskip : skipSpace cs = ',' :: cs') (hothers : readItems fuel cs' = some (ts, rest)) :
    readItems (fuel + 1) (text ++ cs) = some (t :: ts, rest) := by
  simp only [readItems, hread, hskip, hothers, Option.map_some]

/-- The last member is read. -/
theorem readMembers_last (hspace : AllSpace space) (k : String)
    (hread : readValue fuel (text ++ cs) = some (t, cs))
    (hskip : skipSpace cs = '\x7d' :: rest) :
    readMembers (fuel + 1) (writeText k ++ ':' :: (space ++ (text ++ cs))) =
      some ([(some k, t)], rest) := by
  simp only [writeText_append, readMembers, skipSpace_cons (c := '"') (by decide),
    readText_writeText, skipSpace_cons (c := ':') (by decide), readValue_skip hspace, hread, hskip]

/-- A member is read, and others after it. -/
theorem readMembers_cons (hspace : AllSpace space) (k : String)
    (hread : readValue fuel (text ++ cs) = some (t, cs))
    (hskip : skipSpace cs = ',' :: cs') (hothers : readMembers fuel cs' = some (ms, rest)) :
    readMembers (fuel + 1) (writeText k ++ ':' :: (space ++ (text ++ cs))) =
      some ((some k, t) :: ms, rest) := by
  simp only [writeText_append, readMembers, skipSpace_cons (c := '"') (by decide),
    readText_writeText, skipSpace_cons (c := ':') (by decide), readValue_skip hspace, hread, hskip,
    hothers, Option.map_some]

mutual

/-- A spelling is read whatever follows it, numbers apart. -/
theorem readValue_of_spells {t : Tree} {text : List Char} (h : Spells t text) {fuel : Nat}
    {rest : List Char} (hfuel : 2 * text.length ≤ fuel) (hrest : EndsNumber rest) :
    readValue fuel (text ++ rest) = some (t, rest) := by
  obtain ⟨c, tail, htext, -⟩ := h.exists_cons
  obtain ⟨fuel, rfl⟩ : ∃ f, fuel = f + 1 := by
    rw [htext, List.length_cons] at hfuel
    exact ⟨fuel - 1, by omega⟩
  clear htext
  match h with
  | .null => rfl
  | .yes => rfl
  | .no => rfl
  | .int n => rw [readValue_writeNumber, writeNumber, readNumber_writeInt n hrest]
  | .decimal d => rw [readValue_writeNumber, readNumber_writeDecimal d hrest]
  | .text s => exact readValue_writeText s
  | .noItems => rfl
  | .items hspace hitem hitems =>
    simp only [List.length_cons, List.length_append] at hfuel
    simp only [List.cons_append, List.append_assoc]
    refine readValue_items hspace hitem ?_
    exact readItems_of_spells hitems _ (by omega) fun hf hr => readValue_of_spells hitem hf hr
  | .noMembers => rfl
  | .members hspace hspace' hvalue hmembers =>
    simp only [List.length_cons, List.length_append] at hfuel
    simp only [List.cons_append, List.append_assoc]
    refine readValue_members hspace ?_
    exact readMembers_of_spells hmembers _ hspace' _ (by omega) fun hf hr =>
      readValue_of_spells hvalue hf hr

theorem readItems_of_spells {ts : List Tree} {after : List Char} (h : SpellsItems ts after)
    {t : Tree} {text : List Char} (rest : List Char) {fuel : Nat}
    (hfuel : 2 * (text.length + after.length) ≤ fuel + 1)
    (hitem : ∀ {fuel rest}, 2 * text.length ≤ fuel → EndsNumber rest →
      readValue fuel (text ++ rest) = some (t, rest)) :
    readItems fuel (text ++ (after ++ rest)) = some (t :: ts, rest) := by
  have hends : EndsNumber (after ++ rest) := h.endsNumber
  match h with
  | .nil hspace =>
    simp only [List.length_append, List.length_cons, List.length_nil] at hfuel
    obtain ⟨fuel, rfl⟩ : ∃ f, fuel = f + 1 := ⟨fuel - 1, by omega⟩
    have hread := hitem (show 2 * text.length ≤ fuel by omega) hends
    refine readItems_last hread ?_
    rw [List.append_assoc, skipSpace_append hspace]
    rfl
  | .cons hspace hnext hitems =>
    simp only [List.length_append, List.length_cons] at hfuel
    obtain ⟨fuel, rfl⟩ : ∃ f, fuel = f + 1 := ⟨fuel - 1, by omega⟩
    have hread := hitem (show 2 * text.length ≤ fuel by omega) hends
    have hothers := readItems_of_spells hitems rest (show _ ≤ fuel + 1 by omega)
      fun hf hr => readValue_of_spells hnext hf hr
    simp only [List.cons_append, List.append_assoc] at hread ⊢
    refine readItems_cons hread (skipSpace_cons (by decide)) ?_
    rw [readItems_skip hspace, hothers]

theorem readMembers_of_spells {ms : List (Option String × Tree)} {after : List Char}
    (h : SpellsMembers ms after) {t : Tree} {space text : List Char} (rest : List Char) {fuel : Nat}
    (hspace : AllSpace space) (k : String)
    (hfuel : 2 * (text.length + after.length) ≤ fuel + 1)
    (hvalue : ∀ {fuel rest}, 2 * text.length ≤ fuel → EndsNumber rest →
      readValue fuel (text ++ rest) = some (t, rest)) :
    readMembers fuel (writeText k ++ ':' :: (space ++ (text ++ (after ++ rest)))) =
      some ((some k, t) :: ms, rest) := by
  have hends : EndsNumber (after ++ rest) := h.endsNumber
  match h with
  | .nil hspace' =>
    simp only [List.length_append, List.length_cons, List.length_nil] at hfuel
    obtain ⟨fuel, rfl⟩ : ∃ f, fuel = f + 1 := ⟨fuel - 1, by omega⟩
    have hread := hvalue (show 2 * text.length ≤ fuel by omega) hends
    refine readMembers_last hspace k hread ?_
    rw [List.append_assoc, skipSpace_append hspace']
    rfl
  | .cons (k := k') hspace' hspace'' hnext hmembers =>
    simp only [List.length_append, List.length_cons] at hfuel
    obtain ⟨fuel, rfl⟩ : ∃ f, fuel = f + 1 := ⟨fuel - 1, by omega⟩
    have hread := hvalue (show 2 * text.length ≤ fuel by omega) hends
    have hothers := readMembers_of_spells hmembers rest hspace'' k' (show _ ≤ fuel + 1 by omega)
      fun hf hr => readValue_of_spells hnext hf hr
    simp only [List.cons_append, List.append_assoc] at hread ⊢
    refine readMembers_cons hspace k hread (skipSpace_cons (by decide)) ?_
    rw [readMembers_skip hspace', hothers]

end

/-- A spelling with space after it is read as its tree. -/
theorem read?_of_spells (h : Spells t text) (hspace : AllSpace space) :
    read? (String.ofList (text ++ space)) = some t := by
  have hends : EndsNumber (space ++ []) := .append hspace fun _ hc => by cases hc
  rw [List.append_nil] at hends
  have hread : readValue (2 * (String.ofList (text ++ space)).length + 1) (text ++ space) =
      some (t, space) := by
    refine readValue_of_spells h ?_ hends
    rw [String.length_ofList, List.length_append]
    omega
  have hskip : skipSpace space = [] := by
    rw [← List.append_nil space, skipSpace_append hspace]
    rfl
  simp only [read?, String.toList_ofList, hread, hskip]
  rfl

/-! ## What is written is a spelling -/

/-- The tree of a number. -/
def Number.toTree : Number → Tree
  | .whole n => .int n
  | .decimal _ => .other

theorem spells_writeNumber : (n : Number) → Spells n.toTree (writeNumber n)
  | .whole n => .int n
  | .decimal d => .decimal d

mutual

/-- The tree of a value. -/
def toTree : Json → Tree
  | .null => .null
  | .bool b => .bool b
  | .num n => n.toTree
  | .str s => .text (some s)
  | .arr items => .list (itemTrees items)
  | .obj members => .table (memberTrees members)

/-- The trees of items. -/
def itemTrees : List Json → List Tree
  | [] => []
  | x :: xs => x.toTree :: itemTrees xs

/-- The trees of members. -/
def memberTrees : List (String × Json) → List (Option String × Tree)
  | [] => []
  | (k, x) :: ms => (some k, x.toTree) :: memberTrees ms

end

theorem toTree_int (n : Int) : (int n).toTree = .int n := rfl

theorem itemTrees_eq_map (items : List Json) : itemTrees items = items.map toTree := by
  induction items with
  | nil => rfl
  | cons x xs ih => rw [itemTrees, ih, List.map_cons]

theorem allSpace_newLine (depth : Nat) : AllSpace (newLine depth) := by
  intro c hc
  rcases List.mem_cons.mp hc with rfl | hc
  · rfl
  · rw [List.eq_of_mem_replicate hc]
    rfl

/-- The one space after a colon. -/
theorem allSpace_gap : AllSpace [' '] := by
  intro c hc
  rw [List.mem_singleton.mp hc]
  rfl

mutual

theorem spells_pretty (depth : Nat) : (j : Json) → Spells j.toTree (pretty depth j)
  | .null => .null
  | .bool true => .yes
  | .bool false => .no
  | .num n => spells_writeNumber n
  | .str s => .text s
  | .arr [] => .noItems
  | .arr (x :: xs) => by
    simp only [pretty, List.cons_append, List.append_assoc]
    exact .items (allSpace_newLine _) (spells_pretty _ x) (spellsItems_prettyItems depth xs)
  | .obj [] => .noMembers
  | .obj ((k, x) :: ms) => by
    simp only [pretty, List.cons_append, List.append_assoc]
    exact .members (allSpace_newLine _) allSpace_gap (spells_pretty _ x)
      (spellsMembers_prettyMembers depth ms)

theorem spellsItems_prettyItems (depth : Nat) :
    (items : List Json) → SpellsItems (itemTrees items) (prettyItems depth items)
  | [] => .nil (allSpace_newLine depth)
  | x :: xs => by
    simp only [prettyItems, List.cons_append, List.append_assoc]
    exact .cons (allSpace_newLine _) (spells_pretty _ x) (spellsItems_prettyItems depth xs)

theorem spellsMembers_prettyMembers (depth : Nat) :
    (members : List (String × Json)) →
      SpellsMembers (memberTrees members) (prettyMembers depth members)
  | [] => .nil (allSpace_newLine depth)
  | (k, x) :: ms => by
    simp only [prettyMembers, List.cons_append, List.append_assoc]
    exact .cons (allSpace_newLine _) allSpace_gap (spells_pretty _ x)
      (spellsMembers_prettyMembers depth ms)

end

/-- A value reads back. -/
theorem read?_toPrettyText (j : Json) : read? j.toPrettyText = some j.toTree := by
  refine read?_of_spells (spells_pretty 0 j) fun c hc => ?_
  rw [List.mem_singleton.mp hc]
  rfl

end CycleWatch.Json
