import CycleWatch.Proofs.Toml.Tables
import CycleWatch.Proofs.Toml.Values

/-!
# Documents read back

A document that is written is read as the tree of what it was written from, if its keys are bare and no
table binds a key twice (`read?_writeDocument`). Each line that is written is read as one statement,
and what lines are read as is put together from the lines (`Reads.append`).
-/

namespace CycleWatch.Toml

variable {text rest more : List Char} {key : String} {ss ss' : List Statement}

/-! ## Keys -/

/-- A key that needs no quotes. -/
def BareKey (key : String) : Prop :=
  key.toList ≠ [] ∧ key.toList.all isBare = true

instance : Decidable (BareKey key) :=
  inferInstanceAs (Decidable (_ ∧ _))

theorem BareKey.eq_cons (h : BareKey key) :
    ∃ c tail, key.toList = c :: tail ∧ isBare c = true := by
  obtain ⟨c, tail, hcs⟩ := List.exists_cons_of_ne_nil h.1
  exact ⟨c, tail, hcs, List.all_eq_true.mp h.2 c (hcs ▸ List.mem_cons_self)⟩

theorem BareKey.flush (h : BareKey key) : Flush (key.toList ++ rest) := by
  obtain ⟨c, tail, hkey, hc⟩ := h.eq_cons
  rw [hkey]
  rintro d ⟨⟩
  refine ⟨?_, ?_, ?_, ?_, ?_⟩ <;> exact Text.ne_of_kind hc (by decide)

theorem readPart_bare (h : BareKey key) (hrest : ∀ c ∈ rest.head?, isBare c = false) :
    readPart (key.toList ++ rest) = some (key, rest) := by
  obtain ⟨c, tail, hkey, hc⟩ := h.eq_cons
  have hquote : c ≠ '"' := Text.ne_of_kind hc (by decide)
  have hapostrophe : c ≠ apostrophe := Text.ne_of_kind hc (by decide)
  obtain ⟨htake, hdrop⟩ := Text.takeWhile_dropWhile_append (List.all_eq_true.mp h.2) hrest
  have hname : String.ofList (c :: tail) = key := by rw [← hkey, String.ofList_toList]
  rw [hkey, List.cons_append] at htake hdrop ⊢
  simp [readPart, hquote, hapostrophe, htake, hdrop, hname]

/-- A bare key before anything but a point is the whole key. -/
theorem readKey_bare (h : BareKey key) (hrest : ∀ c ∈ rest.head?, isBare c = false)
    (hdot : ∀ more, skipBlanks rest ≠ '.' :: more) :
    readKey (key.toList ++ rest) = some ([], key, skipBlanks rest) := by
  have hpart : readPart (skipBlanks (key.toList ++ rest)) = some (key, rest) := by
    rw [h.flush.skipBlanks_eq, readPart_bare h hrest]
  obtain ⟨fuel, hfuel⟩ : ∃ fuel, (key.toList ++ rest).length = fuel + 1 := by
    obtain ⟨c, tail, hkey, -⟩ := h.eq_cons
    exact ⟨(tail ++ rest).length, by rw [hkey]; rfl⟩
  have hparts : readParts (key.toList ++ rest).length (key.toList ++ rest) =
      some ([], key, skipBlanks rest) := by
    rw [hfuel, readParts, hpart]
    dsimp only
    -- Only a point would let another part follow.
    split
    case h_1 more hskip => exact absurd hskip (hdot more)
    case h_2 => rfl
  rw [readKey, hparts]
  simp [maxDepth]

/-! ## Lines -/

/-- An assignment on a line. -/
def assignmentLine (a : String × Value) : List Char :=
  a.1.toList ++ " = ".toList ++ writeValue a.2 ++ ['\n']

/-- A header after a blank line. -/
def headerLines (name : String) : List Char :=
  "\n[".toList ++ name.toList ++ "]\n".toList

/-- What starts with a bare key is an assignment. -/
theorem readStatement_bare (h : BareKey key)
    (hkey : readKey (key.toList ++ rest) = some ([], key, '=' :: more)) :
    readStatement (key.toList ++ rest) = (do
      let (value, rest) ← readOuterValue (skipBlanks more)
      return (.assign [] key value, ← endLine? rest)) := by
  obtain ⟨c, tail, hcs, hc⟩ := h.eq_cons
  have hbracket : c ≠ '[' := Text.ne_of_kind hc (by decide)
  rw [hcs, List.cons_append] at hkey ⊢
  rw [readStatement, hkey]
  · rfl
  · intro _ heq
    exact hbracket (List.cons.inj heq).1
  · intro _ heq
    exact hbracket (List.cons.inj heq).1

theorem readStatement_assignment (h : BareKey key) (v : Value) (rest : List Char) :
    readStatement (assignmentLine (key, v) ++ rest) = some (.assign [] key v.toTree, rest) := by
  have hends : EndsValue ('\n' :: rest) := by simp [EndsValue]
  have hvalue := readOuterValue_writeValue v hends
  have hline : assignmentLine (key, v) ++ rest =
      key.toList ++ (' ' :: '=' :: ' ' :: (writeValue v ++ '\n' :: rest)) := by
    simp [assignmentLine]
  have hkey : readKey (key.toList ++ (' ' :: '=' :: ' ' :: (writeValue v ++ '\n' :: rest))) =
      some ([], key, '=' :: ' ' :: (writeValue v ++ '\n' :: rest)) :=
    readKey_bare h (by simp [isBare]) (by simp [skipBlanks])
  have hskip : skipBlanks (' ' :: (writeValue v ++ '\n' :: rest)) = writeValue v ++ '\n' :: rest :=
    (flush_writeValue v).skipBlanks_eq
  rw [hline, readStatement_bare h hkey, hskip, hvalue]
  rfl

theorem readStatement_header (h : BareKey key) (rest : List Char) :
    readStatement ('[' :: (key.toList ++ ']' :: '\n' :: rest)) = some (.header [] key, rest) := by
  have hkey : readKey (key.toList ++ ']' :: '\n' :: rest) = some ([], key, ']' :: '\n' :: rest) :=
    readKey_bare h (by simp [isBare]) (by simp [skipBlanks])
  obtain ⟨c, tail, hcs, hc⟩ := h.eq_cons
  have hbracket : c ≠ '[' := Text.ne_of_kind hc (by decide)
  rw [hcs, List.cons_append] at hkey ⊢
  rw [readStatement, hkey]
  · rfl
  · intro _ heq
    exact hbracket (List.cons.inj heq).1

/-! ## What lines are read as -/

/-- The text is read as the statements, whatever follows it. -/
structure Reads (text : List Char) (ss : List Statement) : Prop where
  /-- Every statement takes a character at least. -/
  length_le : ss.length ≤ text.length
  readStatements_append : ∀ {fuel rest others}, readStatements fuel rest = some others →
    readStatements (fuel + ss.length) (text ++ rest) = some (ss ++ others)

theorem reads_nil : Reads [] [] where
  length_le := Nat.le_refl 0
  readStatements_append := id

theorem Reads.append {text' : List Char} (h : Reads text ss) (h' : Reads text' ss') :
    Reads (text ++ text') (ss ++ ss') where
  length_le := by
    have hlength := h.length_le
    have hlength' := h'.length_le
    simp only [List.length_append]
    omega
  readStatements_append := by
    intro fuel rest others hothers
    have hall := h.readStatements_append (h'.readStatements_append hothers)
    rw [Nat.add_assoc, Nat.add_comm ss'.length] at hall
    rwa [List.append_assoc, List.append_assoc, List.length_append]

/-- Texts are read one after the other. -/
theorem Reads.flatMap {α : Type} {write : α → List Char} {stated : α → List Statement}
    {xs : List α} (h : ∀ x ∈ xs, Reads (write x) (stated x)) :
    Reads (xs.flatMap write) (xs.flatMap stated) := by
  induction xs with
  | nil => exact reads_nil
  | cons x xs ih =>
      obtain ⟨hfirst, hothers⟩ := List.forall_mem_cons.mp h
      exact hfirst.append (ih hothers)

/-- A statement is read where the next line that is not empty starts. -/
theorem reads_statement {statement : Statement} {line : List Char}
    (htext : text ≠ []) (hline : ∃ c tail, line = c :: tail ∧ c ≠ '#')
    (hskip : ∀ rest, skipLines (text ++ rest).length (text ++ rest) = line ++ rest)
    (hread : ∀ rest, readStatement (line ++ rest) = some (statement, rest)) :
    Reads text [statement] where
  length_le := List.length_pos_iff.mpr htext
  readStatements_append := by
    intro fuel rest others hothers
    have hstatement := hread rest
    obtain ⟨c, tail, rfl, hc⟩ := hline
    rw [List.cons_append] at hstatement
    rw [List.length_singleton, readStatements, hskip, List.cons_append]
    simp [skipComment, hc, hstatement, hothers]

theorem reads_assignmentLine {a : String × Value} (h : BareKey a.1) :
    Reads (assignmentLine a) [.assign [] a.1 a.2.toTree] := by
  have hflush (rest : List Char) : Flush (assignmentLine a ++ rest) := by
    have hkey : Flush (a.1.toList ++ (" = ".toList ++ (writeValue a.2 ++ '\n' :: rest))) := h.flush
    simpa [assignmentLine] using hkey
  refine reads_statement ?_ ?_ (fun rest => skipLines_flush (hflush rest)) fun rest => ?_
  · simp [assignmentLine]
  · obtain ⟨c, tail, hkey, hc⟩ := h.eq_cons
    refine ⟨c, tail ++ (" = ".toList ++ (writeValue a.2 ++ ['\n'])), ?_, Text.ne_of_kind hc (by decide)⟩
    simp [assignmentLine, hkey]
  · exact readStatement_assignment h a.2 rest

theorem reads_headerLines (h : BareKey key) : Reads (headerLines key) [.header [] key] := by
  have hlines : headerLines key = '\n' :: '[' :: (key.toList ++ [']', '\n']) := by
    simp [headerLines]
  have hflush (rest : List Char) : Flush ('[' :: (key.toList ++ [']', '\n']) ++ rest) := by
    simp [Flush]
  refine reads_statement ?_ ⟨'[', key.toList ++ [']', '\n'], rfl, by decide⟩ (fun rest => ?_)
    fun rest => ?_
  · simp [hlines]
  · rw [hlines, List.cons_append, List.length_cons, skipLines_newLine, skipLines_flush (hflush rest)]
  · simpa using readStatement_header h rest

/-! ## Documents -/

/-- Keys that need no quotes, and none of them twice. -/
def BareKeys (keys : List String) : Prop :=
  (∀ key ∈ keys, BareKey key) ∧ keys.Nodup

instance (keys : List String) : Decidable (BareKeys keys) :=
  inferInstanceAs (Decidable (_ ∧ _))

/-- The bindings that assignments of values write. -/
def Bindings.ofValues (as : List (String × Value)) : Bindings :=
  as.map fun a => (a.1, a.2.toTree)

variable {as root : List (String × Value)} {tables : List (String × List (String × Value))}

theorem fst_ofValues (as : List (String × Value)) :
    (Bindings.ofValues as).map Prod.fst = as.map Prod.fst := by
  rw [Bindings.ofValues, List.map_map]
  rfl

theorem reads_writeAssignments (h : ∀ a ∈ as, BareKey a.1) :
    Reads (writeAssignments as) (assignments (.ofValues as)) := by
  have hstated : assignments (.ofValues as) =
      as.flatMap fun a => [.assign [] a.1 a.2.toTree] := by
    rw [assignments, Bindings.ofValues, List.map_map, ← List.map_eq_flatMap]
    rfl
  rw [hstated]
  exact Reads.flatMap fun a ha => reads_assignmentLine (h a ha)

theorem reads_tables (h : ∀ t ∈ tables, BareKey t.1 ∧ ∀ a ∈ t.2, BareKey a.1) :
    Reads (tables.flatMap fun t => headerLines t.1 ++ writeAssignments t.2)
      ((tables.map fun t => (t.1, .ofValues t.2)).flatMap tableStatements) := by
  rw [List.flatMap_map]
  refine Reads.flatMap fun t ht => ?_
  obtain ⟨hname, has⟩ := h t ht
  exact (reads_headerLines hname).append (reads_writeAssignments has)

/-- A blank line ends a document. -/
theorem readStatements_of_reads (h : Reads text ss) :
    readStatements ((text ++ ['\n']).length + 1) (text ++ ['\n']) = some ss := by
  have hlength := h.length_le
  obtain ⟨fuel, hfuel⟩ : ∃ fuel, text.length + 2 = fuel + 1 + ss.length :=
    ⟨text.length + 1 - ss.length, by omega⟩
  have hblank : readStatements (fuel + 1) ['\n'] = some [] := rfl
  have hread := h.readStatements_append hblank
  rw [List.append_nil, ← hfuel] at hread
  rwa [List.length_append]

theorem dropMark_writeDocument (h : ∀ a ∈ root, BareKey a.1) :
    dropMark (writeDocument root tables) = writeDocument root tables := by
  have hhead : ∃ c tail, writeDocument root tables = c :: tail ∧ c ≠ '\ufeff' := by
    cases root with
    | cons a root =>
        obtain ⟨c, tail, hkey, hc⟩ := (h a List.mem_cons_self).eq_cons
        exact ⟨c, _, by simp [writeDocument, writeAssignments, hkey]; rfl, Text.ne_of_kind hc (by decide)⟩
    | nil =>
        cases tables with
        | nil => exact ⟨'\n', [], rfl, by decide⟩
        | cons t tables => exact ⟨'\n', _, by simp [writeDocument, writeAssignments]; rfl, by decide⟩
  obtain ⟨c, tail, hdocument, hc⟩ := hhead
  rw [hdocument]
  simp [dropMark, hc]

/-- A document with bare keys, none of them twice in a table, is read as the tree of what it writes. -/
theorem read?_writeDocument (hkeys : BareKeys (root.map Prod.fst ++ tables.map Prod.fst))
    (htables : ∀ t ∈ tables, BareKeys (t.2.map Prod.fst)) :
    read? (String.ofList (writeDocument root tables)) =
      some (documentTree (.ofValues root) (tables.map fun t => (t.1, .ofValues t.2))) := by
  have hbare : (∀ a ∈ root, BareKey a.1) ∧ ∀ t ∈ tables, BareKey t.1 ∧ ∀ a ∈ t.2, BareKey a.1 := by
    refine ⟨fun a ha => hkeys.1 _ (List.mem_append_left _ (List.mem_map_of_mem ha)), fun t ht => ?_⟩
    exact ⟨hkeys.1 _ (List.mem_append_right _ (List.mem_map_of_mem ht)),
      fun a ha => (htables t ht).1 _ (List.mem_map_of_mem ha)⟩
  have hreads := (reads_writeAssignments hbare.1).append (reads_tables hbare.2)
  have hstatements := readStatements_of_reads hreads
  have hdistinct : ((Bindings.ofValues root).map Prod.fst ++
      (tables.map fun t => (t.1, Bindings.ofValues t.2)).map Prod.fst).Nodup := by
    rw [fst_ofValues, List.map_map]
    exact hkeys.2
  have hbound : ∀ t ∈ tables.map fun t => (t.1, Bindings.ofValues t.2), (t.2.map Prod.fst).Nodup := by
    intro t ht
    obtain ⟨u, hu, rfl⟩ := List.mem_map.mp ht
    rw [fst_ofValues]
    exact (htables u hu).2
  have htree := treeOf?_statements hdistinct hbound
  have hdocument : writeDocument root tables = (writeAssignments root ++
      tables.flatMap fun t => headerLines t.1 ++ writeAssignments t.2) ++ ['\n'] := rfl
  rw [read?, String.toList_ofList, dropMark_writeDocument hbare.1, hdocument]
  simp only [hstatements, Option.bind_some, htree]

end CycleWatch.Toml
