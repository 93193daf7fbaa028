import CycleWatch.Proofs.Metric.Spelling
/-!
# What a line can report

A token is cut at commas and at its first `=`, so no name in a sample has either of them in it
(`separatorFree_of_readLine`). The other way round, a line can report any values of any metrics whose
names a token can carry (`readLine_reportLine`).
-/
namespace CycleWatch.Metric

/-- The line with one token for each metric. -/
def reportLine (bindings : List (String × Int64)) : String :=
  String.ofList (Text.join ',' (bindings.map fun b => (writeToken b.1 b.2).toList))

variable {family name : String}

/-! ## Which names are read -/

theorem chars_of_readToken {token : List Char} {value : Int64}
    (h : readToken token = .ok (name, value)) :
    (∀ c ∈ name.toList, c ∈ token) ∧ '=' ∉ name.toList := by
  rw [readToken] at h
  split at h
  case h_1 => cases h
  case h_2 before after hcut =>
    obtain ⟨rfl, hequals⟩ := Text.eq_of_cutAtFirst hcut
    dsimp only at h
    split at h
    · cases h
    · split at h
      case h_2 => cases h
      case h_1 =>
        cases h
        rw [String.toList_ofList]
        exact ⟨fun c hc => List.mem_append_left _ (Text.mem_of_mem_trimChars hc),
          fun hc => hequals (Text.mem_of_mem_trimChars hc)⟩

theorem forall_of_readTokens {p : String → Prop} {family : List Char} {tokens : List (List Char)}
    {sample result : Sample} (h : readTokens family tokens sample = .ok result)
    (htoken : ∀ token ∈ tokens, ∀ k value, readToken token = .ok (k, value) → p k)
    (hsample : ∀ k, sample.contains k = true → p k) :
    ∀ k, result.contains k = true → p k := by
  -- The sample grows with each token, so what is said of its names is carried along.
  induction tokens generalizing sample with
  | nil =>
    cases h
    exact hsample
  | cons token rest ih =>
    obtain ⟨hfirst, hrest⟩ := List.forall_mem_cons.mp htoken
    rw [readTokens] at h
    split at h
    case isFalse => exact ih h hrest hsample
    case isTrue =>
      split at h
      case h_2 => cases h
      case h_1 key value hread =>
        refine ih h hrest fun k hk => ?_
        rcases Dict.contains_insert.mp hk with rfl | hk
        · exact hfirst _ _ hread
        · exact hsample k hk

/-- What holds of every name that a part of the line can give holds of the names in the sample. -/
theorem forall_of_readLine {p : String → Prop} {line : Option String} {sample : Sample}
    (h : readLine family line = .ok sample)
    (hpart : ∀ text ∈ line, ∀ part ∈ Text.pieces ',' text.toList, ∀ k : String,
      (∀ c ∈ k.toList, c ∈ part) → '=' ∉ k.toList → p k) :
    ∀ k, sample.contains k = true → p k := by
  have hempty : ∀ k, (Dict.empty : Sample).contains k = true → p k := by
    intro k hk
    cases hk
  cases line with
  | none =>
    cases h
    exact hempty
  | some line =>
    refine forall_of_readTokens h (fun token htoken k value hread => ?_) hempty
    obtain ⟨part, hmem, rfl⟩ := List.mem_map.mp htoken
    obtain ⟨hchars, hequals⟩ := chars_of_readToken hread
    exact hpart line rfl part hmem k (fun c hc => Text.mem_of_mem_trimChars (hchars c hc)) hequals

/-- The names in a sample have no separators in them. -/
theorem separatorFree_of_readLine {line : Option String} {sample : Sample}
    (h : readLine family line = .ok sample) :
    ∀ k, sample.contains k = true → SeparatorFree k :=
  forall_of_readLine h fun _ _ _ hpart _ hchars hequals =>
    ⟨fun hcomma => Text.not_mem_of_mem_pieces hpart (hchars _ hcomma), hequals⟩

/-- The names in a sample consist of characters of the line. -/
theorem mem_of_readLine {line : String} {sample : Sample}
    (h : readLine family (some line) = .ok sample) :
    ∀ k, sample.contains k = true → ∀ c ∈ k.toList, c ∈ line.toList :=
  forall_of_readLine h fun _ htext _ hpart _ hchars _ c hc => by
    rw [Option.mem_some_iff.mp htext]
    exact Text.mem_of_mem_pieces hpart (hchars c hc)

/-! ## What is written is read -/

theorem reportLine_eq_spell (bindings : List (String × Int64)) :
    reportLine bindings = spell (bindings.map fun b => .metric b.1 b.2 .none) := by
  rw [reportLine, spell, List.map_map]
  congr 2
  refine List.map_congr_left fun b _ => ?_
  simp [writeToken, Text.intText, Token.chars, Token.metricChars, Spacing.none]

theorem readLine_reportLine {bindings : List (String × Int64)}
    (h : ∀ b ∈ bindings, Carriable family b.1) :
    readLine family (some (reportLine bindings)) = .ok (Dict.ofList bindings) := by
  have hfits : ∀ token ∈ bindings.map fun b => Token.metric b.1 b.2 .none, token.Fits family := by
    intro token htoken
    obtain ⟨b, hb, rfl⟩ := List.mem_map.mp htoken
    exact ⟨h b hb, blank_none⟩
  rw [reportLine_eq_spell, readLine_spell hfits, filterMap_binding?]

/-! ## A line for a key set -/

/-- The line that reports zero for each name of a key set. -/
def keysLine (expected : KeySet) : String :=
  reportLine (expected.keys.map fun k => (k, 0))

/-- Names that tokens can carry can all be reported on one line. -/
theorem readLine_keysLine {expected : KeySet} (h : ∀ k ∈ expected.keys, Carriable family k) :
    ∃ sample, readLine family (some (keysLine expected)) = .ok sample ∧
      requireKeys sample expected = .ok () := by
  have hcarriable : ∀ b ∈ expected.keys.map fun k => (k, (0 : Int64)), Carriable family b.1 := by
    intro b hb
    obtain ⟨k, hk, rfl⟩ := List.mem_map.mp hb
    exact h k hk
  refine ⟨_, readLine_reportLine hcarriable, requireKeys_eq_ok_iff.mpr fun k hk => ?_⟩
  exact Dict.contains_insertAll.mpr (.inl ⟨(k, 0), List.mem_map.mpr ⟨k, hk, rfl⟩, rfl⟩)

theorem toList_keysLine (expected : KeySet) :
    (keysLine expected).toList =
      Text.join ',' (expected.keys.map fun k => k.toList ++ ['=', '0']) := by
  rw [keysLine, reportLine, String.toList_ofList, List.map_map]
  congr 1
  refine List.map_congr_left fun k _ => ?_
  have hzero : (Text.intText 0).toList = ['0'] := by
    show (String.ofList (Text.writeNat 0)).toList = ['0']
    rw [String.toList_ofList, Text.writeNat, if_pos (by decide)]
    rfl
  simp [writeToken, hzero]

theorem mem_of_mem_keysLine {expected : KeySet} {c : Char} (h : c ∈ (keysLine expected).toList) :
    c ∈ [',', '=', '0'] ∨ ∃ k ∈ expected.keys, c ∈ k.toList := by
  rw [toList_keysLine] at h
  rcases Text.mem_of_mem_join h with rfl | ⟨token, htoken, hc⟩
  · exact .inl List.mem_cons_self
  · obtain ⟨k, hk, rfl⟩ := List.mem_map.mp htoken
    rcases List.mem_append.mp hc with hc | hc
    · exact .inr ⟨k, hk, hc⟩
    · exact .inl (List.mem_cons_of_mem _ hc)

theorem equals_mem_keysLine {expected : KeySet} (h : expected.keys ≠ []) :
    '=' ∈ (keysLine expected).toList := by
  obtain ⟨k, rest, hkeys⟩ := List.exists_cons_of_ne_nil h
  rw [toList_keysLine, hkeys]
  exact Text.mem_join_of_mem List.mem_cons_self (List.mem_append_right _ List.mem_cons_self)

/-- Names that are all reported on one line have no separators in them. -/
theorem separatorFree_of_line {line : Option String} {sample : Sample} {expected : KeySet}
    (hread : readLine family line = .ok sample) (hkeys : requireKeys sample expected = .ok ()) :
    ∀ k ∈ expected.keys, SeparatorFree k :=
  fun k hk => separatorFree_of_readLine hread k (requireKeys_eq_ok_iff.mp hkeys k hk)

end CycleWatch.Metric
