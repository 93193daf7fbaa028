import CycleWatch.Config.Source
import CycleWatch.Proofs.Text.Letter
import CycleWatch.Proofs.Text.Pieces

/-!
# Which files hold which format

The extension of a file is what follows the last dot of its name (`extension?_eq_some_iff`), in whatever
directory the file is (`lastName_append`). In any case of letters it tells the format: `toml` for TOML,
`json` or none at all for JSON; every other one is refused (`ofPath_eq`).
-/

namespace CycleWatch

namespace Files

variable {path extension : String} {directory name stem : List Char}

/-- The last name does not depend on the directory, which is empty or ends in a slash. -/
theorem lastName_append (hdirectory : ∀ c ∈ directory.getLast?, c = '/') (hslash : '/' ∉ name)
    (hname : name ≠ []) (hdot : name ≠ ['.']) :
    lastName (String.ofList (directory ++ name)) = name := by
  have hpieces : ∃ names, Text.pieces '/' (directory ++ name) = names ++ [name] := by
    rcases List.eq_nil_or_concat directory with rfl | ⟨before, c, rfl⟩
    · exact ⟨[], Text.pieces_of_not_mem hslash⟩
    · obtain rfl : c = '/' := hdirectory c (by simp)
      refine ⟨Text.pieces '/' before, ?_⟩
      rw [List.concat_eq_append, List.append_assoc, List.singleton_append, Text.pieces_append_sep,
        Text.pieces_of_not_mem hslash]
  obtain ⟨names, hnames⟩ := hpieces
  simp [lastName, hnames, hname, hdot]

/-- The extension is what follows the last dot of the last name, unless nothing stands before that dot
or the name leads to the directory above. -/
theorem extension?_eq_some_iff :
    extension? path = some extension ↔
      lastName path ≠ ['.', '.'] ∧ '.' ∉ extension.toList ∧
        ∃ stem, stem ≠ [] ∧ lastName path = stem ++ '.' :: extension.toList := by
  unfold extension?
  split
  case isTrue habove => simp [habove]
  case isFalse hname =>
    constructor
    · intro h
      by_cases hdot : '.' ∈ lastName path
      · obtain ⟨stem, rest, hcut, hrest⟩ := Text.exists_eq_append_of_mem hdot
        rw [hcut, Text.cutAtLast_append hrest] at h
        cases stem with
        | nil => cases h
        | cons c stem =>
            obtain rfl := Option.some.inj h
            rw [String.toList_ofList]
            exact ⟨hname, hrest, c :: stem, List.cons_ne_nil c stem, hcut⟩
      · rw [Text.cutAtLast_of_not_mem hdot] at h
        cases h
    · rintro ⟨-, hextension, stem, hstem, hcut⟩
      rw [hcut, Text.cutAtLast_append hextension]
      simp [hstem]

theorem extension?_append (hdirectory : ∀ c ∈ directory.getLast?, c = '/') (hstem : stem ≠ [])
    (hslash : '/' ∉ stem) (hextension : ∀ c ∈ extension.toList, c ≠ '.' ∧ c ≠ '/')
    (hempty : extension.toList ≠ []) :
    extension? (String.ofList (directory ++ (stem ++ '.' :: extension.toList))) =
      some extension := by
  obtain ⟨first, rest, rfl⟩ := List.exists_cons_of_ne_nil hstem
  obtain ⟨c, others, hothers⟩ := List.exists_cons_of_ne_nil hempty
  have hname : lastName (String.ofList (directory ++ (first :: rest ++ '.' :: extension.toList))) =
      first :: rest ++ '.' :: extension.toList := by
    refine lastName_append hdirectory ?_ (by simp) (by simp)
    simp only [List.mem_append, List.mem_cons, not_or] at hslash ⊢
    exact ⟨hslash, by decide, fun hmem => (hextension _ hmem).2 rfl⟩
  refine extension?_eq_some_iff.mpr ⟨?_, fun hmem => (hextension _ hmem).1 rfl, _, hstem, hname⟩
  rw [hname, hothers]
  cases rest <;> simp

end Files

namespace Config

open Text (InAnyCase lowerChars)

variable {path extension : String} {directory stem : List Char}

/-- How the extension of a path is taken. -/
theorem ofPath_eq (path : String) :
    Format.ofPath path =
      match Files.extension? path with
      | none => .ok .json
      | some extension =>
        if InAnyCase extension "json" then .ok .json
        else if InAnyCase extension "toml" then .ok .toml
        else .error <|
          (Fault.expected (.config "unsupported_format")
            "unsupported config format; use .json or .toml").withContext
              "extension" (String.ofList (lowerChars extension.toList)) := by
  cases hextension : Files.extension? path with
  | none => simp [Format.ofPath, hextension]
  | some extension =>
      have hjson : String.ofList (lowerChars extension.toList) = "json" ↔ InAnyCase extension "json" :=
        Text.ofList_lowerChars_eq_iff (by simp [Text.isUpper_eq_false_iff])
      have htoml : String.ofList (lowerChars extension.toList) = "toml" ↔ InAnyCase extension "toml" :=
        Text.ofList_lowerChars_eq_iff (by simp [Text.isUpper_eq_false_iff])
      simp only [Format.ofPath, hextension, Option.map_some, ← hjson, ← htoml]
      split
      case h_1 h => cases h
      case h_2 h => simp [Option.some.inj h]
      case h_3 h => simp [Option.some.inj h]
      case h_4 word hnotJson hnotToml h =>
        cases h
        rw [if_neg hnotJson, if_neg hnotToml]

/-- The extension of the files of a format. -/
def Format.ending : Format → String
  | .json => "json"
  | .toml => "toml"

/-- Whatever the directory and the rest of the name, a file with the extension of a format in any case
is taken to hold that format. -/
theorem ofPath_append {format : Format} (hdirectory : ∀ c ∈ directory.getLast?, c = '/')
    (hstem : stem ≠ []) (hslash : '/' ∉ stem) (h : InAnyCase extension format.ending) :
    Format.ofPath (String.ofList (directory ++ (stem ++ '.' :: extension.toList))) = .ok format := by
  have hending : ∀ d ∈ format.ending.toList,
      ¬ Text.SameButCase '.' d ∧ ¬ Text.SameButCase '/' d := by
    cases format <;> simp [Format.ending, Text.SameButCase]
  have hletters : ∀ c ∈ extension.toList, c ≠ '.' ∧ c ≠ '/' := by
    intro c hc
    obtain ⟨d, hd, hsame⟩ := Text.exists_mem_of_sameButCase h hc
    constructor
    · rintro rfl
      exact (hending d hd).1 hsame
    · rintro rfl
      exact (hending d hd).2 hsame
  have hempty : extension.toList ≠ [] := by
    intro hnil
    rw [InAnyCase, hnil, List.forall₂_nil_left_iff] at h
    cases format <;> cases h
  rw [ofPath_eq, Files.extension?_append hdirectory hstem hslash hletters hempty]
  cases format with
  | json => exact if_pos h
  | toml =>
      have hother : ¬ InAnyCase extension "json" := by
        intro hjson
        have htext : String.ofList (lowerChars extension.toList) = "toml" :=
          (Text.ofList_lowerChars_eq_iff (by simp [Text.isUpper_eq_false_iff])).mpr h
        rw [(Text.ofList_lowerChars_eq_iff (by simp [Text.isUpper_eq_false_iff])).mpr hjson] at htext
        exact absurd htext (by decide)
      exact (if_neg hother).trans (if_pos h)

example : Format.ofPath "conf.d/harness.v2.Toml" = .ok .toml := by decide

end Config

end CycleWatch
