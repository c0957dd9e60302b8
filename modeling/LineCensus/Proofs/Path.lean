import LineCensus.Path
import LineCensus.Proofs.Text.Lowercase
import LineCensus.Proofs.Text.Search

namespace LineCensus.Path

open Text

/-!
# Spellings of paths

* `normalize_ne_empty` — every path has a normal form with something in it.
* `suffix_cases` — what a suffix looks like.
* `slash_not_mem_extension` — the extension of a path is no path with directories.
-/

theorem build_ne_nil (root : Root) (ps : List (List Char)) : build root ps ≠ [] := by
  rw [build]
  split
  · exact List.cons_ne_nil _ _
  · assumption

/-- The normal form of a path is not empty; that of an empty one is the working directory. -/
theorem normalize_ne_empty (path : String) : normalize path ≠ "" := by
  intro h
  have hnil : normal path.toList = [] := by
    rw [← String.toList_ofList (l := normal path.toList)]
    exact congrArg String.toList h
  exact build_ne_nil _ _ hnil

/-- The components of a path have no slashes. -/
theorem slash_not_mem_of_mem_parts {s part : List Char} (h : part ∈ parts s) : '/' ∉ part :=
  not_mem_of_mem_splitAtChar (List.mem_filter.1 h).1

/-- The suffix of a name is made of a dot and of characters of the name. -/
theorem mem_of_mem_nameSuffix {name : List Char} {c : Char} (h : c ∈ nameSuffix name) :
    c = '.' ∨ c ∈ name := by
  rw [nameSuffix] at h
  split_ifs at h
  · rcases List.mem_cons.1 h with hdot | hext
    · exact .inl hdot
    · have hrun := (List.takeWhile_sublist _).mem (List.mem_reverse.1 hext)
      exact .inr (List.mem_reverse.1 hrun)
  · exact absurd h List.not_mem_nil

/-- A suffix is a dot and an extension, which has something in it but no dot. -/
theorem suffix_cases (path : List Char) :
    suffix path = [] ∨ ∃ ext, suffix path = '.' :: ext ∧ ext ≠ [] ∧ '.' ∉ ext := by
  rw [suffix, nameSuffix]
  generalize ((parts path).getLast?.getD []).reverse = name
  split_ifs with hext
  · simp only [Bool.and_eq_true, Bool.not_eq_true', List.isEmpty_eq_false_iff] at hext
    refine .inr ⟨_, rfl, hext.1, fun hdot => ?_⟩
    have hrun := List.mem_takeWhile_imp (List.mem_reverse.1 hdot)
    simp at hrun
  · exact .inl rfl

theorem slash_not_mem_suffix (path : List Char) : '/' ∉ suffix path := by
  intro h
  rcases mem_of_mem_nameSuffix h with hdot | hname
  · exact absurd hdot (by decide)
  · cases hlast : (parts path).getLast? with
    | none =>
      rw [hlast] at hname
      exact List.not_mem_nil hname
    | some part =>
      rw [hlast] at hname
      exact slash_not_mem_of_mem_parts (List.mem_of_getLast? hlast) hname

/-- The normal form of an extension has no slash that the extension has not. -/
theorem slash_mem_of_mem_normalizeExtension {ext : String}
    (h : '/' ∈ (normalizeExtension ext).toList) : '/' ∈ ext.toList := by
  rw [normalizeExtension, String.toList_ofList] at h
  have htrimmed := mem_of_mem_lower (by decide) h
  exact mem_of_mem_trim ((List.dropWhile_sublist _).mem htrimmed)

/-- **Extensions are no paths.**  The extension of a path has no slashes. -/
theorem slash_not_mem_extension (path : String) : '/' ∉ (extension path).toList := by
  intro h
  have hsuffix := slash_mem_of_mem_normalizeExtension h
  rw [String.toList_ofList] at hsuffix
  exact slash_not_mem_suffix _ hsuffix

end LineCensus.Path
