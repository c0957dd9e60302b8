import LineCensus.Registry
import LineCensus.Proofs.Table
import LineCensus.Proofs.Text.Order

namespace LineCensus.Registry

open Text

/-!
# What a registry shows

Languages come out of a registry by name, by extension, by path and in the list of all languages:

* `found_of_resolve` — the language of a path is that of some name or of some extension, and
  `resolve_nil` of its own extension if there are no overrides.
* `mem_all_iff` — of the languages with one name, the list has the one whose entry is the first.
* `exists_mem_all` — the list has every name of a language that is found under some name.
* `mem_owned` — the extensions that are shown for a language are those of all definitions with its
  name.
-/

variable {r : Registry} {c : Claimant}

deriving instance DecidableEq for Claimant

/-- What the file at a path is taken for is found under a name or under an extension. -/
theorem found_of_resolve {path : String} {overrides : Overrides}
    (h : r.resolve path overrides = .ok (some c)) :
    (∃ name, r.get? name = some c) ∨ ∃ ext, r.forExtension? ext = some c := by
  rw [resolve] at h
  cases hoverride : overrideFor? overrides path with
  | some e =>
    cases hname : r.get? e.2 with
    | some found =>
      simp only [hoverride, hname, Except.ok.injEq] at h
      exact .inl ⟨e.2, hname.trans h⟩
    | none => simp only [hoverride, hname, reduceCtorEq] at h
  | none =>
    simp only [hoverride, Except.ok.injEq] at h
    split_ifs at h
    exact .inr ⟨_, h⟩

/-- Without overrides the extension decides. -/
theorem resolve_nil (r : Registry) (path : String) :
    r.resolve path [] =
      .ok (if (Path.extension (Path.normalize path)).isEmpty then none
        else r.forExtension? (Path.extension (Path.normalize path))) := by
  have hnone : overrideFor? [] path = none := by simp [overrideFor?, Table.get?]
  rw [resolve, hnone]

/-! ### The list of all languages -/

/-- The definitions in the order of their entries by name, each under the name it is called by. -/
def entriesByName (r : Registry) : Table Claimant :=
  r.names.map fun e => (e.2.language.name, e.2)

theorem mem_entriesByName {name : String} :
    (name, c) ∈ r.entriesByName ↔ c.language.name = name ∧ ∃ key, (key, c) ∈ r.names := by
  rw [entriesByName, List.mem_map]
  constructor
  · rintro ⟨⟨key, c'⟩, hmem, heq⟩
    cases heq
    exact ⟨rfl, key, hmem⟩
  · rintro ⟨rfl, key, hmem⟩
    exact ⟨(key, c), hmem, rfl⟩

/-- **The list of all languages.**  It has the definitions that come first among those of their
    name. -/
theorem mem_all_iff : c ∈ r.all ↔ r.entriesByName.get? c.language.name = some c := by
  have hfirsts : r.names.foldl (fun t e => Table.insertNew t e.2.language.name e.2) [] =
      r.entriesByName.foldl (fun t e => Table.insertNew t e.1 e.2) [] := by
    simp only [entriesByName, List.foldl_map]
  have hfound (name : String) (c : Claimant) :
      (name, c) ∈ r.entriesByName.foldl (fun t e => Table.insertNew t e.1 e.2) [] ↔
        r.entriesByName.get? name = some c := by
    rw [← Table.get?_eq_some_iff (Table.nodup_keys_foldl_insertNew _),
      Table.get?_foldl_insertNew]
    rfl
  rw [all, mem_sortOn, hfirsts, List.mem_map]
  constructor
  · rintro ⟨⟨name, c'⟩, hmem, rfl⟩
    have hname := (hfound name c').1 hmem
    exact (mem_entriesByName.1 (Table.mem_of_get? hname)).1 ▸ hname
  · exact fun h => ⟨(c.language.name, c), (hfound _ c).2 h, rfl⟩

/-- A language in the list is found under some name. -/
theorem mem_names_of_mem_all (h : c ∈ r.all) : ∃ key, (key, c) ∈ r.names :=
  (mem_entriesByName.1 (Table.mem_of_get? (mem_all_iff.1 h))).2

/-- The list has every name of a language that is found under some name. -/
theorem exists_mem_all {key : String} (h : (key, c) ∈ r.names) :
    ∃ c' ∈ r.all, c'.language.name = c.language.name := by
  have hkey : c.language.name ∈ r.entriesByName.map (·.1) :=
    List.mem_map.2 ⟨_, mem_entriesByName.2 ⟨rfl, key, h⟩, rfl⟩
  obtain ⟨c', hc'⟩ := Option.isSome_iff_exists.1 (Table.isSome_get?_iff.2 hkey)
  have hname := (mem_entriesByName.1 (Table.mem_of_get? hc')).1
  exact ⟨c', mem_all_iff.2 (hname ▸ hc'), hname⟩

/-- The extensions that are shown for a language are those of the definitions with its name. -/
theorem mem_owned {ext : String} :
    ext ∈ r.owned c ↔ ∃ c', (ext, c') ∈ r.extensions ∧ c'.language.name = c.language.name := by
  rw [owned, mem_sorted, List.mem_map]
  constructor
  · rintro ⟨⟨_, c'⟩, hmem, rfl⟩
    rw [List.mem_filter, beq_iff_eq] at hmem
    exact ⟨c', hmem⟩
  · rintro ⟨c', hmem, hname⟩
    exact ⟨(ext, c'), List.mem_filter.2 ⟨hmem, beq_iff_eq.2 hname⟩, rfl⟩

end LineCensus.Registry
