import LineCensus.Proofs.Registry.Listing
import LineCensus.Proofs.Registry.Owners
import Mathlib.Data.Nat.Find

namespace LineCensus.Registry

open Text

/-!
# Redefined languages

A definition takes the place of the earlier one of its name.  The earlier one is looked for under
that name, though, where by then a third definition may stand that has the name as an alias.  Then
the earlier one keeps what it claims besides its name:

* `Gone` — no lookup finds a definition, and no listing shows it.
* `Borrows` — a definition goes by a name that is another's.
* `displaced_or_borrows` — the next definition to go by a name displaces the one before, or borrows.
* `gone_of_redefined` — a definition is gone after the next of its name, unless another one has
  borrowed the name in between; and what it means to be gone in any case.
* `owner_shown` — the owner of an extension is found by its name and listed with the extension,
  unless a later definition borrows the name.
-/

variable {ls : List Language} {d e : Language} {i j : Nat} {c : Claimant}

/-- No lookup finds the definition, and no listing shows it. -/
structure Gone (r : Registry) (c : Claimant) : Prop where
  get?_ne : ∀ name, r.get? name ≠ some c
  forExtension?_ne : ∀ ext, r.forExtension? ext ≠ some c
  resolve_ne : ∀ path overrides, r.resolve path overrides ≠ .ok (some c)
  not_mem_all : c ∉ r.all
  not_mem_extensions : ∀ ext, (ext, c) ∉ r.extensions

/-- The definition at place `k` goes by `key`, but is called otherwise. -/
def Borrows (ls : List Language) (key : String) (k : Nat) : Prop :=
  ∃ m, ls[k]? = some m ∧ GoesBy key m ∧ lowercase m.name ≠ key

/-- After a definition that is called `key`, none borrows that name. -/
def NameKept (ls : List Language) (key : String) : Prop :=
  ∀ i k d, i < k → ls[i]? = some d → lowercase d.name = key → ¬ Borrows ls key k

/-- For every name and every extension of the definition at place `i` there is a later definition
    that claims it too. -/
def Overtaken (ls : List Language) (i : Nat) (d : Language) : Prop :=
  (∀ key, GoesBy key d → ∃ k m, i < k ∧ ls[k]? = some m ∧ GoesBy key m) ∧
    ∀ ext, Claims ext d → ∃ k m, i < k ∧ ls[k]? = some m ∧ Claims ext m

/-! ### Names and their owners -/

theorem goesBy_name (d : Language) : GoesBy (lowercase d.name) d := by
  rw [GoesBy, Language.lookupNames, mem_dedup, List.map_cons]
  exact List.mem_cons_self

theorem exists_name_of_goesBy {key : String} (h : GoesBy key d) : ∃ name, lowercase name = key := by
  rw [GoesBy, Language.lookupNames, mem_dedup, List.mem_map] at h
  obtain ⟨name, -, hname⟩ := h
  exact ⟨name, hname⟩

/-- Of the definitions after one, the first that goes by its name displaces it or borrows the
    name. -/
theorem displaced_or_borrows (hd : ls[i]? = some d) (he : ls[j]? = some e) (hij : i < j)
    (hgoes : GoesBy (lowercase d.name) e) :
    Displaced ls i ∨ ∃ k, i < k ∧ k ≤ j ∧ Borrows ls (lowercase d.name) k := by
  classical
  have hexists : ∃ k, i < k ∧ ∃ m, ls[k]? = some m ∧ GoesBy (lowercase d.name) m :=
    ⟨j, hij, e, he, hgoes⟩
  obtain ⟨k, ⟨hik, m, hm, hmgoes⟩, hfirst⟩ := Nat.findX hexists
  have hkj : k ≤ j := not_lt.1 fun hjk => hfirst j hjk ⟨hij, e, he, hgoes⟩
  by_cases hname : lowercase m.name = lowercase d.name
  · refine .inl ⟨k, hik, d, m, hd, hm, hname ▸ goesBy_name d, fun n m' hin hnk hm' hgoes' => ?_⟩
    exact hfirst n hnk ⟨hin, m', hm', hname ▸ hgoes'⟩
  · exact .inr ⟨k, hik, hkj, m, hm, hmgoes, hname⟩

/-- A definition is displaced by the next one of its name, unless the name is borrowed between. -/
theorem displaced_of_redefined (hd : ls[i]? = some d) (he : ls[j]? = some e) (hij : i < j)
    (hname : lowercase d.name = lowercase e.name)
    (hkept : ∀ k, i < k → k < j → ¬ Borrows ls (lowercase d.name) k) : Displaced ls i := by
  rcases displaced_or_borrows hd he hij (hname ▸ goesBy_name e) with h | ⟨k, hik, hkj, hborrows⟩
  · exact h
  · rcases hkj.lt_or_eq with hlt | rfl
    · exact absurd hborrows (hkept k hik hlt)
    · -- The next definition of the name does not borrow it.
      obtain ⟨m, hm, -, hother⟩ := hborrows
      rw [he, Option.some.injEq] at hm
      exact absurd (hm ▸ hname.symm) hother

/-! ### Definitions that are gone -/

/-- In the registry of a list, a definition is gone if it holds nothing. -/
theorem gone_iff : Gone (build ls) c ↔
    (∀ key, ¬ Holds (GoesBy key) ls c) ∧ ∀ ext, ¬ Holds (Claims ext) ls c := by
  have hreflects := reflects_build ls
  constructor
  · intro h
    refine ⟨fun key hholds => ?_, fun ext hholds => ?_⟩
    · obtain ⟨name, rfl⟩ := exists_name_of_goesBy hholds.1.2.1
      exact h.get?_ne name ((hreflects.get?_names _ c).2 hholds)
    · exact h.not_mem_extensions ext ((hreflects.mem_extensions ext c).2 hholds)
  · rintro ⟨hnames, hextensions⟩
    have hget (name : String) : (build ls).get? name ≠ some c := fun h =>
      hnames _ ((hreflects.get?_names _ c).1 h)
    have hfor (ext : String) : (build ls).forExtension? ext ≠ some c := fun h =>
      hextensions _ ((hreflects.get?_extensions _ c).1 h)
    refine
      { get?_ne := hget
        forExtension?_ne := hfor
        resolve_ne := fun path overrides h => ?_
        not_mem_all := fun h => ?_
        not_mem_extensions := fun ext h => hextensions ext ((hreflects.mem_extensions ext c).1 h) }
    · rcases found_of_resolve h with ⟨name, h⟩ | ⟨ext, h⟩
      · exact hget name h
      · exact hfor ext h
    · obtain ⟨key, hkey⟩ := mem_names_of_mem_all h
      exact hnames key ((hreflects.mem_names key c).1 hkey)

/-- A definition is not the last one with a property it has if a later one has it. -/
theorem not_lastWith_iff {p : Language → Prop} (hd : ls[i]? = some d) :
    ¬ LastWith p ls i d ↔ (p d → ∃ k m, i < k ∧ ls[k]? = some m ∧ p m) := by
  simp only [LastWith, hd, true_and, not_and, not_forall, not_not, exists_prop]

/-- A definition is gone if it is displaced, or else if all its claims are overtaken. -/
theorem gone_iff_displaced_or_overtaken (hd : ls[i]? = some d) :
    Gone (build ls) ⟨i, d⟩ ↔ Displaced ls i ∨ Overtaken ls i d := by
  by_cases hdisplaced : Displaced ls i
  · simp only [gone_iff, Holds, hdisplaced, not_true_eq_false, and_false, not_false_eq_true,
      implies_true, and_self, true_or]
  · simp only [gone_iff, Holds, hdisplaced, not_false_eq_true, and_true, false_or, Overtaken,
      not_lastWith_iff hd]

/-- **Redefined, gone.**  A definition is not found by its name if a later one has the same name.
    It is gone altogether if no other definition borrows the name in between.  In any case it is
    gone exactly if it is displaced or all its claims are overtaken. -/
theorem gone_of_redefined (hd : ls[i]? = some d) (he : ls[j]? = some e) (hij : i < j)
    (hname : lowercase d.name = lowercase e.name) :
    (build ls).get? d.name ≠ some ⟨i, d⟩ ∧
      ((∀ k, i < k → k < j → ¬ Borrows ls (lowercase d.name) k) → Gone (build ls) ⟨i, d⟩) ∧
        (Gone (build ls) ⟨i, d⟩ ↔ Displaced ls i ∨ Overtaken ls i d) := by
  have hiff := gone_iff_displaced_or_overtaken hd
  refine ⟨fun h => ?_, fun hkept => ?_, hiff⟩
  · have hholds := ((reflects_build ls).get?_names _ _).1 h
    exact hholds.1.2.2 j e hij he (hname ▸ goesBy_name e)
  · exact hiff.2 (.inl (displaced_of_redefined hd he hij hname hkept))

/-- `gone_of_redefined` with a definition of another name between the two. -/
theorem gone_of_redefined_spelled_otherwise :
    let old : Language := { name := "Rust", extensions := ["rs"] }
    let other : Language := { name := "C", extensions := ["c"] }
    let new : Language := { name := "rust", aliases := ["oxide"], extensions := ["rs2"] }
    lowercase old.name = lowercase new.name ∧ Gone (build [old, other, new]) ⟨0, old⟩ := by
  intro old other new
  have hname : lowercase old.name = lowercase new.name := by decide +kernel
  refine ⟨hname, (gone_of_redefined (i := 0) (j := 2) rfl rfl (by decide) hname).2.1 ?_⟩
  rintro k h0 h2 ⟨m, hm, hgoes, -⟩
  obtain rfl : k = 1 := by omega
  cases hm
  exact absurd hgoes (by rw [GoesBy]; decide +kernel)

/-- **Redefined, and still there.**  Behind a definition that has borrowed its name, the earlier
    definition keeps its extension when it is redefined. -/
theorem redefined_not_gone :
    let old : Language := { name := "Rust", extensions := ["rs"] }
    let other : Language := { name := "Ferris", aliases := ["rust"] }
    let new : Language := { name := "Rust", extensions := ["rst"] }
    lowercase old.name = lowercase new.name ∧
      (build [old, other, new]).forExtension? "rs" = some ⟨0, old⟩ ∧
        ¬ Gone (build [old, other, new]) ⟨0, old⟩ := by
  intro old other new
  have hfound : (build [old, other, new]).forExtension? "rs" = some ⟨0, old⟩ := by decide +kernel
  exact ⟨rfl, hfound, fun h => h.forExtension?_ne "rs" hfound⟩

/-! ### Owners of extensions -/

/-- The owner of an extension is found by its name if no later definition borrows that. -/
theorem get?_owner_iff {ext : String} (h : Holds (Claims ext) ls c) :
    (build ls).get? c.language.name = some c ↔
      ∀ k, c.index < k → ¬ Borrows ls (lowercase c.language.name) k := by
  refine ((reflects_build ls).get?_names _ c).trans ⟨?_, fun hkept => ⟨?_, h.2⟩⟩
  · rintro hname k hk ⟨m, hm, hgoes, -⟩
    exact hname.1.2.2 k m hk hm hgoes
  · refine ⟨h.1.1, goesBy_name c.language, fun j m hj hm hgoes => ?_⟩
    rcases displaced_or_borrows h.1.1 hm hj hgoes with hdisplaced | ⟨k, hk, -, hborrows⟩
    · exact h.2 hdisplaced
    · exact hkept k hk hborrows

/-- While its name is kept, a definition that is found by it is the only one of that name. -/
theorem eq_of_name_eq {c' : Claimant} {key : String}
    (hkept : NameKept ls (lowercase c.language.name))
    (h : Holds (GoesBy (lowercase c.language.name)) ls c) (h' : Holds (GoesBy key) ls c')
    (hname : c'.language.name = c.language.name) : c' = c := by
  rcases lt_trichotomy c'.index c.index with hlt | heq | hgt
  · -- An earlier one would be displaced.
    refine absurd (displaced_of_redefined h'.1.1 h.1.1 hlt (congrArg lowercase hname) ?_) h'.2
    rw [hname]
    exact fun k hk _ => hkept _ k _ hk h'.1.1 (congrArg lowercase hname)
  · exact h'.eq_of_index_eq h heq
  · -- A later one would be found in its place.
    exact absurd (hname ▸ goesBy_name c'.language) (h.1.2.2 _ _ hgt h'.1.1)

/-- **Owners are shown.**  The definition that owns an extension is found by its own name exactly if
    no later definition borrows that name.  Then the name is listed, and the extension with it.  If
    no definition borrows the name after one that is called so, it is the owner that is listed.  And
    without overrides the language of a path is the owner of its extension. -/
theorem owner_shown (ls : List Language) :
    (∀ ext c, (build ls).extensions.get? ext = some c →
      ((build ls).get? c.language.name = some c ↔
        ∀ k, c.index < k → ¬ Borrows ls (lowercase c.language.name) k) ∧
      ((build ls).get? c.language.name = some c →
        ∃ c' ∈ (build ls).all, c'.language.name = c.language.name ∧ ext ∈ (build ls).owned c') ∧
      (NameKept ls (lowercase c.language.name) → (build ls).get? c.language.name = some c ∧
        c ∈ (build ls).all ∧ ext ∈ (build ls).owned c)) ∧
    ∀ path c, (build ls).resolve path [] = .ok (some c) →
      (build ls).extensions.get?
        (normalizeExtension (Path.extension (Path.normalize path))) = some c := by
  have hreflects := reflects_build ls
  refine ⟨fun ext c h => ?_, fun path c h => ?_⟩
  · have hiff := get?_owner_iff ((hreflects.get?_extensions ext c).1 h)
    have howned {c' : Claimant} (hname : c'.language.name = c.language.name) :
        ext ∈ (build ls).owned c' := mem_owned.2 ⟨c, Table.mem_of_get? h, hname.symm⟩
    refine ⟨hiff, fun hfound => ?_, fun hkept => ?_⟩
    · obtain ⟨c', hlisted, hname⟩ := exists_mem_all (Table.mem_of_get? hfound)
      exact ⟨c', hlisted, hname, howned hname⟩
    · have hfound := hiff.2 fun k hk => hkept c.index k _ hk
        ((hreflects.get?_extensions ext c).1 h).1.1 rfl
      have hholds := (hreflects.get?_names _ c).1 hfound
      obtain ⟨c', hlisted, hname⟩ := exists_mem_all (Table.mem_of_get? hfound)
      obtain ⟨key, hmem⟩ := mem_names_of_mem_all hlisted
      have heq := eq_of_name_eq hkept hholds ((hreflects.mem_names key c').1 hmem) hname
      exact ⟨hfound, heq ▸ hlisted, howned rfl⟩
  · rw [resolve_nil, Except.ok.injEq] at h
    split_ifs at h
    exact h

/-- `owner_shown` for two definitions, of which the second has the extension of the first. -/
theorem owner_shown_reassigned :
    let first : Language := { name := "C", extensions := ["h"] }
    let second : Language := { name := "C++", aliases := ["cpp"], extensions := ["h"] }
    let r := build [first, second]
    r.extensions.get? "h" = some ⟨1, second⟩ ∧ r.resolve "src/a.H" [] = .ok (some ⟨1, second⟩) ∧
      r.get? "C++" = some ⟨1, second⟩ ∧ ⟨1, second⟩ ∈ r.all ∧ "h" ∈ r.owned ⟨1, second⟩ := by
  intro first second r
  have hresolve : r.resolve "src/a.H" [] = .ok (some ⟨1, second⟩) := by
    rw [resolve_nil]
    exact congrArg Except.ok (by decide +kernel)
  have hshown := owner_shown [first, second]
  have howner : r.extensions.get? "h" = some ⟨1, second⟩ := hshown.2 "src/a.H" _ hresolve
  refine ⟨howner, hresolve, (hshown.1 "h" _ howner).2.2 ?_⟩
  rintro i k d hik - - ⟨m, hm, -, hother⟩
  have hlength : k < 2 := lt_length_of_getElem? hm
  obtain rfl : k = 1 := by omega
  cases hm
  exact hother rfl

/-- **An owner that is not shown.**  A definition with the name of another as an alias takes the
    name, but not the extensions: these lead to a language that no name leads to and that is not in
    the list. -/
theorem owner_not_shown :
    let first : Language := { name := "A", extensions := ["x"] }
    let second : Language := { name := "B", aliases := ["a"] }
    let r := build [first, second]
    r.extensions.get? "x" = some ⟨0, first⟩ ∧ r.get? "A" = some ⟨1, second⟩ ∧
      r.all = [⟨1, second⟩] := by
  intro first second r
  exact ⟨by decide +kernel, by decide +kernel, by decide +kernel⟩

end LineCensus.Registry
