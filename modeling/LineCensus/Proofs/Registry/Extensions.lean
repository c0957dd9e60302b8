import LineCensus.Proofs.Path
import LineCensus.Proofs.Registry.Listing
import LineCensus.Proofs.Registry.Owners

namespace LineCensus.Registry

open Text

/-!
# Extensions of paths and of definitions

A definition claims the normal form of an extension, and an extension that is asked for is put in
its normal form once.  The language of a path is looked for under the normal form of its extension,
which is put in normal form a second time then.  This makes a difference:

* `normalizeExtension_blanks_append` — blanks in front of an extension without a dot are lost.
* `normalizeExtension_dot_cons` — blanks behind the dot of an extension are kept.
* `Padded` — a suffix with a blank right behind its dot.
* `resolve_suffix` — a path has the owner of what is left of its suffix without the dot and the
  blanks, which is the owner of the suffix if that is not padded.
-/

/-! ### Normal forms of extensions -/

theorem dropWhile_dot {s : List Char} (h : '.' ∉ s) : s.dropWhile (· = '.') = s := by
  apply dropWhile_of_tight
  apply tight_of_forall
  intro c hc
  rw [decide_eq_false_iff_not]
  rintro rfl
  exact h hc

/-- **No dot in front.**  The normal form of an extension is the extension in lowercase, without the
    blanks in front of it. -/
theorem normalizeExtension_blanks_append {blanks ext : List Char}
    (hblanks : ∀ c ∈ blanks, isBlank c = true) (h : Tight isBlank ext) (hdot : '.' ∉ ext) :
    normalizeExtension (String.ofList (blanks ++ ext)) = String.ofList (lower ext) := by
  have htrim : trim (blanks ++ ext) = ext := by
    have hall := trim_append hblanks h (List.forall_mem_nil _)
    rwa [List.append_nil] at hall
  rw [normalizeExtension, String.toList_ofList, htrim, dropWhile_dot hdot]

section Suffix

variable {ext : List Char}

/-- A dot with blanks behind it is trimmed to the dot. -/
theorem trim_dot_cons_of_blank (h : trim ext = []) : trim ('.' :: ext) = ['.'] := by
  obtain ⟨back, hext, hback⟩ := exists_trim ext
  have hblank : ∀ c ∈ ext, isBlank c = true := by
    intro c hc
    rw [hext, h, List.append_nil, List.mem_append] at hc
    exact hc.elim List.mem_takeWhile_imp (hback c)
  have htight : Tight isBlank ['.'] :=
    tight_of_forall (List.forall_mem_singleton.2 (by decide))
  exact trim_append (List.forall_mem_nil _) htight hblank

/-- Blanks between a dot and something else are not trimmed away. -/
theorem trim_dot_cons (h : trim ext ≠ []) :
    trim ('.' :: ext) = '.' :: (ext.takeWhile isBlank ++ trim ext) := by
  obtain ⟨back, hext, hback⟩ := exists_trim ext
  obtain ⟨c, rest, hcons⟩ := List.exists_cons_of_ne_nil h
  have htight : Tight isBlank ('.' :: (ext.takeWhile isBlank ++ trim ext)) := by
    constructor
    · intro d hd
      obtain rfl : '.' = d := by simpa using hd
      decide
    · intro d hd
      -- What comes last is the last of what is left without the dot.
      apply (tight_trim ext).last
      rw [← List.cons_append, List.getLast?_append, hcons] at hd
      rw [hcons]
      simpa using hd
  have hall := trim_append (List.forall_mem_nil _) htight hback
  rwa [List.nil_append, List.cons_append, ← hext] at hall

variable (hdot : '.' ∉ ext)
include hdot

theorem dot_not_mem_trim : '.' ∉ trim ext := fun h => hdot (mem_of_mem_trim h)

/-- **A dot in front.**  The normal form of an extension keeps the blanks behind the dot, unless
    there is nothing else. -/
theorem normalizeExtension_dot_cons :
    normalizeExtension (String.ofList ('.' :: ext)) =
      String.ofList (if trim ext = [] then [] else ext.takeWhile isBlank ++ lower (trim ext)) := by
  rw [normalizeExtension, String.toList_ofList]
  by_cases h : trim ext = []
  · rw [trim_dot_cons_of_blank h, if_pos h]
    rfl
  · have hdot' : '.' ∉ ext.takeWhile isBlank ++ trim ext := by
      rw [List.mem_append, not_or]
      exact ⟨fun hmem => hdot ((List.takeWhile_sublist _).mem hmem), dot_not_mem_trim hdot⟩
    rw [trim_dot_cons h, if_neg h, List.dropWhile_cons_of_pos (by decide), dropWhile_dot hdot',
      lower_blanks_append fun _ hc => List.mem_takeWhile_imp hc]

/-- Without the dot the blanks are lost. -/
theorem normalizeExtension_trim :
    normalizeExtension (String.ofList (trim ext)) = String.ofList (lower (trim ext)) := by
  have htrim := trim_of_tight (tight_trim ext)
  rw [normalizeExtension, String.toList_ofList, htrim, dropWhile_dot (dot_not_mem_trim hdot)]

/-- And so they are when the normal form is put in normal form again. -/
theorem normalizeExtension_blanks_lower :
    normalizeExtension (String.ofList (ext.takeWhile isBlank ++ lower (trim ext))) =
      String.ofList (lower (trim ext)) := by
  have hdot' : '.' ∉ lower (trim ext) := fun hmem =>
    dot_not_mem_trim hdot (mem_of_mem_lower (by decide) hmem)
  rw [normalizeExtension_blanks_append (fun c hc => List.mem_takeWhile_imp hc)
    (tight_lower (tight_trim ext)) hdot', lower_lower]

end Suffix

/-! ### The two lookups -/

/-- A blank stands right behind the dot of the suffix. -/
def Padded (suffix : List Char) : Prop := ∃ c ∈ suffix.tail.head?, isBlank c = true

theorem padded_cons_cons {d c : Char} {rest : List Char} :
    Padded (d :: c :: rest) ↔ isBlank c = true := by
  simp [Padded]

/-- **Twice in normal form.**  A path has the language that owns its extension without the blanks. -/
theorem resolve_of_suffix_eq {path : String} {ext : List Char} (hdot : '.' ∉ ext)
    (h : Path.suffix (Path.normalize path).toList = '.' :: ext) (r : Registry) :
    r.resolve path [] =
      .ok (if trim ext = [] then none else r.forExtension? (String.ofList (trim ext))) := by
  have hextension : Path.extension (Path.normalize path) =
      normalizeExtension (String.ofList ('.' :: ext)) := by
    rw [Path.extension, h]
  rw [resolve_nil, hextension, normalizeExtension_dot_cons hdot]
  by_cases hnone : trim ext = []
  · simp [hnone]
  · have hlower : lower (trim ext) ≠ [] := by
      obtain ⟨c, rest, hcons⟩ := List.exists_cons_of_ne_nil hnone
      rw [hcons]
      exact lowerFrom_ne_nil [] c rest
    have hne : (String.ofList (ext.takeWhile isBlank ++ lower (trim ext))).isEmpty = false := by
      simp [hlower]
    rw [if_neg hnone, if_neg hnone, hne, if_neg Bool.false_ne_true, forExtension?,
      normalizeExtension_blanks_lower hdot, forExtension?, normalizeExtension_trim hdot]

/-- A suffix that is not padded is looked up as what is left of it without the dot. -/
theorem forExtension?_dot_cons {c : Char} {rest : List Char} (hdot : '.' ∉ c :: rest)
    (hc : isBlank c = false) (r : Registry) :
    r.forExtension? (String.ofList ('.' :: c :: rest)) =
      r.forExtension? (String.ofList (trim (c :: rest))) := by
  have hnothing : (c :: rest).takeWhile isBlank = [] := by simp [hc]
  rw [forExtension?, forExtension?, normalizeExtension_dot_cons hdot, normalizeExtension_trim hdot,
    if_neg (trim_cons_ne_nil hc rest), hnothing, List.nil_append]

/-- The registry of one definition has the extensions that it claims. -/
theorem get?_extensions_build_singleton (l : Language) (key : String) :
    (build [l]).extensions.get? key = if key ∈ l.extensions then some ⟨0, l⟩ else none := by
  have hreflects := reflects_build [l]
  split_ifs with hkey
  · rw [hreflects.get?_extensions]
    refine ⟨⟨rfl, hkey, fun k m hk hm => ?_⟩, ?_⟩
    · have hlength := lt_length_of_getElem? hm
      simp at hlength
      omega
    · rintro ⟨j, hj, -, e, -, he, -⟩
      have hlength := lt_length_of_getElem? he
      simp at hlength
      omega
  · rw [Option.eq_none_iff_forall_ne_some]
    intro c hc
    obtain ⟨⟨hl, hclaims, -⟩, -⟩ := (hreflects.get?_extensions key c).1 hc
    have hmem : c.language ∈ [l] := List.mem_of_getElem? hl
    rw [List.mem_singleton] at hmem
    exact hkey (hmem ▸ hclaims)

section Suffix

variable {path : String} {c : Char} {rest : List Char} (hdot : '.' ∉ c :: rest)
  (h : Path.suffix (Path.normalize path).toList = '.' :: c :: rest)
include hdot h

/-- Without blanks behind the dot the two lookups agree. -/
theorem resolve_eq_forExtension? (hc : isBlank c = false) (r : Registry) :
    r.resolve path [] = .ok (r.forExtension? (String.ofList ('.' :: c :: rest))) := by
  rw [resolve_of_suffix_eq hdot h, if_neg (trim_cons_ne_nil hc rest),
    forExtension?_dot_cons hdot hc]

/-- With blanks behind the dot a definition can claim the suffix of a path and not have the path. -/
theorem resolve_eq_none_of_blank (hc : isBlank c = true) {l : Language}
    (hl : l.extensions = [normalizeExtension (String.ofList ('.' :: c :: rest))]) :
    (build [l]).resolve path [] = .ok none := by
  rw [resolve_of_suffix_eq hdot h]
  by_cases hnone : trim (c :: rest) = []
  · rw [if_pos hnone]
  · -- The claim is longer than the text that is looked for, by the blanks.
    have hother : lower (trim (c :: rest)) ≠
        (c :: rest).takeWhile isBlank ++ lower (trim (c :: rest)) := by
      intro heq
      have hlength := congrArg List.length heq
      simp only [List.takeWhile_cons_of_pos hc, List.length_append, List.length_cons] at hlength
      omega
    have hunclaimed : String.ofList (lower (trim (c :: rest))) ∉ l.extensions := by
      rw [hl, normalizeExtension_dot_cons hdot, if_neg hnone, List.mem_singleton,
        String.ofList_inj]
      exact hother
    rw [if_neg hnone, forExtension?, normalizeExtension_trim hdot,
      get?_extensions_build_singleton, if_neg hunclaimed]

end Suffix

/-- **Suffixes.**  A path with a suffix has the owner of what is left of it without the dot and
    without blanks.  For every registry this is the owner of the suffix itself exactly if no blank
    stands behind the dot; then the path belongs to the definition that holds the normal form of the
    suffix.  Otherwise the only definition may claim the suffix, and the path has no language. -/
theorem resolve_suffix {path : String} (h : Path.suffix (Path.normalize path).toList ≠ []) :
    let suffix := Path.suffix (Path.normalize path).toList
    let bare := strip (String.ofList suffix.tail)
    (∀ r : Registry,
      r.resolve path [] = .ok (if bare = "" then none else r.forExtension? bare)) ∧
    ((∀ r : Registry, r.resolve path [] = .ok (r.forExtension? (String.ofList suffix))) ↔
      ¬ Padded suffix) ∧
    (¬ Padded suffix → ∀ ls c, (build ls).resolve path [] = .ok (some c) ↔
      Holds (Claims (normalizeExtension (String.ofList suffix))) ls c) ∧
    (Padded suffix → ∀ l : Language,
      l.extensions = [normalizeExtension (String.ofList suffix)] →
        (build [l]).forExtension? (String.ofList suffix) = some ⟨0, l⟩ ∧
          (build [l]).resolve path [] = .ok none) := by
  intro suffix bare
  obtain ⟨ext, hsuffix, hne, hdot⟩ := (Path.suffix_cases _).resolve_left h
  obtain ⟨c, rest, rfl⟩ := List.exists_cons_of_ne_nil hne
  have hbare : bare = String.ofList (trim (c :: rest)) := by
    show strip (String.ofList (Path.suffix (Path.normalize path).toList).tail) = _
    rw [hsuffix, strip, String.toList_ofList, List.tail_cons]
  have hdiffer (hc : isBlank c = true) (l : Language)
      (hl : l.extensions = [normalizeExtension (String.ofList ('.' :: c :: rest))]) :
      (build [l]).forExtension? (String.ofList ('.' :: c :: rest)) = some ⟨0, l⟩ ∧
        (build [l]).resolve path [] = .ok none := by
    refine ⟨?_, resolve_eq_none_of_blank hdot hsuffix hc hl⟩
    rw [forExtension?, get?_extensions_build_singleton, hl, if_pos List.mem_cons_self]
  simp only [show suffix = '.' :: c :: rest from hsuffix, hbare, padded_cons_cons,
    Bool.not_eq_true]
  have hagree := resolve_eq_forExtension? hdot hsuffix
  refine ⟨fun r => ?_, ⟨fun hall => ?_, hagree⟩, fun hc ls d => ?_, hdiffer⟩
  · rw [resolve_of_suffix_eq hdot hsuffix]
    simp
  · -- A padded suffix would be found by its extension in the registry that has only that one.
    by_contra hc
    obtain ⟨hfound, hnone⟩ := hdiffer (Bool.not_eq_false _ ▸ hc)
      { name := "A", extensions := [normalizeExtension (String.ofList ('.' :: c :: rest))] } rfl
    rw [hall, hfound] at hnone
    cases hnone
  · rw [hagree hc, Except.ok.injEq, forExtension?, (reflects_build ls).get?_extensions]

/-- `resolve_suffix` for a suffix in capitals that the second definition claims in its own way. -/
theorem resolve_suffix_capital :
    let r := build [{ name := "C", extensions := ["c"] },
      { name := "Rust", extensions := [normalizeExtension " .rS"] }]
    Path.suffix (Path.normalize "./src//lib.RS").toList ≠ [] ∧
      r.resolve "./src//lib.RS" [] = .ok (r.forExtension? ".RS") ∧
        r.forExtension? ".RS" =
          some ⟨1, { name := "Rust", extensions := [normalizeExtension " .rS"] }⟩ := by
  intro r
  have hsuffix : Path.suffix (Path.normalize "./src//lib.RS").toList = ".RS".toList := by
    decide +kernel
  have hne : Path.suffix (Path.normalize "./src//lib.RS").toList ≠ [] := by
    rw [hsuffix]
    decide
  have hpadded : ¬ Padded (Path.suffix (Path.normalize "./src//lib.RS").toList) := by
    rw [hsuffix]
    show ¬ Padded ['.', 'R', 'S']
    rw [padded_cons_cons]
    decide
  refine ⟨hne, ?_, by decide +kernel⟩
  rw [(resolve_suffix hne).2.1.2 hpadded r, hsuffix, String.ofList_toList]

/-- **A blank behind the dot.**  The definition claims the suffix of the path, and the suffix leads
    to it, but the path does not. -/
theorem resolve_padded_suffix :
    let l : Language := { name := "A", extensions := [normalizeExtension ". a"] }
    Path.suffix (Path.normalize "x. a").toList = ". a".toList ∧
      (build [l]).forExtension? ". a" = some ⟨0, l⟩ ∧
        (build [l]).resolve "x. a" [] = .ok none := by
  intro l
  refine ⟨by decide +kernel, by decide +kernel, ?_⟩
  rw [resolve_nil]
  exact congrArg Except.ok (by decide +kernel)

end LineCensus.Registry
