import LineCensus.Proofs.Report.Elements

namespace LineCensus.Report

open Text Schema

/-!
# Reports stored as XML

Elements lose line ends and the blanks around a text, and they cannot hold every character.

* `Survives` — a text that is kept; `forall_survives_iff` puts the texts of a report together.
* `load_dump_xml_eq`, `load_dump_xml_surrogates` — a report of strings is loaded from elements that
  can be printed; the reader stops at surrogates.
* `ofValue_settled`, `ofValue_settled_of_not_legible` — it is checked with its texts settled, if its
  numbers can be read.
* `Lost`, `lost_load_dump_xml` — what becomes of a report that is not kept.
* `load_dump_xml` — the reports that XML keeps, and what becomes of the others.
-/

/-! ### Texts -/

/-- A text that XML keeps: it is made of characters that may stand in a document, none of them a
    carriage return, and there are no blanks at its ends. -/
def Survives (s : Letters) : Prop :=
  ∃ t ∈ chars? s, (∀ c ∈ t, Xml.isChar c = true ∧ c ≠ '\r') ∧ trim t = t

-- Only the characters of the text are looked at, not all that there are.
instance (s : Letters) : Decidable (Survives s) :=
  @Option.decidableExistsMem _ _
    (fun t => @instDecidableAnd _ _ (List.decidableBAll _ t) inferInstance) (chars? s)

/-- Such a text can be printed and is the same when it is read. -/
theorem survives_iff {s : Letters} :
    Survives s ↔ Xml.isPrintable s = true ∧ Xml.settle s = s := by
  constructor
  · rintro ⟨t, ht, hchars, htrim⟩
    rw [Option.mem_def, chars?_eq_some_iff] at ht
    rw [ht, Xml.isPrintable_letters, Xml.settle_letters_eq_self_iff, List.all_eq_true]
    exact ⟨fun c hc => (hchars c hc).1, fun hmem => (hchars _ hmem).2 rfl, htrim⟩
  · rintro ⟨hprintable, hsettle⟩
    obtain ⟨u, rfl⟩ := Xml.exists_ofString_of_isPrintable hprintable
    rw [ofString, Xml.isPrintable_letters, List.all_eq_true] at hprintable
    rw [ofString, Xml.settle_letters_eq_self_iff] at hsettle
    refine ⟨u.toList, chars?_letters _, fun c hc => ⟨hprintable c hc, ?_⟩, hsettle.2⟩
    rintro rfl
    exact hsettle.1 hc

/-- The texts of a report survive if they can be printed and none is another when it is read. -/
theorem forall_survives_iff {r : Report} :
    (∀ s ∈ r.texts, Survives s) ↔
      (∀ s ∈ r.texts, Xml.isPrintable s = true) ∧ r.mapTexts Xml.settle = r := by
  rw [mapTexts_eq_self_iff, ← forall₂_and]
  exact forall₂_congr fun s _ => survives_iff

/-! ### Whole reports -/

/-- A digest is a string. -/
theorem Storable.exists_checksum {r : Report} (h : r.Storable) :
    ∀ c ∈ r.checksum, ∃ t, c = ofString t := by
  intro c hc
  rcases h.checksum with hnone | hsome
  · rw [hnone] at hc
    cases hc
  · rw [hsome, Option.mem_some_iff] at hc
    exact ⟨r.digest, hc.symm⟩

/-- A report of strings is loaded from its elements if all its paths and languages are printable. -/
theorem load_dump_xml_eq {r : Report} (h : r.Storable)
    (hstrings : ∀ s ∈ r.texts, ∃ t, s = ofString t)
    (now : Moment) :
    load .xml now (r.dump .xml) =
      if ∀ s ∈ r.texts, Xml.isPrintable s = true then
        (ofValue (Xml.settleValue r.toValue)).mapError .document
      else .error .xml := by
  have htexts : ∀ s ∈ r.toValue.texts, ∃ t, s = ofString t :=
    (forall_texts_toValue_iff fun s => ⟨s, rfl⟩).2 ⟨hstrings, h.exists_checksum⟩
  obtain ⟨document, root, hwrite, htag, hdepth, hvalue, hparse⟩ :=
    Xml.parse?_write_ofValue spells_reportContainers (fits_toValue r)
  rw [Value.spelled_plain htexts] at hwrite hvalue hparse
  -- Four levels of elements are far fewer than the reader takes.
  have hshallow : ¬maxNesting < elementWeight * root.depth := by
    have hweight : elementWeight = 2 := rfl
    have hnesting : maxNesting = 984 := rfl
    rw [hweight, hnesting]
    omega
  rw [load, dump, hwrite, ofXml]
  by_cases hall : ∀ s ∈ r.texts, Xml.isPrintable s = true
  · rw [if_pos ((printable_toValue h).2 hall)] at hparse
    rw [if_pos hall]
    simp only [chars?_letters, hparse, ofElement, htag, hvalue, hshallow, ne_eq, not_true_eq_false,
      if_false]
  · rw [if_neg fun hprintable => hall ((printable_toValue h).1 hprintable)] at hparse
    rw [if_neg hall]
    simp only [chars?_letters, hparse]

/-- **Surrogates are not read.**  The reader of elements stops at the text of a report with a
    surrogate in a path or in the name of a language. -/
theorem load_dump_xml_surrogates {r : Report} {s : Letters} (hs : s ∈ r.texts) {n : Fin 2048}
    (hn : Letter.surrogate n ∈ s) (now : Moment) :
    load .xml now (r.dump .xml) = .error .surrogates := by
  have htext : ∃ t ∈ r.toValue.texts, Letter.surrogate n ∈ t := by
    by_contra hnone
    have hall := (forall_texts_toValue_iff (r := r) (surrogate_not_mem_ofString n)).1
      fun t ht htn => hnone ⟨t, ht, htn⟩
    exact hall.1 s hs hn
  obtain ⟨t, ht, htn⟩ := htext
  have hdump : Letter.surrogate n ∈ r.dump .xml :=
    List.mem_append_left _ (List.mem_append_right _ (Xml.mem_writeAt_ofValue ht htn _ 0))
  rw [load, ofXml, chars?_eq_none_iff.2 ⟨n, hdump⟩]

/-- The report of its settled document is checked, if its numbers can be read. -/
theorem ofValue_settled {r : Report} (h : r.Storable) (hlegible : r.Legible) :
    ofValue (Xml.settleValue r.toValue) = (r.mapTexts Xml.settle).checked := by
  have hread := (reads_read_settled h).eq_ok hlegible
  rw [toValue, Xml.settleValue, ofValue]
  simp only [hread]

/-- A number that cannot be read is an issue. -/
theorem ofValue_settled_of_not_legible {r : Report} (h : r.Storable) (hillegible : ¬r.Legible) :
    ∃ i, ofValue (Xml.settleValue r.toValue) = .error (.issue i) := by
  rw [toValue, Xml.settleValue, ofValue]
  split
  · next issues _ => exact ⟨firstIssue issues, rfl⟩
  · next r' hread => exact absurd ((reads_read_settled h r').1 hread).2 hillegible

/-- A report with texts that are not kept is another report. -/
theorem same_mapTexts {f : Letters → Letters} {r : Report} (h : r.mapTexts f ≠ r) :
    (r.mapTexts f).same r = false := by
  rw [← Bool.not_eq_true]
  intro hsame
  simp only [same, Bool.and_eq_true, beq_iff_eq] at hsame
  obtain ⟨⟨⟨⟨⟨-, hfiles⟩, hlanguages⟩, -⟩, hunsupported⟩, -⟩ := hsame
  -- Only these three fields can be others.
  apply h
  calc r.mapTexts f
    _ = { r with
          files := (r.mapTexts f).files
          languages := (r.mapTexts f).languages
          unsupported := (r.mapTexts f).unsupported } := rfl
    _ = r := by rw [hfiles, hlanguages, hunsupported]

/-- What XML does to a report of strings that it does not keep: it is refused as malformed, or it is
    another report. -/
def Lost (r : Report) (loaded : Except Malformation Report) : Prop :=
  (∃ m, loaded = .error m ∧ m ≠ .surrogates ∧ ∀ e, m ≠ .excess e) ∨
    ∃ r', loaded = .ok r' ∧ r'.same r = false

/-- A report is not kept if it is checked as another one. -/
theorem lost_checked {r r' : Report} (h : r'.same r = false) :
    r.Lost (r'.checked.mapError .document) := by
  cases hchecked : r'.checked with
  | error d =>
    exact .inl ⟨_, rfl, Malformation.noConfusion, fun e => Malformation.noConfusion⟩
  | ok r'' =>
    obtain ⟨rfl, -, -⟩ := checked_eq_ok hchecked
    exact .inr ⟨_, rfl, h⟩

/-- A report is the same as itself. -/
theorem same_self (r : Report) : r.same r = true := by
  simp only [same, Moment.same, beq_self_eq_true, Bool.and_self]

/-- A report that comes back is not lost. -/
theorem not_lost_self (r : Report) : ¬r.Lost (.ok r) := by
  rintro (⟨m, hm, -⟩ | ⟨r', hr', hsame⟩)
  · cases hm
  · cases hr'
    rw [same_self] at hsame
    cases hsame

/-- A report of strings with a text or a number that does not survive is lost. -/
theorem lost_load_dump_xml {r : Report} (h : r.Storable)
    (hstrings : ∀ s ∈ r.texts, ∃ t, s = ofString t)
    (now : Moment) (hlost : ¬(r.Legible ∧ ∀ s ∈ r.texts, Survives s)) :
    r.Lost (load .xml now (r.dump .xml)) := by
  rw [load_dump_xml_eq h hstrings now]
  by_cases hprintable : ∀ s ∈ r.texts, Xml.isPrintable s = true
  · rw [if_pos hprintable]
    by_cases hlegible : r.Legible
    · -- Everything can be read, so some text is another one.
      have hother : r.mapTexts Xml.settle ≠ r := fun hsame =>
        hlost ⟨hlegible, forall_survives_iff.2 ⟨hprintable, hsame⟩⟩
      rw [ofValue_settled h hlegible]
      exact lost_checked (same_mapTexts hother)
    · obtain ⟨i, hi⟩ := ofValue_settled_of_not_legible h hlegible
      rw [hi]
      exact .inl ⟨_, rfl, Malformation.noConfusion, fun e => Malformation.noConfusion⟩
  · rw [if_neg hprintable]
    exact .inl ⟨_, rfl, Malformation.noConfusion, fun e => Malformation.noConfusion⟩

/-- **What XML keeps.**  A valid report without a checksum or with the right one, made at a local time
    or at whole minutes from UTC, is read back from its elements in every field exactly if all its
    paths and languages survive: they hold only characters that may stand in a document, none of them
    a carriage return, and have no blanks at their ends.  As in every format, its numbers must have no
    more digits than are read.  A report with a surrogate in a path or in the name of a language stops
    the reader; in all other cases the report is refused as malformed, or another one is read. -/
theorem load_dump_xml {r : Report} (h : r.Storable) (now : Moment) :
    (load .xml now (r.dump .xml) = .ok r ↔ r.Legible ∧ ∀ s ∈ r.texts, Survives s) ∧
      (load .xml now (r.dump .xml) = .error .surrogates ↔
        ∃ s ∈ r.texts, ∃ n, Letter.surrogate n ∈ s) ∧
      (load .xml now (r.dump .xml) ≠ .ok r → load .xml now (r.dump .xml) ≠ .error .surrogates →
        r.Lost (load .xml now (r.dump .xml))) := by
  have hkept (hk : r.Legible ∧ ∀ s ∈ r.texts, Survives s) :
      load .xml now (r.dump .xml) = .ok r := by
    obtain ⟨hprintable, hsame⟩ := forall_survives_iff.1 hk.2
    have hstrings : ∀ s ∈ r.texts, ∃ t, s = ofString t := fun s hs =>
      Xml.exists_ofString_of_isPrintable (hprintable s hs)
    rw [load_dump_xml_eq h hstrings now, if_pos hprintable, ofValue_settled h hk.1, hsame,
      checked_of_storable h]
    rfl
  by_cases hsurrogates : ∃ s ∈ r.texts, ∃ n, Letter.surrogate n ∈ s
  · obtain ⟨s, hs, n, hn⟩ := hsurrogates
    have hload := load_dump_xml_surrogates hs hn now
    refine ⟨⟨fun hok => ?_, hkept⟩, iff_of_true hload ⟨s, hs, n, hn⟩, fun _ hne => absurd hload hne⟩
    rw [hload] at hok
    cases hok
  · have hstrings : ∀ s ∈ r.texts, ∃ t, s = ofString t := fun s hs =>
      (exists_ofString_or_surrogate s).resolve_right fun hn => hsurrogates ⟨s, hs, hn⟩
    have hlost := lost_load_dump_xml h hstrings now
    refine ⟨⟨fun hok => ?_, hkept⟩, iff_of_false (fun hload => ?_) hsurrogates, fun hne _ => ?_⟩
    · by_contra hk
      exact not_lost_self r (hok ▸ hlost hk)
    · by_cases hk : r.Legible ∧ ∀ s ∈ r.texts, Survives s
      · rw [hkept hk] at hload
        cases hload
      · rcases hlost hk with ⟨m, hm, hannounced, -⟩ | ⟨r', hr', -⟩
        · rw [hload] at hm
          exact hannounced (Except.error.inj hm).symm
        · rw [hload] at hr'
          cases hr'
    · exact hlost fun hk => hne (hkept hk)

/-- `load_dump_xml` for a signed report: a path with markup, a line feed and a character of another
    plane in it is kept, one with a blank at its end is not. -/
theorem load_dump_xml_signed :
    let report (path : Letters) : Report :=
      { version := "1.10"
        generatedAt := ⟨2024, 2, 29, 23, 59, 58, 120, some (-12600), by decide⟩
        files := [⟨path, "C", ⟨4, 2, 1, 1⟩, by decide⟩]
        languages := [⟨"C", 1, ⟨4, 2, 1, 1⟩⟩]
        summary := ⟨1, ⟨4, 2, 1, 1⟩, 1⟩
        unsupported := ["", "LICENSE"]
        checksum := none }
    let now : Moment := ⟨2026, 1, 2, 3, 4, 5, 0, none, by decide⟩
    let kept := (report "a <b>\n&😀.c").signed
    let lost := (report "a.c ").signed
    (kept.Storable ∧ load .xml now (kept.dump .xml) = .ok kept) ∧
      (lost.Storable ∧ load .xml now (lost.dump .xml) ≠ .ok lost) := by
  intro report now kept lost
  have hstorable (path : Letters) : (report path).signed.Storable := by
    have hversion : isVersion "1.10".toList = true := by decide +kernel
    have hmajor : majorVersion "1.10" = majorVersion formatVersion := by decide +kernel
    have hvalid : (report path).signed.Valid :=
      valid_iff.2 ⟨hmajor, List.pairwise_singleton _ _, rfl, rfl⟩
    exact ⟨hversion, hvalid, .inr rfl, by rintro o ⟨⟩; decide⟩
  have hlegible : kept.Legible := by
    rw [Legible]
    decide +kernel
  have hkept : ∀ s ∈ kept.texts, Survives s := by decide +kernel
  have hlost : ¬∀ s ∈ lost.texts, Survives s := by decide +kernel
  refine ⟨⟨hstorable _, (load_dump_xml (hstorable _) now).1.2 ⟨hlegible, hkept⟩⟩, hstorable _, ?_⟩
  exact fun hload => hlost ((load_dump_xml (hstorable _) now).1.1 hload).2

/-- **A surrogate stops the reader.**  A valid report of a file whose name is a lone surrogate has a
    document that is neither refused as malformed nor read as another report. -/
theorem load_dump_xml_surrogate :
    let r : Report :=
      { version := "1.0"
        generatedAt := ⟨2024, 1, 2, 3, 4, 5, 0, none, by decide⟩
        files := [⟨[.surrogate 0x4FF], "C", ⟨1, 1, 0, 0⟩, by decide⟩]
        languages := [⟨"C", 1, ⟨1, 1, 0, 0⟩⟩]
        summary := ⟨1, ⟨1, 1, 0, 0⟩, 1⟩
        unsupported := []
        checksum := none }
    r.Storable ∧ ¬(∀ s ∈ r.texts, Survives s) ∧
      ∀ now, ¬r.Lost (load .xml now (r.dump .xml)) := by
  intro r
  have hvalid : r.Valid :=
    valid_iff.2 ⟨by decide +kernel, List.pairwise_singleton _ _, rfl, rfl⟩
  refine ⟨⟨by decide +kernel, hvalid, .inl rfl, by rintro o ⟨⟩⟩, by decide +kernel, fun now => ?_⟩
  have hload : load .xml now (r.dump .xml) = .error .surrogates :=
    load_dump_xml_surrogates (s := [.surrogate 0x4FF]) List.mem_cons_self List.mem_cons_self now
  rw [hload]
  rintro (⟨m, hm, hannounced, -⟩ | ⟨r', hr', -⟩)
  · exact hannounced (Except.error.inj hm).symm
  · cases hr'

end LineCensus.Report
