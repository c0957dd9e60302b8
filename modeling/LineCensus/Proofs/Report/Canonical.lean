import LineCensus.Proofs.Json.Injective
import LineCensus.Proofs.Report.Storage
import LineCensus.Proofs.Text.Order
import LineCensus.Proofs.Text.Utf8

namespace LineCensus.Report

open Text Json

/-!
# What the canonical bytes say

* `agree_of_sortKeys` — tables that are the same in order have the same values under every key.
* `eq_of_sortKeys_fileValue`, `eq_of_sortKeys_languageValue`, `eq_of_sortKeys_summaryValue` — the
  records of a report are told by their documents, in whichever order the entries stand.
* `SaysSame` — reports that agree in everything but the checksum.
* `sortKeys_contentEntries_iff` — the document of a report without its checksum says no more and no
  less.
* `canonical_eq_iff` — nor do the canonical bytes, but that a pair of surrogates is in them what its
  character is.
* `canonical_identifies` — so which checksums of other reports are accepted.
-/

/-! ### Entries in order -/

/-- The items of a list are put in order one by one. -/
theorem sortKeysList_eq_map (items : List (Value Letters)) :
    sortKeysList items = items.map Value.sortKeys := by
  induction items with
  | nil => rw [sortKeysList, List.map_nil]
  | cons v vs ih => rw [sortKeysList, ih, List.map_cons]

/-- The values in a table are put in order one by one. -/
theorem sortKeysTable_eq_map (entries : List (Letters × Value Letters)) :
    sortKeysTable entries = entries.map fun e => (e.1, e.2.sortKeys) := by
  induction entries with
  | nil => rw [sortKeysTable, List.map_nil]
  | cons e es ih =>
    obtain ⟨k, v⟩ := e
    rw [sortKeysTable, ih, List.map_cons]

/-- Order of the entries adds nothing to a value that JSON has no text for. -/
theorem plain_sortKeys {v : Value Letters} (h : Plain v) : Plain v.sortKeys := by
  induction h with
  | null => exact .null
  | bool b => exact .bool b
  | int n => exact .int n
  | text hs => exact .text hs
  | list hitems ih =>
    rw [Value.sortKeys, sortKeysList_eq_map]
    exact .list (List.forall_mem_map.2 ih)
  | table hnames hentries ih =>
    rw [Value.sortKeys, sortKeysTable_eq_map]
    refine .table (fun e he => ?_) fun e he => ?_
    · obtain ⟨f, hf, rfl⟩ := List.mem_map.1 ((mem_sortOn _).1 he)
      exact hnames f hf
    · obtain ⟨f, hf, rfl⟩ := List.mem_map.1 ((mem_sortOn _).1 he)
      exact ih f hf

mutual

/-- Pairs of surrogates in a value do not show in the order of its entries. -/
theorem sortKeys_joined (v : Value Letters) : v.joined.sortKeys = v.sortKeys.joined := by
  cases v with
  | list items => exact congrArg Value.list (sortKeysList_joined items)
  | table entries =>
    have hsorted := map_sortOn (·.1) (fun e : Letters × Value Letters => (e.1, e.2.joined))
      (sortKeysTable entries)
    rw [Value.joined, Value.sortKeys, Value.sortKeys, Value.joined, sortKeysTable_joined,
      joinedEntries_eq_map, joinedEntries_eq_map, hsorted]
  | _ => rfl

/-- Nor do those in the items of a list. -/
theorem sortKeysList_joined (items : List (Value Letters)) :
    sortKeysList (joinedItems items) = joinedItems (sortKeysList items) := by
  cases items with
  | nil => rfl
  | cons v vs =>
    rw [joinedItems, sortKeysList, sortKeysList, joinedItems, sortKeys_joined v,
      sortKeysList_joined vs]

/-- Nor do those in the entries of a table. -/
theorem sortKeysTable_joined (entries : List (Letters × Value Letters)) :
    sortKeysTable (joinedEntries entries) = joinedEntries (sortKeysTable entries) := by
  cases entries with
  | nil => rfl
  | cons e es =>
    obtain ⟨name, v⟩ := e
    rw [joinedEntries, sortKeysTable, sortKeysTable, joinedEntries, sortKeys_joined v,
      sortKeysTable_joined es]

end

section Entries

variable {es es' : List (Letters × Value Letters)}

/-- The tables have the same values, up to the order of entries, under every key of both. -/
def Agree (es es' : List (Letters × Value Letters)) : Prop :=
  ∀ (key : String) v w, (ofString key, v) ∈ es → (ofString key, w) ∈ es' → v.sortKeys = w.sortKeys

/-- **Order of keys.**  Tables that are the same in order agree. -/
theorem agree_of_sortKeys (h : (Value.table es).sortKeys = (Value.table es').sortKeys)
    (names : List String) (hnames : es'.map (·.1) = names.map ofString) (hdistinct : names.Nodup) :
    Agree es es' := by
  intro key v w hv hw
  rw [Value.sortKeys, Value.sortKeys, sortKeysTable_eq_map, sortKeysTable_eq_map] at h
  have hn : (es'.map (·.1)).Nodup := hnames ▸ hdistinct.map ofString_injective
  have hmem : (ofString key, v.sortKeys) ∈ es'.map fun e => (e.1, e.2.sortKeys) := by
    rw [← mem_sortOn (·.1), ← Value.table.inj h, mem_sortOn]
    exact List.mem_map.2 ⟨(ofString key, v), hv, rfl⟩
  obtain ⟨e, he, heq⟩ := List.mem_map.1 hmem
  rw [Prod.mk.injEq] at heq
  -- Both entries of the second table have one key, so they are one entry.
  have hentry : e = (ofString key, w) := List.inj_on_of_nodup_map hn he hw heq.1
  rw [← heq.2, hentry]

namespace Agree

/-- One text under a key. -/
theorem text (h : Agree es es') (key : String) {a b : Letters} (ha : (ofString key, .text a) ∈ es)
    (hb : (ofString key, .text b) ∈ es') : a = b := by
  have heq := h key _ _ ha hb
  simpa only [Value.sortKeys, Value.text.injEq] using heq

/-- One number under a key. -/
theorem count (h : Agree es es') (key : String) {m n : Nat} (hm : (ofString key, .int m) ∈ es)
    (hn : (ofString key, .int n) ∈ es') : m = n := by
  have heq := h key _ _ hm hn
  simpa only [Value.sortKeys, Value.int.injEq, Int.natCast_inj] using heq

/-- The four counts, if they are among the entries of both tables. -/
theorem tally {s t : Tally Nat} (h : Agree es es') (hs : tallyEntries Int.ofNat s ⊆ es)
    (ht : tallyEntries Int.ofNat t ⊆ es') : s = t := by
  simp only [tallyEntries, List.cons_subset] at hs ht
  obtain ⟨hstotal, hslogical, hscomment, hsempty, -⟩ := hs
  obtain ⟨httotal, htlogical, htcomment, htempty, -⟩ := ht
  cases s
  cases t
  rw [Tally.mk.injEq]
  exact ⟨h.count _ hstotal httotal, h.count _ hslogical htlogical, h.count _ hscomment htcomment,
    h.count _ hsempty htempty⟩

/-- The documents of records tell the records one by one. -/
theorem list {α : Type} {f : α → Value Letters}
    (hf : ∀ a b, (f a).sortKeys = (f b).sortKeys → a = b) (h : Agree es es') (key : String)
    {as bs : List α} (ha : (ofString key, .list (as.map f)) ∈ es)
    (hb : (ofString key, .list (bs.map f)) ∈ es') : as = bs := by
  have heq := h key _ _ ha hb
  rw [Value.sortKeys, Value.sortKeys, Value.list.injEq, sortKeysList_eq_map, sortKeysList_eq_map,
    List.map_map, List.map_map] at heq
  exact List.map_injective_iff.2 hf heq

end Agree

end Entries

/-! ### Records -/

/-- The document of a file tells its counts. -/
theorem eq_of_sortKeys_fileValue (f g : FileTally)
    (h : (fileValue f).sortKeys = (fileValue g).sortKeys) : f = g := by
  have hagree := agree_of_sortKeys h
    ["path", "language", "total", "logical", "comment", "empty"] rfl (by decide)
  have hpath : f.path = g.path := hagree.text "path" (by simp) (by simp)
  have hlanguage : f.language = g.language := hagree.text "language" (by simp) (by simp)
  have htally : f.tally = g.tally :=
    hagree.tally (fun _ => List.mem_append_right [_, _]) (fun _ => List.mem_append_right [_, _])
  cases f
  cases g
  rw [FileTally.mk.injEq]
  exact ⟨hpath, hlanguage, htally⟩

/-- So does the one of a language. -/
theorem eq_of_sortKeys_languageValue (l m : LanguageTally)
    (h : (languageValue l).sortKeys = (languageValue m).sortKeys) : l = m := by
  have hagree := agree_of_sortKeys h
    ["language", "fileCount", "total", "logical", "comment", "empty"] rfl (by decide)
  have hlanguage : l.language = m.language := hagree.text "language" (by simp) (by simp)
  have hfiles : l.fileCount = m.fileCount := hagree.count "fileCount" (by simp) (by simp)
  have htally : l.tally = m.tally :=
    hagree.tally (fun _ => List.mem_append_right [_, _]) (fun _ => List.mem_append_right [_, _])
  cases l
  cases m
  rw [LanguageTally.mk.injEq]
  exact ⟨hlanguage, hfiles, htally⟩

/-- So does the one of the totals. -/
theorem eq_of_sortKeys_summaryValue (s t : Totals)
    (h : (summaryValue s).sortKeys = (summaryValue t).sortKeys) : s = t := by
  have hagree := agree_of_sortKeys h
    ["totalFiles", "total", "logical", "comment", "empty", "languagesCount"] rfl (by decide)
  have hfiles : s.fileCount = t.fileCount := hagree.count "totalFiles" (by simp) (by simp)
  have hlanguages : s.languageCount = t.languageCount :=
    hagree.count "languagesCount" (by simp) (by simp)
  have htally : s.tally = t.tally :=
    hagree.tally (fun _ he => List.mem_cons_of_mem _ (List.mem_append_left _ he))
      (fun _ he => List.mem_cons_of_mem _ (List.mem_append_left _ he))
  cases s
  cases t
  rw [Totals.mk.injEq]
  exact ⟨hfiles, htally, hlanguages⟩

/-- The document of a file without a language. -/
def pathValue (p : Letters) : Value Letters := .table [(ofString "path", .text p)]

/-- It tells the path. -/
theorem eq_of_sortKeys_pathValue (p q : Letters)
    (h : (pathValue p).sortKeys = (pathValue q).sortKeys) : p = q :=
  (agree_of_sortKeys h ["path"] rfl (List.nodup_singleton _)).text "path" List.mem_cons_self
    List.mem_cons_self

/-! ### Reports -/

/-- The reports agree in everything but the checksum, as far as it is written: of the time of
    generation the text. -/
structure SaysSame (a b : Report) : Prop where
  version : a.version = b.version
  generatedAt : a.generatedAt.stored = b.generatedAt.stored
  files : a.files = b.files
  languages : a.languages = b.languages
  summary : a.summary = b.summary
  unsupported : a.unsupported = b.unsupported

/-- Then they have the same document without their checksums. -/
theorem SaysSame.contentEntries_eq {a b : Report} (h : SaysSame a b) :
    a.contentEntries = b.contentEntries := by
  simp only [contentEntries, h.version, h.generatedAt, h.files, h.languages, h.summary,
    h.unsupported]

/-- **Documents.**  In the order of their keys, the documents of two reports without checksums are
    the same exactly if the reports say the same. -/
theorem sortKeys_contentEntries_iff {a b : Report} :
    (Value.table a.contentEntries).sortKeys = (Value.table b.contentEntries).sortKeys ↔
      SaysSame a b := by
  constructor
  · intro h
    -- The keys are distinct, so sorting leaves each entry to be found by its key.
    have hagree := agree_of_sortKeys h ["reportFormatVersion", "generatedAt", "files",
      "languages", "summary", "unsupportedFiles"] rfl (by decide)
    have hsummary : (summaryValue a.summary).sortKeys = (summaryValue b.summary).sortKeys :=
      hagree "summary" _ _ (by simp [contentEntries]) (by simp [contentEntries])
    have hversion : ofString a.version = ofString b.version :=
      hagree.text "reportFormatVersion" (by simp [contentEntries]) (by simp [contentEntries])
    have htime : ofString a.generatedAt.stored = ofString b.generatedAt.stored :=
      hagree.text "generatedAt" (by simp [contentEntries]) (by simp [contentEntries])
    exact
      { version := ofString_inj.1 hversion
        generatedAt := ofString_inj.1 htime
        files := hagree.list eq_of_sortKeys_fileValue "files" (by simp [contentEntries])
          (by simp [contentEntries])
        languages := hagree.list eq_of_sortKeys_languageValue "languages"
          (by simp [contentEntries]) (by simp [contentEntries])
        summary := eq_of_sortKeys_summaryValue _ _ hsummary
        unsupported := hagree.list eq_of_sortKeys_pathValue "unsupportedFiles"
          (by simp [contentEntries, pathValue]) (by simp [contentEntries, pathValue]) }
  · intro h
    rw [h.contentEntries_eq]

/-- A table is plain if its names are strings and its values are. -/
theorem plain_table {entries : List (Letters × Value Letters)} (names : List String)
    (hnames : entries.map (·.1) = names.map ofString) (h : ∀ e ∈ entries, Plain e.2) :
    Plain (.table entries) :=
  .table (hasSplitPair_names hnames) h

/-- The four counts are plain values. -/
theorem plain_tallyEntries (t : Tally Nat) : ∀ e ∈ tallyEntries Int.ofNat t, Plain e.2 := by
  simp only [tallyEntries, List.forall_mem_cons]
  exact ⟨.int _, .int _, .int _, .int _, List.forall_mem_nil _⟩

/-- The document of a report without pairs of surrogates in its texts is plain. -/
theorem plain_contentEntries {r : Report} (hp : r.PairFree) : Plain (.table r.contentEntries) := by
  obtain ⟨hfileTexts, hlanguageTexts, hpaths⟩ := forall_texts_iff.1 hp
  have hfile (f : FileTally) (hf : f ∈ r.files) : Plain (fileValue f) :=
    plain_table ["path", "language", "total", "logical", "comment", "empty"] rfl
      (List.forall_mem_cons.2 ⟨.text (hfileTexts f hf).1, List.forall_mem_cons.2
        ⟨.text (hfileTexts f hf).2, plain_tallyEntries f.tally⟩⟩)
  have hlanguage (l : LanguageTally) (hl : l ∈ r.languages) : Plain (languageValue l) :=
    plain_table ["language", "fileCount", "total", "logical", "comment", "empty"] rfl
      (List.forall_mem_cons.2 ⟨.text (hlanguageTexts l hl), List.forall_mem_cons.2
        ⟨.int _, plain_tallyEntries l.tally⟩⟩)
  have hsummary : Plain (summaryValue r.summary) :=
    plain_table ["totalFiles", "total", "logical", "comment", "empty", "languagesCount"] rfl
      (List.forall_mem_cons.2 ⟨.int _, List.forall_mem_append.2
        ⟨plain_tallyEntries r.summary.tally, List.forall_mem_singleton.2 (.int _)⟩⟩)
  have hpath (p : Letters) (hp : p ∈ r.unsupported) : Plain (pathValue p) :=
    plain_table ["path"] rfl (List.forall_mem_singleton.2 (.text (hpaths p hp)))
  refine plain_table ["reportFormatVersion", "generatedAt", "files", "languages", "summary",
    "unsupportedFiles"] rfl ?_
  simp only [contentEntries, List.forall_mem_cons]
  exact ⟨.text (hasSplitPair_ofString _), .text (hasSplitPair_ofString _),
    .list (List.forall_mem_map.2 hfile), .list (List.forall_mem_map.2 hlanguage), hsummary,
    .list (List.forall_mem_map.2 hpath), List.forall_mem_nil _⟩

/-! ### Bytes -/

/-- Pairs of surrogates in a report do not show in its canonical text. -/
theorem canonicalText_joined (r : Report) : r.joined.canonicalText = r.canonicalText := by
  have hdocument : Value.table r.joined.contentEntries = (Value.table r.contentEntries).joined := by
    rw [Value.joined, joinedEntries_contentEntries]
  rw [canonicalText, canonicalText, hdocument, sortKeys_joined, write_joined rfl]

/-- The canonical bytes are those of the canonical text, which has only characters. -/
theorem canonical_inj {a b : Report} :
    a.canonical = b.canonical ↔ a.canonicalText = b.canonicalText := by
  have hbytes (r : Report) : ∃ s, r.canonicalText = letters s ∧ r.canonical = encodeUtf8 s := by
    obtain ⟨s, hs⟩ : ∃ s, r.canonicalText = letters s := exists_letters_write rfl _
    refine ⟨s, hs, ?_⟩
    rw [canonical, encode?, hs, chars?_letters, Option.map_some, Option.getD_some]
  obtain ⟨s, hs, ha⟩ := hbytes a
  obtain ⟨t, ht, hb⟩ := hbytes b
  rw [ha, hb, hs, ht, encodeUtf8_inj, letters_inj]

/-- **Bytes.**  Two reports have the same canonical bytes exactly if they say the same with every
    pair of surrogates as the character of the pair. -/
theorem canonical_eq_iff {a b : Report} :
    a.canonical = b.canonical ↔ SaysSame a.joined b.joined := by
  rw [canonical_inj, ← canonicalText_joined a, ← canonicalText_joined b,
    ← sortKeys_contentEntries_iff]
  constructor
  · exact write_injective (plain_sortKeys (plain_contentEntries (pairFree_joined a)))
      (plain_sortKeys (plain_contentEntries (pairFree_joined b)))
  · intro h
    rw [canonicalText, canonicalText, h]

/-- Reports without pairs of surrogates say the same when they do so with pairs as characters. -/
theorem saysSame_joined {a b : Report} (ha : a.PairFree) (hb : b.PairFree) :
    SaysSame a.joined b.joined ↔ SaysSame a b := by
  have hself {r : Report} (hr : r.PairFree) : r.mapTexts joinPairs = r :=
    mapTexts_eq_self_iff.2 fun s hs => joinPairs_of_hasSplitPair (hr s hs)
  have hchecksum : SaysSame a.joined b.joined ↔
      SaysSame (a.mapTexts joinPairs) (b.mapTexts joinPairs) :=
    ⟨fun h => ⟨h.1, h.2, h.3, h.4, h.5, h.6⟩, fun h => ⟨h.1, h.2, h.3, h.4, h.5, h.6⟩⟩
  rw [hchecksum, hself ha, hself hb]

/-- A checksum is accepted exactly if it is the digest, of which it is no part itself. -/
theorem checksumDefect?_eq_none_iff {r : Report} {c : Letters} :
    ({ r with checksum := some c } : Report).checksumDefect? = none ↔ c = ofString r.digest := by
  show (if c = ofString r.digest then none else some (Defect.checksum c r.digest)) = none ↔ _
  by_cases h : c = ofString r.digest <;> simp [h]

/-- **What a checksum protects.**  The canonical bytes of two reports are the same exactly if the
    reports agree, up to pairs of surrogates and the characters of these, in everything that is
    written of them but the checksum; where neither has such a pair in a text, exactly if they agree
    as they are.  So the checksum of one report is accepted in another one that says something else
    only if the digest is the same for two different byte strings. -/
theorem canonical_identifies (a b : Report) :
    (a.canonical = b.canonical ↔ SaysSame a.joined b.joined) ∧
      (a.PairFree → b.PairFree → (a.canonical = b.canonical ↔ SaysSame a b)) ∧
      (({ b with checksum := some (ofString a.digest) } : Report).checksumDefect? = none ↔
        SaysSame a.joined b.joined ∨ (a.canonical ≠ b.canonical ∧
          Sha256.digest a.canonical = Sha256.digest b.canonical)) := by
  refine ⟨canonical_eq_iff, fun ha hb => ?_, ?_⟩
  · rw [canonical_eq_iff, saysSame_joined ha hb]
  rw [checksumDefect?_eq_none_iff, ofString_inj, ← canonical_eq_iff, digest, digest]
  by_cases h : a.canonical = b.canonical
  · exact iff_of_true (congrArg _ h) (.inl h)
  · constructor
    · exact fun hdigest => .inr ⟨h, hdigest⟩
    · exact fun hcollision => (hcollision.resolve_left h).2

/-- `canonical_identifies` for reports of one file each, whose names differ in a quotation mark that
    is escaped in one and stands as it is in the other, with a lone surrogate behind it. -/
theorem canonical_identifies_quoted :
    let report (path : Letters) : Report :=
      build [⟨path, "C", ⟨2, 1, 1, 0⟩, by decide⟩] []
        ⟨2024, 2, 29, 23, 59, 58, 0, none, by decide⟩
    let a := report ['"', Letter.surrogate 0x3D]
    let b := report ['\\', '"', Letter.surrogate 0x3D]
    a.PairFree ∧ b.PairFree ∧ a.canonical ≠ b.canonical ∧
      (({ b with checksum := some (ofString a.digest) } : Report).checksumDefect? = none →
        Sha256.digest a.canonical = Sha256.digest b.canonical) := by
  intro report a b
  have ha : a.PairFree := by decide +kernel
  have hb : b.PairFree := by decide +kernel
  obtain ⟨hjoined, hplain, haccepted⟩ := canonical_identifies a b
  have hother : a.canonical ≠ b.canonical := fun h =>
    absurd ((hplain ha hb).1 h).files (by decide +kernel)
  refine ⟨ha, hb, hother, fun h => ?_⟩
  exact ((haccepted.1 h).resolve_left fun hsame => hother (hjoined.2 hsame)).2

/-- Two surrogates that make a pair and the character of the pair have one escape, so the canonical
    bytes do not tell a file with the one name from a file with the other. -/
theorem canonical_pair :
    let report (path : Letters) : Report :=
      build [⟨path, "C", ⟨2, 1, 1, 0⟩, by decide⟩] []
        ⟨2024, 2, 29, 23, 59, 58, 0, none, by decide⟩
    let a := report [.surrogate 0x3D, .surrogate 0x600]
    let b := report "😀"
    a.Valid ∧ b.Valid ∧ a.canonical = b.canonical ∧ ¬SaysSame a b := by
  intro report a b
  have hsame : SaysSame a.joined b.joined := by
    constructor <;> decide +kernel
  have hvalid (path : Letters) : (report path).Valid := by
    refine valid_build ?_ _ _
    exact List.nodup_singleton path
  exact ⟨hvalid _, hvalid _, canonical_eq_iff.2 hsame, fun h => absurd h.files (by decide +kernel)⟩

end LineCensus.Report
