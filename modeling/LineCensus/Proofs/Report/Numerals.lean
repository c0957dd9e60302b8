import LineCensus.Proofs.Report.Storage
import LineCensus.Proofs.Schema.Numerals

namespace LineCensus.Report

open Text Schema

/-!
# Records whose numbers are texts

Sheets and elements hold nothing but texts, so counts are written as numerals there.

* `ShortTally` — four counts that can be read.
* `reads_readTally`, `reads_readFileEntry` — the counts among the fields of a table, and a file.
-/

/-- None of the four counts has too many digits to be read. -/
def ShortTally (t : Tally Nat) : Prop := ∀ n ∈ tallyCounts t, Short n

instance (t : Tally Nat) : Decidable (ShortTally t) := inferInstanceAs (Decidable (∀ n ∈ _, _))

/-- Four counts can be read if each of them can. -/
theorem shortTally_iff {t : Tally Nat} :
    ShortTally t ↔ Short t.total ∧ Short t.logical ∧ Short t.comment ∧ Short t.empty := by
  simp [ShortTally, tallyCounts]

/-- The counts are read from their numerals. -/
theorem reads_readTally {t : Table (Value Letters) Letters} {c : Tally Nat}
    (htotal : t.get? (ofString "total") = some (.text (ofString (numeral c.total))))
    (hlogical : t.get? (ofString "logical") = some (.text (ofString (numeral c.logical))))
    (hcomment : t.get? (ofString "comment") = some (.text (ofString (numeral c.comment))))
    (hempty : t.get? (ofString "empty") = some (.text (ofString (numeral c.empty)))) :
    Reads (readTally t) c (ShortTally c) := by
  have hfields := (Reads.field htotal (reads_count_numeral c.total) []).both <|
    (Reads.field hlogical (reads_count_numeral c.logical) []).both <|
    (Reads.field hcomment (reads_count_numeral c.comment) []).both
      (Reads.field hempty (reads_count_numeral c.empty) [])
  exact (hfields.map _).congr shortTally_iff.symm

/-- A file is read from its path, its language and the numerals of its counts. -/
theorem reads_readFileEntry {t : Table (Value Letters) Letters} {path language : Letters}
    {c : Tally Nat}
    (hbalanced : c.Balanced) (hpath : t.get? (ofString "path") = some (.text path))
    (hlanguage : t.get? (ofString "language") = some (.text language))
    (htally : Reads (readTally t) c (ShortTally c)) :
    Reads (readFileEntry t) ⟨path, language, c, hbalanced⟩ (ShortTally c) := by
  have hfields := (Reads.field hpath (Reads.of_eq (text_text path)) []).both <|
    (Reads.field hlanguage (Reads.of_eq (text_text language)) []).both htally
  have hfile : Reads (balancedFile path language c) ⟨path, language, c, hbalanced⟩ True :=
    Reads.of_eq (dif_pos hbalanced)
  have hread := hfields.bind (y := fun f => balancedFile f.1 f.2.1 f.2.2) hfile
  simp only [true_and, and_true] at hread
  rw [readFileEntry]
  generalize both (field t ["path"] text) _ = read at hread ⊢
  cases read <;> exact hread

end LineCensus.Report
