import LineCensus.Proofs.Scan.Filing
import LineCensus.Proofs.Metrics.Phases
import LineCensus.Proofs.Metrics.Exact
import LineCensus.Proofs.Report.Summary
import LineCensus.Language.Builtin
import Mathlib.Tactic.Ring

namespace LineCensus

open Text

/-!
# Measurements of a scan

A scan that is measured keeps its accounts on the measurements that it is given:

* `Scan.Opened` — measurements with one more phase, that of the scan.
* `FaultKind.counter` — the value that counts the faults of a kind.
* `Scan.CountsFiles` — values that count what became of the files; `Scan.countsFiles_noteFiles` sets
  them, and `Scan.CountsFiles.of_values` is for what is noted later.
* `Scan.length_merged` — every distinct path is counted once.
* `Scan.fst_runMetered` — a measured scan gives what the scan gives.
* `Scan.runMetered_accounts` — the phase and the values of every scan.
-/

/-- The value that counts the faults of a kind. -/
def FaultKind.counter (k : FaultKind) : String := "file_errors_" ++ k.name

/-- Each kind of fault has a counter of its own. -/
theorem FaultKind.counter_injective : Function.Injective FaultKind.counter := by
  intro a b
  cases a <;> cases b <;> decide

namespace Scan

section Phases

variable {α : Type} {before : List (Phase α)} {p : Phase α} {m : Metered α}

/-! ### The phase -/

/-- The phases `before`, and behind them one that is the last of the scan. -/
structure Opened (before : List (Phase α)) (p : Phase α) (m : Metered α) : Prop where
  phases : m.metrics.phases = before ++ [p]
  latest : m.metrics.latest.get? "scan" = some before.length
  started : ∃ reading, p.start = some reading

variable [Gauge α]

/-- Counts the faults one by one, each under its kind. -/
def noteFaults (m : Metered α) (faults : List ScanFault) : Metered α :=
  faults.foldl (fun m f => m.tell fun x => x.increment f.kind.counter (Gauge.ofNat 1)) m

/-- What is noted of the files ends with their faults. -/
theorem noteFiles_eq (m : Metered α) (b : Buffer) :
    noteFiles m b =
      noteFaults (((m.count "files_processed_successfully" b.files.length).count
        "unsupported_files" b.unsupported.length).count "file_errors" b.faults.length) b.faults :=
  rfl

/-- Counts the lines of a report. -/
def noteLines (m : Metered α) (t : Tally Nat) : Metered α :=
  (((m.count "total_lines_processed" t.total).count "logical_lines_processed" t.logical).count
    "comment_lines_processed" t.comment).count "empty_lines_processed" t.empty

/-- What is noted of a report ends with the throughput. -/
theorem noteReport_eq (m : Metered α) (files : Nat) (r : Report) :
    noteReport m files r =
      noteThroughput ((noteLines m r.summary.tally).completePhase "scan"
        (numeral files ++ " files")) r.summary.tally.total :=
  rfl

/-- A scan begins with its phase. -/
theorem opened_noteStart (m : Metered α) (workers shares paths : Nat) :
    Opened m.metrics.phases ⟨"scan", .running, some m.clock.reading, none, "", none⟩
      (noteStart m workers shares paths) where
  phases := rfl
  latest := by
    show (m.metrics.latest.insert "scan" m.metrics.phases.length).get? "scan" = _
    rw [Table.get?_insert, if_pos rfl]
  started := ⟨_, rfl⟩

namespace Opened

/-- Values may be set while the phase is open. -/
theorem count (h : Opened before p m) (name : String) (n : Nat) :
    Opened before p (m.count name n) :=
  ⟨h.phases, h.latest, h.started⟩

/-- Faults leave the phase open. -/
theorem faults (h : Opened before p m) (faults : List ScanFault) :
    Opened before p (noteFaults m faults) := by
  induction faults generalizing m with
  | nil => exact h
  | cons f fs ih => exact ih ⟨h.phases, h.latest, h.started⟩

/-- So do files. -/
theorem files (h : Opened before p m) (b : Buffer) : Opened before p (noteFiles m b) := by
  rw [noteFiles_eq]
  exact (((h.count _ _).count _ _).count _ _).faults b.faults

/-- So do lines. -/
theorem lines (h : Opened before p m) (t : Tally Nat) : Opened before p (noteLines m t) :=
  (((h.count _ _).count _ _).count _ _).count _ _

/-- The phase has failed, and nothing else is changed. -/
theorem failed (h : Opened before p m) (error : String) :
    (m.failPhase "scan" error).metrics =
      { m.metrics with phases := before ++ [p.fail error m.clock.reading] } := by
  rw [Metered.metrics_failPhase, Metrics.failPhase_eq, Metrics.updatePhase_known h.latest h.phases]

/-- The phase is done, and its time is one more value. -/
theorem completed (h : Opened before p m) (detail : String) :
    ∃ time, (m.completePhase "scan" detail).metrics =
      { m.metrics with phases := before ++ [p.complete detail m.clock.reading] }.record
        "scan_time" time := by
  obtain ⟨start, hstart⟩ := h.started
  rw [Metered.metrics_completePhase, Metrics.completePhase_known h.latest h.phases hstart]
  exact ⟨_, rfl⟩

end Opened

/-- The lines per second are at most one more value. -/
theorem noteThroughput_cases (m : Metered α) (total : Nat) :
    noteThroughput m total = m ∨
      ∃ v, noteThroughput m total =
        m.tell fun x => x.record "overall_throughput_lines_per_sec" v := by
  rw [noteThroughput]
  split
  · split
    · exact .inl rfl
    · exact .inr ⟨_, rfl⟩
  · exact .inl rfl

/-- The throughput is no phase. -/
theorem phases_noteThroughput (m : Metered α) (total : Nat) :
    (noteThroughput m total).metrics.phases = m.metrics.phases := by
  rcases noteThroughput_cases m total with heq | ⟨v, heq⟩ <;> rw [heq]
  rfl

/-- It changes no other number. -/
theorem get?_noteThroughput (m : Metered α) (total : Nat) {name : String}
    (h : name ≠ "overall_throughput_lines_per_sec") :
    (noteThroughput m total).metrics.values.get? name = m.metrics.values.get? name := by
  rcases noteThroughput_cases m total with heq | ⟨v, heq⟩ <;> rw [heq]
  rw [Metered.tell, Metrics.get?_record, if_neg h]

/-- The end of the scan completes its phase. -/
theorem Opened.reported (h : Opened before p m) (files : Nat) (r : Report) :
    ∃ detail reading, (noteReport m files r).metrics.phases =
      before ++ [p.complete detail reading] := by
  obtain ⟨time, hcomplete⟩ := (h.lines r.summary.tally).completed (numeral files ++ " files")
  rw [noteReport_eq, phases_noteThroughput, hcomplete]
  exact ⟨_, _, rfl⟩

/-- The end of the scan sets the values of its lines, its time and its speed only. -/
theorem Opened.get?_reported (h : Opened before p m) (files : Nat) (r : Report) {name : String}
    (htime : name ≠ "scan_time") (hspeed : name ≠ "overall_throughput_lines_per_sec") :
    (noteReport m files r).metrics.values.get? name =
      (noteLines m r.summary.tally).metrics.values.get? name := by
  obtain ⟨time, hcomplete⟩ := (h.lines r.summary.tally).completed (numeral files ++ " files")
  rw [noteReport_eq, get?_noteThroughput _ _ hspeed, hcomplete, Metrics.get?_record, if_neg htime]

end Phases

/-! ### The values -/

variable {m m' : Metrics ℚ} {b : Buffer} {n : Nat}

/-- The values count what became of `n` files: those that were counted, those without a language,
    and the faults of every kind. -/
structure CountsFiles (b : Buffer) (n : Nat) (m : Metrics ℚ) : Prop where
  total : m.values.get? "total_files_to_process" = some (n : ℚ)
  files : m.values.get? "files_processed_successfully" = some (b.files.length : ℚ)
  unsupported : m.values.get? "unsupported_files" = some (b.unsupported.length : ℚ)
  faults : m.values.get? "file_errors" = some (b.faults.length : ℚ)
  kinds : ∀ k : FaultKind, (m.values.get? k.counter).getD 0 = b.faults.countP (·.kind = k)

/-- The faults add to the counter of their kind. -/
theorem get?_counter_noteFaults (m : Metered ℚ) (faults : List ScanFault) (k : FaultKind) :
    ((noteFaults m faults).metrics.values.get? k.counter).getD 0 =
      (m.metrics.values.get? k.counter).getD 0 + faults.countP (·.kind = k) := by
  induction faults generalizing m with
  | nil => simp [noteFaults]
  | cons f fs ih =>
    have hfold : noteFaults m (f :: fs) =
        noteFaults (m.tell fun x => x.increment f.kind.counter (Gauge.ofNat 1)) fs := rfl
    simp only [hfold, ih, List.countP_cons, Metered.tell, Metrics.increment, Metrics.get?_record,
      FaultKind.counter_injective.eq_iff, decide_eq_true_eq]
    by_cases hk : f.kind = k
    · rw [if_pos hk.symm, if_pos hk, hk, Option.getD_some, add_exact, ofNat_exact, ofNat_exact]
      push_cast
      ring
    · rw [if_neg (Ne.symm hk), if_neg hk, Nat.add_zero]

/-- The values that count files. -/
def fileNames : List String :=
  ["total_files_to_process", "files_processed_successfully", "unsupported_files", "file_errors"]

/-- No counter of faults is one of the counters of files. -/
theorem counter_not_mem_fileNames (k : FaultKind) : k.counter ∉ fileNames := by
  cases k <;> decide

/-- The faults leave the values that count files. -/
theorem get?_noteFaults (m : Metered ℚ) (faults : List ScanFault) {name : String}
    (h : name ∈ fileNames) :
    (noteFaults m faults).metrics.values.get? name = m.metrics.values.get? name := by
  induction faults generalizing m with
  | nil => rfl
  | cons f fs ih =>
    have hfold : noteFaults m (f :: fs) =
        noteFaults (m.tell fun x => x.increment f.kind.counter (Gauge.ofNat 1)) fs := rfl
    have hne : name ≠ f.kind.counter := fun heq => counter_not_mem_fileNames f.kind (heq ▸ h)
    rw [hfold, ih, Metered.tell, Metrics.increment, Metrics.get?_record, if_neg hne]

/-- Files that are to be noted are counted, if no fault was counted before. -/
theorem countsFiles_noteFiles {m : Metered ℚ}
    (htotal : m.metrics.values.get? "total_files_to_process" = some (n : ℚ))
    (hfresh : ∀ k : FaultKind, m.metrics.values.get? k.counter = none) (b : Buffer) :
    CountsFiles b n (noteFiles m b).metrics := by
  have hname {name : String} (h : name ∈ fileNames) := get?_noteFaults
    (((m.count "files_processed_successfully" b.files.length).count "unsupported_files"
      b.unsupported.length).count "file_errors" b.faults.length) b.faults h
  rw [noteFiles_eq]
  refine
    { total := (hname (by decide)).trans ?_
      files := (hname (by decide)).trans ?_
      unsupported := (hname (by decide)).trans ?_
      faults := (hname (by decide)).trans ?_
      kinds := fun k => ?_ }
  · simpa using htotal
  · simp
  · simp
  · simp
  · have hnames := counter_not_mem_fileNames k
    simp only [fileNames, List.mem_cons, not_or] at hnames
    rw [get?_counter_noteFaults]
    simp [hnames, hfresh]

/-! ### The lines -/

/-- The values count the lines of a tally. -/
structure CountsLines (t : Tally Nat) (m : Metrics ℚ) : Prop where
  total : m.values.get? "total_lines_processed" = some (t.total : ℚ)
  logical : m.values.get? "logical_lines_processed" = some (t.logical : ℚ)
  comment : m.values.get? "comment_lines_processed" = some (t.comment : ℚ)
  empty : m.values.get? "empty_lines_processed" = some (t.empty : ℚ)

/-- The values that are set when a scan has come to a report. -/
def reportNames : List String :=
  ["total_lines_processed", "logical_lines_processed", "comment_lines_processed",
   "empty_lines_processed", "scan_time", "overall_throughput_lines_per_sec"]

/-- What became of the files stays counted while other values are set. -/
theorem CountsFiles.of_values (h : CountsFiles b n m)
    (hvalues : ∀ name ∉ reportNames, m'.values.get? name = m.values.get? name) :
    CountsFiles b n m' where
  total := (hvalues _ (by decide)).trans h.total
  files := (hvalues _ (by decide)).trans h.files
  unsupported := (hvalues _ (by decide)).trans h.unsupported
  faults := (hvalues _ (by decide)).trans h.faults
  kinds k := by
    have hk : k.counter ∉ reportNames := by cases k <;> decide
    rw [hvalues _ hk, h.kinds]

/-- The end of the scan keeps the files counted and counts the lines. -/
theorem counts_noteReport {before : List (Phase ℚ)} {p : Phase ℚ} {m : Metered ℚ}
    (h : Opened before p m) (hfiles : CountsFiles b n m.metrics) (files : Nat) (r : Report) :
    CountsFiles b n (noteReport m files r).metrics ∧
      CountsLines r.summary.tally (noteReport m files r).metrics := by
  constructor
  · refine hfiles.of_values fun name hname => ?_
    simp only [reportNames, List.mem_cons, not_or] at hname
    rw [h.get?_reported files r (by tauto) (by tauto)]
    simp [noteLines, hname]
  · constructor
    all_goals
      rw [h.get?_reported files r (by decide) (by decide)]
      simp [noteLines]

/-! ### Whole scans -/

/-- **Conservation.**  Every distinct path is a file that was counted, one without a language or a
    fault. -/
theorem length_merged (q : Request) (read : Reader) (h : uniquePaths q.paths ≠ []) :
    (uniquePaths q.paths).length =
      (q.merged read).files.length + (q.merged read).unsupported.length +
        (q.merged read).faults.length := by
  have hpath : ∀ p, (q.outcome read p).path = ofString p := outcomeOf_path _ _ _ _
  have hfiled := (scanShare_paths_perm hpath q.shares.flatten).length_eq
  rw [List.length_map] at hfiled
  rw [← (q.shares_flatten_perm h).length_eq, ← hfiled, Request.merged, merge_scanShare]
  simp only [List.length_append, List.length_map, (sortOn_perm _ _).length_eq]

/-- Every fault is of one kind. -/
theorem sum_countP_kinds (faults : List ScanFault) :
    (FaultKind.all.map fun k => faults.countP (·.kind = k)).sum = faults.length := by
  induction faults with
  | nil => rfl
  | cons f fs ih =>
    rw [List.length_cons, ← ih]
    simp only [FaultKind.all, List.map_cons, List.map_nil, List.sum_cons, List.sum_nil,
      List.countP_cons]
    cases f.kind <;> simp <;> omega

/-- The measurements when the files of a request are noted. -/
def noted {α : Type} [Gauge α] (q : Request) (read : Reader) (m : Metered α) : Metered α :=
  noteFiles (noteStart m q.workers q.shares.length (uniquePaths q.paths).length) (q.merged read)

/-- **What a measured scan can do.**  It is refused for being empty, and nothing is noted; or its
    files are noted, and either all of them have failed or there is a report. -/
theorem runMetered_cases {α : Type} [Gauge α] (q : Request) (read : Reader) (now : Moment)
    (m : Metered α) :
    runMetered q read now m = (.error .emptyInput, m) ∨
    uniquePaths q.paths ≠ [] ∧
      ((∃ faults, runMetered q read now m =
          (.error (.allFailed faults), (noted q read m).failPhase "scan" "all files failed")) ∨
        ∃ faults, let report := Report.build (q.merged read).files (q.merged read).unsupported now
          runMetered q read now m =
            (.ok ⟨report, faults⟩, noteReport (noted q read m) (q.merged read).files.length report)) := by
  simp only [runMetered, conclude]
  split
  · exact .inl rfl
  · next hpaths =>
    refine .inr ⟨mt List.length_eq_zero_iff.2 hpaths, ?_⟩
    by_cases hfailed : (q.merged read).faults.length = (uniquePaths q.paths).length
    · rw [if_pos hfailed]
      exact .inl ⟨_, rfl⟩
    · rw [if_neg hfailed]
      exact .inr ⟨_, rfl⟩

/-- After all that is noted of the files, the phase of the scan is open. -/
theorem opened_noted {α : Type} [Gauge α] (q : Request) (read : Reader) (m : Metered α) :
    Opened m.metrics.phases ⟨"scan", .running, some m.clock.reading, none, "", none⟩
      (noted q read m) :=
  (opened_noteStart m _ _ _).files _

/-- The counters have counted the files then. -/
theorem countsFiles_noted (q : Request) (read : Reader) {m : Metered ℚ}
    (hfresh : ∀ k : FaultKind, m.metrics.values.get? k.counter = none) :
    CountsFiles (q.merged read) (uniquePaths q.paths).length (noted q read m).metrics := by
  have hvalues : (m.startPhase "scan").metrics.values = m.metrics.values := rfl
  refine countsFiles_noteFiles (by simp [noteStart]) (fun k => ?_) _
  have hnames : k.counter ≠ "thread_count" ∧ k.counter ≠ "partition_count" ∧
      k.counter ≠ "total_files_to_process" := by cases k <;> decide
  simp [noteStart, hnames, hvalues, hfresh]

/-- The faults are the sum of those of every kind. -/
theorem CountsFiles.sum_kinds (h : CountsFiles b n m) :
    (b.faults.length : ℚ) =
      (FaultKind.all.map fun k => (m.values.get? k.counter).getD 0).sum := by
  simp only [h.kinds]
  rw [← sum_countP_kinds b.faults]
  simp [FaultKind.all]

/-- **Measurements change nothing about the result.** -/
theorem fst_runMetered {α : Type} [Gauge α] (q : Request) (read : Reader) (now : Moment)
    (m : Metered α) : (runMetered q read now m).1 = run q read now := by
  unfold runMetered run
  dsimp only
  split
  · rfl
  · split
    · next h => exact h.symm
    · next h => exact h.symm

/-- What is counted at the end of a scan: the files unless it was refused for being empty, and the
    lines if there is a report. -/
theorem counts_runMetered (q : Request) (read : Reader) (now : Moment) {m : Metered ℚ}
    (hfresh : ∀ k : FaultKind, m.metrics.values.get? k.counter = none) :
    let done := runMetered q read now m
    (done.1 ≠ .error .emptyInput → uniquePaths q.paths ≠ [] ∧
      CountsFiles (q.merged read) (uniquePaths q.paths).length done.2.metrics) ∧
    ∀ r, done.1 = .ok r →
      r.report.summary.tally.Balanced ∧ CountsLines r.report.summary.tally done.2.metrics := by
  have hopened := opened_noted q read m
  have hnoted := countsFiles_noted q read hfresh
  rcases runMetered_cases q read now m with hrun | ⟨hpaths, ⟨faults, hrun⟩ | ⟨faults, hrun⟩⟩ <;>
    rw [hrun]
  · exact ⟨fun h => absurd rfl h, fun r h => by cases h⟩
  · refine ⟨fun _ => ⟨hpaths, ?_⟩, fun r h => by cases h⟩
    rw [hopened.failed]
    exact hnoted.of_values fun _ _ => rfl
  · obtain ⟨hfiles, hlines⟩ := counts_noteReport hopened hnoted (q.merged read).files.length
      (Report.build (q.merged read).files (q.merged read).unsupported now)
    refine ⟨fun _ => ⟨hpaths, hfiles⟩, ?_⟩
    rintro _ ⟨⟩
    exact ⟨balanced_summarize (balanced_summarizeLanguages _), hlines⟩

/-- The phase of a scan: nothing is changed if the scan is refused for being empty, and otherwise
    there is one more phase, done or failed as the scan is. -/
theorem phases_runMetered {α : Type} [Gauge α] (q : Request) (read : Reader) (now : Moment)
    (m : Metered α) :
    let done := runMetered q read now m
    (done.1 = .error .emptyInput → done.2 = m) ∧
    (done.1 ≠ .error .emptyInput → ∃ p : Phase α,
      done.2.metrics.phases = m.metrics.phases ++ [p] ∧ p.name = "scan" ∧
      (∀ r, done.1 = .ok r → p.status = .completed) ∧
      ∀ faults, done.1 = .error (.allFailed faults) → p.status = .failed) := by
  have hopened := opened_noted q read m
  rcases runMetered_cases q read now m with hrun | ⟨-, ⟨faults, hrun⟩ | ⟨faults, hrun⟩⟩ <;>
    rw [hrun]
  · exact ⟨fun _ => rfl, fun h => absurd rfl h⟩
  · have hphases := congrArg Metrics.phases (hopened.failed "all files failed")
    refine ⟨fun h => ?_, fun _ => ⟨_, hphases, rfl, fun r h => ?_, fun _ _ => rfl⟩⟩
    all_goals cases h
  · obtain ⟨detail, reading, hphases⟩ := hopened.reported (q.merged read).files.length _
    refine ⟨fun h => ?_, fun _ => ⟨_, hphases, rfl, fun _ _ => rfl, fun faults h => ?_⟩⟩
    all_goals cases h

/-- **The accounts of a scan.**  A measured scan gives what the scan gives without measurements.  If
    that is a refusal for being empty, the measurements stay as they are.  Otherwise there is one
    phase more behind those that are there, done if there is a report and failed if all files
    failed.  In exact numbers, and if no faults were counted before, every distinct path is then
    counted as a file, as one without a language or as a fault, and the faults are the sum of those
    of every kind; and if there is a report, the lines that are counted are those of its summary,
    and the three kinds make up the total. -/
theorem runMetered_accounts (q : Request) (read : Reader) (now : Moment) :
    let result := run q read now
    (∀ {α : Type} [Gauge α] (m : Metered α),
      let done := runMetered q read now m
      done.1 = result ∧
      (result = .error .emptyInput → done.2 = m) ∧
      (result ≠ .error .emptyInput → ∃ p : Phase α,
        done.2.metrics.phases = m.metrics.phases ++ [p] ∧ p.name = "scan" ∧
        (∀ r, result = .ok r → p.status = .completed) ∧
        ∀ faults, result = .error (.allFailed faults) → p.status = .failed)) ∧
    ∀ m : Metered ℚ, (∀ k : FaultKind, m.metrics.values.get? k.counter = none) →
      let done := runMetered q read now m
      let value := fun name => done.2.metrics.values.get? name
      (result ≠ .error .emptyInput → ∃ paths files unsupported faults : ℚ,
        value "total_files_to_process" = some paths ∧
        value "files_processed_successfully" = some files ∧
        value "unsupported_files" = some unsupported ∧
        value "file_errors" = some faults ∧
        paths = files + unsupported + faults ∧
        paths = (uniquePaths q.paths).length ∧
        faults = (FaultKind.all.map fun k => (value k.counter).getD 0).sum) ∧
      ∀ r, result = .ok r → ∃ total logical comment empty : ℚ,
        value "total_lines_processed" = some total ∧
        value "logical_lines_processed" = some logical ∧
        value "comment_lines_processed" = some comment ∧
        value "empty_lines_processed" = some empty ∧
        total = logical + comment + empty ∧
        total = r.report.summary.tally.total ∧ logical = r.report.summary.tally.logical ∧
        comment = r.report.summary.tally.comment ∧ empty = r.report.summary.tally.empty := by
  intro result
  constructor
  · intro α _ m
    have hresult : (runMetered q read now m).1 = result := fst_runMetered q read now m
    have hphases := phases_runMetered q read now m
    dsimp only at hphases
    rw [hresult] at hphases
    exact ⟨hresult, hphases⟩
  · intro m hfresh
    -- The counts start at nothing, so the values are those of this scan alone.
    obtain ⟨hfiles, hlines⟩ := counts_runMetered q read now hfresh
    rw [fst_runMetered] at hfiles hlines
    refine ⟨fun hdone => ?_, fun r hr => ?_⟩
    · obtain ⟨hpaths, hcounts⟩ := hfiles hdone
      refine ⟨_, _, _, _, hcounts.total, hcounts.files, hcounts.unsupported, hcounts.faults,
        ?_, rfl, hcounts.sum_kinds⟩
      exact_mod_cast length_merged q read hpaths
    · obtain ⟨hbalanced, hcounts⟩ := hlines r hr
      refine ⟨_, _, _, _, hcounts.total, hcounts.logical, hcounts.comment, hcounts.empty, ?_, rfl,
        rfl, rfl, rfl⟩
      exact_mod_cast hbalanced

/-- `runMetered_accounts` for a file, a path without a language and faults of two kinds, with the
    measurements of a scan that has failed before: there is a report, so the new phase is done, and
    all values are there. -/
theorem runMetered_accounts_again :
    let now : Moment := ⟨2026, 1, 2, 3, 4, 5, 0, some 0, by decide⟩
    let q : Request :=
      { paths := ["a.rs", "b.rs", "c.py", "notes"], registry := Registry.withBuiltins []
        threads := some 2 }
    let read : Reader := fun path =>
      if path = "a.rs" then .ok ["mod b;", "", "// end", "use b::c;"]
      else if path = "b.rs" then .error (.encoding "invalid start byte")
      else .error (.path "No such file or directory")
    let m : Metered ℚ :=
      { metrics :=
          { operation := "count"
            phases := [⟨"scan", .failed, some 0, some (1 / 2), "", some "all files failed"⟩]
            values := [("thread_count", 1), ("total_lines_processed", 7)]
            latest := [("scan", 0)] }
        clock := ⟨1, 1 / 4⟩ }
    let done := runMetered q read now m
    let value := fun name => done.2.metrics.values.get? name
    (∀ k : FaultKind, m.metrics.values.get? k.counter = none) ∧ ∃ r : ScanResult,
      done.1 = .ok r ∧
      (∃ p : Phase ℚ, done.2.metrics.phases = m.metrics.phases ++ [p] ∧ p.name = "scan" ∧
        p.status = .completed) ∧
      (∃ paths files unsupported faults : ℚ,
        value "total_files_to_process" = some paths ∧
        value "files_processed_successfully" = some files ∧
        value "unsupported_files" = some unsupported ∧
        value "file_errors" = some faults ∧
        paths = files + unsupported + faults ∧
        paths = (uniquePaths q.paths).length ∧
        faults = (FaultKind.all.map fun k => (value k.counter).getD 0).sum) ∧
      ∃ total logical comment empty : ℚ,
        value "total_lines_processed" = some total ∧
        value "logical_lines_processed" = some logical ∧
        value "comment_lines_processed" = some comment ∧
        value "empty_lines_processed" = some empty ∧
        total = logical + comment + empty ∧
        total = r.report.summary.tally.total ∧ logical = r.report.summary.tally.logical ∧
        comment = r.report.summary.tally.comment ∧ empty = r.report.summary.tally.empty := by
  intro now q read m done value
  have hfresh : ∀ k : FaultKind, m.metrics.values.get? k.counter = none := by
    intro k
    cases k <;> decide
  -- `a.rs` has a language and can be read, so not every path fails.
  have hread : ¬ ∀ p ∈ q.paths.map Path.normalize, q.Fails read p := by
    intro hall
    obtain ⟨u, hu⟩ | ⟨c, e, -, he⟩ := hall "a.rs" (by decide +kernel)
    · have hlanguage : (q.language "a.rs").toOption.isSome := by decide +kernel
      rw [hu] at hlanguage
      cases hlanguage
    · cases he
  obtain ⟨r, hr, -⟩ := run_of_not_all_fail hread now
  have hne : run q read now ≠ .error .emptyInput := by
    rw [hr]
    exact fun h => by cases h
  obtain ⟨hphases, hvalues⟩ := runMetered_accounts q read now
  obtain ⟨hresult, -, hopen⟩ := hphases m
  obtain ⟨p, hp, hname, hdone, -⟩ := hopen hne
  obtain ⟨hfiles, hlines⟩ := hvalues m hfresh
  exact ⟨hfresh, r, hresult.trans hr, ⟨p, hp, hname, hdone r hr⟩, hfiles hne, hlines r hr⟩

end Scan

end LineCensus
