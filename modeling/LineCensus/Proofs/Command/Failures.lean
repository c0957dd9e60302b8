import LineCensus.Proofs.Command.Parts

namespace LineCensus.Command

open Text

/-!
# Commands that fail

* `Hindered` — why a command cannot do its work: it cannot scan, a saved report cannot be loaded, or
  there is no configuration.
* `Unlogged` — measurements cannot be appended to their log.
* `Halted` — a command that ends early leaves the files as they were, or it was not hindered and
  its measurements could not be appended, or the text that it was to save had no bytes.
* `leads_perform` — every command ends early, or it was not hindered.
* `called?` — the command that the words of the program call, and what it is given.
* `leads_runProgram` — the program does what the command does that is called, or changes no file.
* `files_of_transcript` — what changes files.
* `transcript_of_called` — a hindered command fails and leaves all files as they were.
-/

/-! ### Reasons -/

/-- The configuration of a command that scans. -/
def scanConfig (w : Surroundings) (g : Given) : Except ConfigError Config :=
  let o := ScanOptions.ofGiven g
  Config.load w.files o.config o.metrics o.metricsFile

/-- Why a command that scans cannot do its work. -/
inductive Unscanned (w : Surroundings) (g : Given) : Prop where
  /-- Neither are paths given nor are they to be read. -/
  | nothingGiven (hpaths : (ScanOptions.ofGiven g).paths = [])
      (hinput : (ScanOptions.ofGiven g).fromInput = false)
  /-- The configuration cannot be loaded. -/
  | unconfigured {e : ConfigError} (h : scanConfig w g = .error e)
  /-- There is nothing to scan, or every file failed. -/
  | empty {c : Config} {e : Scan.ScanError} (hc : scanConfig w g = .ok c)
      (h : Scans w w.files (ScanOptions.ofGiven g) c (.error e))

/-- The report at a path cannot be loaded: its file cannot be read, or the report is malformed. -/
def Unloaded (w : Surroundings) (path : String) : Prop :=
  ∃ e, Report.loadFile w.files path none w.now = .error e

/-- The configuration whose languages are to be listed cannot be loaded. -/
def Unlisted (w : Surroundings) (g : Given) : Prop :=
  ∃ e, Config.load w.files (g.text? "config") false none = .error e

/-- Why the command with a name cannot do its work. -/
def Hindered (w : Surroundings) (g : Given) (name : String) : Prop :=
  match name with
  | "count" => Unscanned w g
  | "report" => Unscanned w g
  | "process" => Unloaded w (g.word 0)
  | "compare" => Unloaded w (g.word 0) ∨ Unloaded w (g.word 1)
  | _ => Unlisted w g

/-- Measurements are to be appended to a log and cannot be, the files being as they are. -/
def Unlogged (w : Surroundings) (g : Given) (files : Files.Tree) : Prop :=
  ∃ (c : Config) (m : Metrics Float) (e : StoreError), scanConfig w g = .ok c ∧
    c.performance.metrics = true ∧ m.appendTo files c.performance.metricsFile = .error e

/-- What a command that ends early leaves behind: all files as they were, or, if it was not
    hindered, nothing but the log of measurements to be written, or the file to be saved without its
    text. -/
def LeavesFiles (w : Surroundings) (g : Given) (name : String) (crash : Option Crash)
    (after : Files.Tree) : Prop :=
  after = w.files ∨ ¬Hindered w g name ∧ (Unlogged w g after ∨ Emptied w.files crash after)

/-- An early end of a command. -/
def Halted (w : Surroundings) (g : Given) (name : String) (h : Halt) (t : Session) : Prop :=
  h.code = 1 ∧ LeavesFiles w g name h.crash? t.files

variable {w : Surroundings} {g : Given} {name : String} {s : Session} {α : Type}

/-- A failure with the files as they were. -/
theorem Failed.halted {h : Halt} {t : Session} (hf : Failed w.files h t) : Halted w g name h t :=
  ⟨hf.1, .inl hf.2⟩

/-- A part that fails with the files as they were. -/
theorem Leads.halted {m : Run α} {ok : α → Session → Prop} (h : Leads m s ok (Failed w.files)) :
    Leads m s ok (Halted w g name) :=
  h.mono (fun _ _ hok => hok) fun _ _ => Failed.halted

/-- A part that fails in the middle of saving, when nothing hinders any more. -/
theorem Leads.unsaved {m : Run α} {ok : α → Session → Prop} (h : Leads m s ok (Unsaved w.files))
    (hfree : ¬Hindered w g name) : Leads m s ok (Halted w g name) :=
  h.mono (fun _ _ hok => hok) fun _ _ hunsaved =>
    ⟨hunsaved.1, hunsaved.2.imp_right fun hemptied => ⟨hfree, .inr hemptied⟩⟩

/-! ### Commands that scan -/

/-- A scan that gives a report is not hindered. -/
theorem not_unscanned {c : Config} {result : Scan.ScanResult}
    (hgiven : (ScanOptions.ofGiven g).paths = [] → (ScanOptions.ofGiven g).fromInput = true)
    (hc : scanConfig w g = .ok c)
    (hscan : Scans w w.files (ScanOptions.ofGiven g) c (.ok result)) : ¬Unscanned w g := by
  intro h
  cases h with
  | nothingGiven hpaths hinput =>
    rw [hgiven hpaths] at hinput
    cases hinput
  | unconfigured he =>
    rw [hc] at he
    cases he
  | empty hc' he =>
    rw [hc] at hc'
    cases hc'
    obtain ⟨found, hfound, hok⟩ := hscan
    obtain ⟨found', hfound', herror⟩ := he
    rw [hfound] at hfound'
    cases hfound'
    rw [hok] at herror
    cases herror

/-- Measurements that cannot be appended end a command that did all of its work. -/
theorem leads_last {c : Config} (hfree : ¬Hindered w g name) (hc : scanConfig w g = .ok c) :
    Leads (finish c) s (fun _ _ => ¬Hindered w g name) (Halted w g name) := by
  refine (leads_finish rfl c).mono (fun _ _ _ => hfree) fun h t hfailed => ?_
  obtain ⟨⟨hcode, hfiles⟩, hmetrics, m, e, happend⟩ := hfailed
  exact ⟨hcode, .inr ⟨hfree, .inl ⟨c, m, e, hc, hmetrics, hfiles ▸ happend⟩⟩⟩

/-- After its scan a command is not hindered, whatever it still has to do. -/
theorem leads_rest {c : Config} {rest : Run Unit} (hfree : ¬Hindered w g name)
    (hc : scanConfig w g = .ok c)
    (hrest : ∀ t, Leads rest t (fun _ _ => True) (Halted w g name)) :
    Leads (do finish c; rest) s (fun _ _ => ¬Hindered w g name) (Halted w g name) := by
  refine .bind (leads_last hfree hc) fun _ t _ => ?_
  exact (hrest t).mono (fun _ _ _ => hfree) fun _ _ h => h

section Commands

variable (hs : s.files = w.files)
include hs

/-- What a command that scans does about its result is done with all files as they were. -/
theorem leads_scanned (operation : String) {ok : α → Session → Prop}
    {rest : Config → Except Scan.ScanError Scan.ScanResult → Run α}
    (hrest : ∀ c result t, t.files = w.files → scanConfig w g = .ok c →
      Scans w w.files (ScanOptions.ofGiven g) c result →
      Leads (rest c result) t ok (Halted w g name)) :
    Leads (do
      let o := ScanOptions.ofGiven g
      let c ← loadConfig o.config o.metrics o.metricsFile
      begin operation w.now w.processors o
      let result ← scan w o c
      rest c result) s ok (Halted w g name) := by
  refine .bind (leads_loadConfig hs _ _ _).halted fun c s hload => ?_
  obtain ⟨hs, hc⟩ := hload
  refine .bind (leads_begin hs _ _ _ _).halted fun _ s hs => ?_
  refine .bind (leads_scan hs w _ c).halted fun result s hscan => ?_
  exact hrest c result s hscan.1 hc hscan.2

/-- Counting and printing. -/
theorem leads_runCount :
    Leads (runCount w g) s (fun _ _ => ¬Hindered w g "count") (Halted w g "count") := by
  unfold runCount
  dsimp only
  split
  · exact .halts (leads_fail hs _).halted
  · next hgiven =>
    refine leads_scanned hs _ fun c result s hs hc hscan => ?_
    cases result with
    | error e =>
      dsimp only
      split
      · exact .bind (leads_keep hs) fun _ s hs => (leads_fail hs _).halted
      · exact (leads_fail hs _).halted
    | ok result =>
      have hfree : ¬Hindered w g "count" :=
        not_unscanned (by simpa using hgiven) hc hscan
      have hrest : ∀ r t, Leads (do print (speedLine r (← get).measured)) t (fun _ _ => True)
          (Halted w g "count") := fun _ _ => .bind leads_get fun _ _ _ => leads_print_ofString _
      -- From the export on files may have changed, and only `hfree` is of use.
      refine .bind (leads_print hs _).halted fun _ s hs => ?_
      split
      · refine .bind ((leads_exportReport hs _ _ _ c).unsaved hfree) fun _ s _ => ?_
        exact .bind (leads_print_ofString _) fun _ s _ => leads_rest hfree hc (hrest _)
      · exact leads_rest hfree hc (hrest _)

/-- Counting and saving. -/
theorem leads_runReport :
    Leads (runReport w g) s (fun _ _ => ¬Hindered w g "report") (Halted w g "report") := by
  unfold runReport
  dsimp only
  split
  · exact .halts (leads_fail hs _).halted
  · next hgiven =>
    refine leads_scanned hs _ fun c result s hs hc hscan => ?_
    cases result with
    | error e => exact (leads_fail hs _).halted
    | ok result =>
      have hfree : ¬Hindered w g "report" :=
        not_unscanned (fun h => absurd (List.isEmpty_iff.mpr h) hgiven) hc hscan
      refine .bind ((leads_exportReport hs _ _ _ c).unsaved hfree) fun _ s _ => ?_
      exact leads_rest hfree hc fun _ => .bind leads_modify_trivial fun _ _ _ =>
        leads_print_ofString _

/-! ### Commands on saved reports and on languages -/

/-- Printing a saved report. -/
theorem leads_runProcess :
    Leads (runProcess w g) s (fun _ _ => ¬Hindered w g "process") (Halted w g "process") := by
  unfold runProcess
  refine .bind (leads_loadReport hs _ _).halted fun r s hload => ?_
  obtain ⟨hs, hload⟩ := hload
  have hfree : ¬Hindered w g "process" := by
    rintro ⟨e, he⟩
    rw [hload] at he
    cases he
  refine .bind (leads_print hs _).halted fun _ s hs => ?_
  split
  · refine .bind ((leads_saveReport hs _ _ _).unsaved hfree) fun _ s _ => ?_
    exact (leads_print_ofString _).mono (fun _ _ _ => hfree) fun _ _ h => h
  · exact leads_pure hfree

/-- Comparing two saved reports. -/
theorem leads_runCompare :
    Leads (runCompare w g) s (fun _ _ => ¬Hindered w g "compare") (Halted w g "compare") := by
  unfold runCompare
  refine .bind (leads_loadReport hs _ _).halted fun old s hold => ?_
  obtain ⟨hs, hold⟩ := hold
  refine .bind (leads_loadReport hs _ _).halted fun new s hnew => ?_
  obtain ⟨hs, hnew⟩ := hnew
  have hfree : ¬Hindered w g "compare" := by
    rintro (⟨e, he⟩ | ⟨e, he⟩)
    · rw [hold] at he
      cases he
    · rw [hnew] at he
      cases he
  refine .bind (leads_print hs _).halted fun _ s hs => ?_
  split
  · refine .bind ((leads_saveComparison hs _ _ _).unsaved hfree) fun _ s _ => ?_
    exact (leads_print_ofString _).mono (fun _ _ _ => hfree) fun _ _ h => h
  · exact leads_pure hfree

/-- The languages are listed, whatever other name the command has. -/
theorem leads_runLanguages (hname : Hindered w g name = Unlisted w g) :
    Leads (runLanguages g) s (fun _ _ => ¬Hindered w g name) (Halted w g name) := by
  refine .bind (leads_loadConfig hs _ _ _).halted fun c s hload => ?_
  obtain ⟨hs, hc⟩ := hload
  have hfree : ¬Hindered w g name := by
    rw [hname]
    rintro ⟨e, he⟩
    rw [hc] at he
    cases he
  refine .bind (leads_keep hs) fun _ s hs => ?_
  exact leads_modify hfree

/-! ### All commands -/

/-- **A command.**  If it comes to its end, it was not hindered. -/
theorem leads_perform (name : String) :
    Leads (perform w name g) s (fun _ _ => ¬Hindered w g name) (Halted w g name) := by
  unfold perform
  split
  · exact leads_runCount hs
  · exact leads_runReport hs
  · exact leads_runProcess hs
  · exact leads_runCompare hs
  · exact leads_runLanguages hs (by simp [Hindered, *])

end Commands

/-! ### The program -/

/-- The command with a name, and what it is given with some words. -/
def given? (w : Surroundings) (name : String) (grammar : Grammar) (words : List String) :
    Option (String × Given) :=
  match grammar.read w.files words with
  | .given g => some (name, g)
  | _ => none

/-- The command that words call behind the switches of the program. -/
def calledBy? (w : Surroundings) (verbose : Bool) : List String → Option (String × Given)
  | [] => none
  | name :: words =>
    match Table.get? commands name,
      Log.threshold? (if verbose then "DEBUG" else w.level.getD "WARNING") with
    | some grammar, some _ => given? w name grammar words
    | _, _ => none

/-- The command that the words of the program call, and what it is given. -/
def called? (w : Surroundings) (words : List String) : Option (String × Given) :=
  match splitWords program false words with
  | .error _ => none
  | .ok split =>
    match askedPage? split.switches with
    | some _ => none
    | none => calledBy? w (split.switches.any fun o => o.1.name == "verbose") split.operands

/-- What has happened when the program comes to its end. -/
def Done (w : Surroundings) (called : Option (String × Given)) (t : Session) : Prop :=
  match called with
  | some (name, g) => ¬Hindered w g name
  | none => t.files = w.files

/-- What has happened when the program ends early. -/
def Stopped (w : Surroundings) (called : Option (String × Given)) (h : Halt) (t : Session) : Prop :=
  match called with
  | some (name, g) => Halted w g name h t
  | none => t.files = w.files

section Program

variable {words : List String} (hs : s.files = w.files)
include hs

/-- Wrong words change no file. -/
theorem leads_misuse {ok : α → Session → Prop} (grammar : Grammar) (f : UsageFault) :
    Leads (misuse grammar f : Run α) s ok (Stopped w none) := by
  unfold misuse
  dsimp only
  split
  · exact .halts ⟨hs⟩
  · exact .bind (leads_keep hs) fun _ _ h => ⟨h⟩

/-- The switches of the program are read, or no command is called. -/
theorem leads_readFront :
    Leads (readFront words) s
      (fun front t => t.files = w.files ∧ called? w words = calledBy? w front.1 front.2)
      (fun h t => called? w words = none ∧ Stopped w none h t) := by
  unfold readFront called?
  cases splitWords program false words with
  | error f => exact (leads_misuse hs program f).mono (fun _ _ h => h) fun _ _ h => ⟨rfl, h⟩
  | ok split =>
    dsimp only
    cases askedPage? split.switches with
    | some page => exact .bind (leads_keep hs) fun _ _ h => ⟨rfl, h⟩
    | none => exact leads_pure ⟨hs, rfl⟩

/-- A word that is no command is refused, perhaps after it was read as a switch. -/
theorem leads_refuseCommand :
    Leads (refuseCommand name words) s (fun _ => Done w none) (Stopped w none) := by
  unfold refuseCommand
  dsimp only
  split
  · have hread : Leads (discard (readFront (name :: words))) s (fun _ t => t.files = w.files)
        (Stopped w none) :=
      .bind ((leads_readFront hs).mono (fun _ _ h => h.1) fun _ _ h => h.2) fun _ _ hs =>
        leads_pure hs
    exact hread.bind fun _ _ hs => leads_misuse hs _ _
  · exact leads_misuse hs _ _

/-- A command that is given its words does what it does, and changes no file otherwise. -/
theorem leads_runCommand (grammar : Grammar) :
    Leads (runCommand w name grammar words) s (fun _ => Done w (given? w name grammar words))
      (Stopped w (given? w name grammar words)) := by
  refine .bind leads_get fun _ _ => ?_
  rintro ⟨rfl, rfl⟩
  unfold given?
  rw [hs]
  cases grammar.read w.files words with
  | page _ => exact leads_keep hs
  | fault f => exact leads_misuse hs grammar f
  | given g => exact leads_perform hs name

end Program

/-- **The program.**  It does what the command does that is called, or it changes no file. -/
theorem leads_runProgram (words : List String) :
    Leads (runProgram w words) w.session (fun _ => Done w (called? w words))
      (Stopped w (called? w words)) := by
  unfold runProgram
  dsimp only
  split
  · next hempty =>
    rw [List.isEmpty_iff.mp hempty]
    exact .bind (leads_keep rfl) fun _ _ h => .halts ⟨h⟩
  · -- The switches in front of the command are read first, and they touch no file.
    have hfront : Leads (readFront words) w.session
        (fun front t => t.files = w.files ∧ called? w words = calledBy? w front.1 front.2)
        (Stopped w (called? w words)) := by
      refine (leads_readFront rfl).mono (fun _ _ h => h) fun _ _ h => ?_
      rw [h.1]
      exact h.2
    refine hfront.bind fun ⟨verbose, rest⟩ s h => ?_
    obtain ⟨hs, hcalled⟩ := h
    rw [hcalled]
    dsimp only
    cases rest with
    | nil => exact leads_misuse hs _ _
    | cons name rest =>
      unfold calledBy? setLevel
      dsimp only
      cases Table.get? commands name with
      | none => exact leads_refuseCommand hs
      | some grammar =>
        dsimp only
        cases Log.threshold? (if verbose then "DEBUG" else w.level.getD "WARNING") with
        | none => exact .halts ⟨hs⟩
        | some threshold => exact .bind (leads_keep hs) fun _ _ hs => leads_runCommand hs grammar

/-- What a run of the program leaves behind tells how the program ended. -/
theorem transcript_done_or_stopped (w : Surroundings) (words : List String) :
    (∃ t, transcript w words = ⟨0, none, t⟩ ∧ Done w (called? w words) t) ∨
      ∃ h t, transcript w words = ⟨h.code, h.crash?, t⟩ ∧ Stopped w (called? w words) h t := by
  have h := (leads_runProgram (w := w) words).outcome
  unfold transcript
  split at h
  · next t hrun => exact .inl ⟨t, by rw [hrun], h⟩
  · next e t hrun => exact .inr ⟨e, t, by rw [hrun], h⟩

/-- **Files that change.**  Only a command that is called, and that nothing hinders, changes
    files. -/
theorem files_of_transcript (w : Surroundings) (words : List String) :
    (transcript w words).session.files = w.files ∨
      ∃ name g, called? w words = some (name, g) ∧ ¬Hindered w g name := by
  have hend := transcript_done_or_stopped w words
  cases hcalled : called? w words with
  | none =>
    rw [hcalled] at hend
    obtain ⟨t, ht, hdone⟩ | ⟨h, t, ht, hstopped⟩ := hend
    · exact .inl (ht ▸ hdone)
    · exact .inl (ht ▸ hstopped)
  | some called =>
    rw [hcalled] at hend
    obtain ⟨t, ht, hdone⟩ | ⟨h, t, ht, -, hfiles⟩ := hend
    · exact .inr ⟨_, _, rfl, hdone⟩
    · obtain hsame | ⟨hfree, -⟩ := hfiles
      · exact .inl (ht ▸ hsame)
      · exact .inr ⟨_, _, rfl, hfree⟩

/-- **Commands that fail.**  A command that is hindered fails and leaves all files as they were.
    Any other that fails leaves them so too, unless nothing was left for it to do but to append
    measurements to their log, or the text that it was to save has no bytes, and its file is empty
    then. -/
theorem transcript_of_called (w : Surroundings) (words : List String) (name : String) (g : Given)
    (hcalled : called? w words = some (name, g)) :
    (Hindered w g name →
      (transcript w words).code = 1 ∧ (transcript w words).session.files = w.files) ∧
    ((transcript w words).code = 1 →
      LeavesFiles w g name (transcript w words).crash (transcript w words).session.files) := by
  have hend := transcript_done_or_stopped w words
  rw [hcalled] at hend
  obtain ⟨t, ht, hdone⟩ | ⟨h, t, ht, hcode, hfiles⟩ := hend
  · rw [ht]
    exact ⟨fun hhindered => absurd hhindered hdone, fun hcode => absurd hcode Nat.zero_ne_one⟩
  · rw [ht]
    refine ⟨fun hhindered => ⟨hcode, ?_⟩, fun _ => hfiles⟩
    exact hfiles.resolve_right fun hfree => hfree.1 hhindered

/-- A directory in which the program works, beside one with a report that holds a list where a table
    belongs. -/
def listAsReport : Surroundings where
  files := ⟨.directory {} [("old", .directory {} [("r.json", .file {} [0x5b, 0x5d])]),
    ("work", .empty)], ["work"]⟩
  input := ""
  now := ⟨2026, 1, 2, 3, 4, 5, 678901, some 0, by decide⟩
  clock := ⟨0, 1⟩
  level := none
  processors := 1
  lenient := false

/-- A malformed report that is to be processed into its own file stays as it is, also if it is
    named by an absolute path, and as one above the working directory. -/
theorem transcript_of_listAsReport :
    let words := ["process", "/old/r.json", "-e", "../old/r.json"]
    let g : Given := ⟨[("export", .text "../old/r.json")], ["/old/r.json"]⟩
    called? listAsReport words = some ("process", g) ∧ Hindered listAsReport g "process" ∧
      (transcript listAsReport words).code = 1 ∧
      (transcript listAsReport words).session.files = listAsReport.files := by
  intro words g
  have hcalled : called? listAsReport words = some ("process", g) := by with_unfolding_all rfl
  have hload : Report.loadFile listAsReport.files "/old/r.json" none listAsReport.now =
      .error (.malformed (.document .notTable)) := by with_unfolding_all rfl
  have hhindered : Hindered listAsReport g "process" := ⟨_, hload⟩
  exact ⟨hcalled, hhindered, (transcript_of_called _ _ _ _ hcalled).1 hhindered⟩

end LineCensus.Command
