import LineCensus.Command.Program
import LineCensus.Proofs.Scan.Accounts
import LineCensus.Proofs.Text.Letter

namespace LineCensus.Command

open Text

/-!
# What the parts of the commands do to files

* `Leads` — where a part of the program leads from a session: to one with a value, or to an early
  end.
* `Leads.bind`, `Leads.mono` — parts one after the other.
* `Failed` — an early end with the code of a failure that leaves all files as they were.
* `Emptied` — an early end in the middle of saving a text without bytes.
* `leads_loadConfig`, `leads_scan`, `leads_loadReport` — parts that change no file.
* `leads_saveReport`, `leads_saveComparison`, `leads_finish` — parts that change files only if they
  come to their end.
-/

variable {α β : Type}

/-! ### Parts in general -/

/-- Begun in the session `s`, the part gives a value and leads to a session with `ok`, or it ends
    the program and leads to one with `halted`. -/
structure Leads (m : Run α) (s : Session) (ok : α → Session → Prop)
    (halted : Halt → Session → Prop) : Prop where
  outcome : match m.run s with
    | (.ok a, t) => ok a t
    | (.error h, t) => halted h t

namespace Leads

variable {m : Run α} {f : α → Run β} {s : Session} {ok ok' : α → Session → Prop}
  {halted halted' : Halt → Session → Prop} {after : β → Session → Prop}

theorem mono (h : Leads m s ok halted) (hok : ∀ a t, ok a t → ok' a t)
    (hhalted : ∀ e t, halted e t → halted' e t) : Leads m s ok' halted' := by
  have hrun := h.outcome
  constructor
  split at hrun
  · exact hok _ _ hrun
  · exact hhalted _ _ hrun

/-- **One after the other.**  What the first part leads to is where the second one begins. -/
theorem bind (h : Leads m s ok halted) (hf : ∀ a t, ok a t → Leads (f a) t after halted) :
    Leads (m >>= f) s after halted := by
  have hbind : (m >>= f).run s =
      match m.run s with | (x, t) => (ExceptT.bindCont f x).run t := rfl
  have hrun := h.outcome
  constructor
  rw [hbind]
  generalize m.run s = p at hrun
  obtain ⟨x, t⟩ := p
  cases x with
  | ok a => exact (hf a t hrun).outcome
  | error e => exact hrun

/-- Nothing follows a part that ends the program. -/
theorem halts (h : Leads m s (fun _ _ => False) halted) : Leads (m >>= f) s after halted :=
  h.bind fun _ _ hfalse => hfalse.elim

end Leads

/-! ### Documents and files -/

/-- Nothing was written yet when the step was refused. -/
def Unwritten (x : Except StoreError α) : Prop := ∀ files, x ≠ .error (.unencodable files)

/-- A name that is no format says so. -/
theorem unwritten_named (kind name : String) : Unwritten (Format.named kind name) := by
  intro files
  unfold Format.named
  split
  · exact fun h => by cases h
  · exact fun h => by cases h

/-- What is done with a result after that refuses nothing. -/
theorem Unwritten.map {x : Except StoreError α} (hx : Unwritten x) (f : α → β) :
    Unwritten (x.map f) := by
  intro files h
  cases x with
  | ok a => cases h
  | error e => exact hx files (congrArg _ (Except.error.inj h))

/-- Faults of another kind are no faults of writing. -/
theorem unwritten_mapError {ε : Type} (x : Except ε α) {f : ε → StoreError}
    (hf : ∀ e files, f e ≠ .unencodable files) : Unwritten (x.mapError f) := by
  intro files h
  cases x with
  | ok a => cases h
  | error e => exact hf e files (Except.error.inj h)

/-- The text of a report is found before any file is written. -/
theorem unwritten_dumpReport (r : Report) (format : String) : Unwritten (r.dumpNamed format) :=
  (unwritten_named "report" format).map r.dump

/-- So is that of a comparison. -/
theorem unwritten_dumpComparison (c : Comparison) (format : String) :
    Unwritten (c.dumpNamed format) := by
  intro files
  have hnamed := unwritten_named "comparison" format files
  unfold Comparison.dumpNamed
  cases hformat : Format.named "comparison" format with
  | error e =>
    rw [hformat] at hnamed
    exact fun h => hnamed (congrArg _ (Except.error.inj h))
  | ok f =>
    dsimp only
    cases c.dump? f with
    | none => exact fun h => by cases h
    | some text => exact fun h => by cases h

/-- Nothing is written to read a report. -/
theorem unwritten_loadFile (files : Files.Tree) (path : String) (format : Option String)
    (now : Moment) : Unwritten (Report.loadFile files path format now) := by
  intro written
  have hnamed := unwritten_named "report" (Format.choose format path "json") written
  unfold Report.loadFile
  dsimp only
  split
  · exact fun h => by cases h
  · split
    · exact fun h => by cases h
    · unfold Report.loadNamed
      split
      · next hformat => exact fun h => hnamed (hformat.trans (congrArg _ (Except.error.inj h)))
      · exact unwritten_mapError _ (fun _ _ => StoreError.noConfusion) written

/-- Measurements have bytes. -/
theorem unwritten_appendTo (m : Metrics Float) (files : Files.Tree) (path : String) :
    Unwritten (m.appendTo files path) :=
  unwritten_mapError _ fun _ _ => StoreError.noConfusion

/-! ### Single steps -/

section Steps

variable {s : Session} {files : Files.Tree} {halted : Halt → Session → Prop}

/-- The program has failed, and the files are as they were. -/
def Failed (files : Files.Tree) (h : Halt) (t : Session) : Prop := h.code = 1 ∧ t.files = files

/-- The program has ended because a text has no bytes; the file for it is there, and empty. -/
def Emptied (files : Files.Tree) (crash : Option Crash) (after : Files.Tree) : Prop :=
  crash = some .unencodable ∧ ∃ path, files.writeBytes path [] = .ok after

/-- The program has failed with the files as they were, or in the middle of saving. -/
def Unsaved (files : Files.Tree) (h : Halt) (t : Session) : Prop :=
  h.code = 1 ∧ (t.files = files ∨ Emptied files h.crash? t.files)

/-- A failure with the files as they were. -/
theorem Failed.unsaved {h : Halt} {t : Session} (hf : Failed files h t) : Unsaved files h t :=
  ⟨hf.1, .inl hf.2⟩

/-- The session can be looked at. -/
theorem leads_get : Leads (get : Run Session) s (fun a t => a = s ∧ t = s) halted :=
  ⟨rfl, rfl⟩

/-- A value ends nothing. -/
theorem leads_pure {ok : α → Session → Prop} {a : α} (h : ok a s) :
    Leads (pure a : Run α) s ok halted := ⟨h⟩

/-- A change of the session goes on from there. -/
theorem leads_modify {ok : Unit → Session → Prop} {f : Session → Session} (h : ok () (f s)) :
    Leads (modify f : Run Unit) s ok halted := ⟨h⟩

/-- Whatever is written, logged or measured, the files stay. -/
theorem leads_keep {f : Session → Session} (h : (f s).files = files) :
    Leads (modify f : Run Unit) s (fun _ t => t.files = files) halted := leads_modify h

/-- Where nothing is asked of the session, any change will do. -/
theorem leads_modify_trivial {f : Session → Session} :
    Leads (modify f : Run Unit) s (fun _ _ => True) halted := leads_modify trivial

/-- A failure changes no file. -/
theorem leads_fail {ok : α → Session → Prop} (h : s.files = files) (message : Letters) :
    Leads (fail message : Run α) s ok (Failed files) := ⟨rfl, h⟩

/-- Nor does what nothing provides for. -/
theorem leads_crash {ok : α → Session → Prop} (h : s.files = files) (c : Crash) :
    Leads (crash c : Run α) s ok (Failed files) := ⟨rfl, h⟩

/-- A text is printed, or the program fails because of its surrogates. -/
theorem leads_print (h : s.files = files) (text : Letters) :
    Leads (print text) s (fun _ t => t.files = files) (Failed files) := by
  unfold print
  split
  · exact leads_keep h
  · exact leads_crash h _

/-- A string can always be printed. -/
theorem leads_print_ofString (text : String) :
    Leads (print (ofString text)) s (fun _ _ => True) halted := by
  have htext : string? (ofString text) = some text := string?_ofString text
  unfold print
  rw [htext]
  exact leads_modify_trivial

/-- What is wrong with a file or a report ends the program, and changes no file unless one was to be
    saved. -/
theorem leads_failStore {ok : α → Session → Prop} (h : s.files = files) {e : StoreError}
    (he : ∀ written, e ≠ .unencodable written) :
    Leads (failStore e : Run α) s ok (Failed files) := by
  unfold failStore
  cases StoreError.crash? e with
  | some c =>
    cases e with
    | unencodable written => exact absurd rfl (he written)
    | _ => exact leads_crash h c
  | none =>
    cases e with
    | unencodable written => exact absurd rfl (he written)
    | _ => exact leads_fail h _

/-- **Saving.**  What is wrong when a document is saved ends the program with the files as they
    were, or with an empty one because the text has no bytes. -/
theorem leads_failStore_save {ok : α → Session → Prop} (h : s.files = files) {path : String}
    {document : Except StoreError Letters} {e : StoreError}
    (hdocument : Unwritten document) (hsave : document.bind (saveText files path) = .error e) :
    Leads (failStore e : Run α) s ok (Unsaved files) := by
  have hfailed {e : StoreError} (he : ∀ written, e ≠ .unencodable written) :
      Leads (failStore e : Run α) s ok (Unsaved files) :=
    (leads_failStore h he).mono (fun _ _ h => h) fun _ _ => Failed.unsaved
  cases document with
  | error e' =>
    cases hsave
    exact hfailed fun written he => hdocument written (congrArg _ he)
  | ok text =>
    dsimp only [Except.bind, saveText] at hsave
    split at hsave
    · cases hsave
      exact hfailed fun _ => StoreError.noConfusion
    · next written hwrite =>
      split at hsave
      · next hencode =>
        cases hsave
        rw [Option.isNone_iff_eq_none.1 hencode] at hwrite
        exact ⟨rfl, .inr ⟨rfl, _, hwrite⟩⟩
      · cases hsave

end Steps

/-! ### Parts that change no file -/

section Reading

variable {s : Session} {files : Files.Tree} (hs : s.files = files)
include hs

/-- The configuration is the one in the files, or the program fails because there is none. -/
theorem leads_loadConfig (path : Option String) (metrics : Bool) (metricsFile : Option String) :
    Leads (loadConfig path metrics metricsFile) s
      (fun c t => t.files = files ∧ Config.load files path metrics metricsFile = .ok c)
      (Failed files) := by
  refine .bind leads_get fun _ _ => ?_
  rintro ⟨rfl, rfl⟩
  rw [hs]
  cases hload : Config.load files path metrics metricsFile with
  | ok c => exact ⟨hs, rfl⟩
  | error e =>
    dsimp only
    split
    · exact leads_crash hs _
    · exact leads_crash hs _
    · exact leads_crash hs _
    · exact leads_crash hs _
    · exact leads_fail hs _

theorem leads_begin (operation : String) (now : Moment) (processors : Nat) (o : ScanOptions) :
    Leads (begin operation now processors o) s (fun _ t => t.files = files) (Failed files) :=
  .bind (leads_keep hs) fun _ _ ht => leads_keep ht

/-- A saved report is the one in the files, or the program fails because there is none. -/
theorem leads_loadReport (now : Moment) (path : String) :
    Leads (loadReport now path) s
      (fun r t => t.files = files ∧ Report.loadFile files path none now = .ok r)
      (Failed files) := by
  refine .bind leads_get fun _ _ => ?_
  rintro ⟨rfl, rfl⟩
  rw [hs]
  cases hload : Report.loadFile files path none now with
  | error e =>
    have he : ∀ written, e ≠ .unencodable written := fun written he =>
      unwritten_loadFile _ _ _ _ written (he ▸ hload)
    exact leads_failStore hs he
  | ok r => exact .bind (leads_keep hs) fun _ _ ht => ⟨ht, rfl⟩

end Reading

/-! ### Scans -/

/-- The lines of standard input that are read. -/
def inputLines (o : ScanOptions) (input : String) : List String :=
  if o.fromInput then (splitAtChar '\n' (unifyNewlines input.toList)).map String.ofList else []

/-- What a scan is asked to do with some paths. -/
def requestOf (w : Surroundings) (o : ScanOptions) (c : Config) (paths : List String) :
    Scan.Request where
  paths
  registry := Registry.withBuiltins c.definitions
  overrides := o.overrides
  threads := c.threads (some o.threads)
  chunk := some c.performance.chunk
  exclude := o.exclude
  processors := w.processors

/-- What comes of the scan of the files that are there. -/
def Scans (w : Surroundings) (files : Files.Tree) (o : ScanOptions) (c : Config)
    (result : Except Scan.ScanError Scan.ScanResult) : Prop :=
  ∃ found, Files.collect files w.lenient (o.recursive || c.defaults.recursive) o.paths
      (inputLines o w.input) = .ok found ∧
    Scan.run (requestOf w o c found.paths) (fileReader files) w.now = result

section Scanning

variable {s : Session} {files : Files.Tree} (hs : s.files = files)
include hs

theorem leads_collectPaths (w : Surroundings) (o : ScanOptions) (c : Config) :
    Leads (collectPaths w o c) s
      (fun paths t => t.files = files ∧ ∃ found, Files.collect files w.lenient
        (o.recursive || c.defaults.recursive) o.paths (inputLines o w.input) = .ok found ∧
        found.paths = paths) (Failed files) := by
  refine .bind (leads_keep hs) fun _ s hs => .bind leads_get fun _ _ => ?_
  rintro ⟨rfl, rfl⟩
  rw [hs, ← inputLines]
  cases hcollect : Files.collect files w.lenient (o.recursive || c.defaults.recursive) o.paths
      (inputLines o w.input) with
  | error fault => exact leads_crash hs _
  | ok found =>
    exact .bind (leads_keep hs) fun _ s hs => .bind (leads_keep hs) fun _ s hs =>
      ⟨hs, found, rfl, rfl⟩

/-- **Scans.**  The result is that of the files that are there, or the program fails because a path
    cannot be looked up at all. -/
theorem leads_scan (w : Surroundings) (o : ScanOptions) (c : Config) :
    Leads (scan w o c) s (fun result t => t.files = files ∧ Scans w files o c result)
      (Failed files) := by
  refine .bind (leads_collectPaths hs w o c) fun paths s hcollect => ?_
  obtain ⟨hs, found, hfound, rfl⟩ := hcollect
  refine .bind (leads_keep hs) fun _ s hs => .bind (leads_keep hs) fun _ s hs =>
    .bind leads_get fun _ _ => ?_
  rintro ⟨rfl, rfl⟩
  dsimp only
  split
  · exact .bind (leads_keep hs) fun _ s hs => .halts (leads_crash hs _)
  · generalize hmetered : Scan.runMetered (α := Float) _ _ _ _ = metered
    obtain ⟨result, measured⟩ := metered
    have hrun : Scan.run (requestOf w o c found.paths) (fileReader files) w.now = result := by
      rw [← Scan.fst_runMetered (α := Float) _ _ _ _, ← hs]
      exact congrArg Prod.fst hmetered
    exact .bind (leads_keep hs) fun _ s hs => .bind (leads_keep hs) fun _ s hs =>
      leads_pure ⟨hs, found, hfound, hrun⟩

/-! ### Parts that save -/

/-- A report is saved, or the program fails in the middle of that or before. -/
theorem leads_saveReport (r : Report) (path format : String) :
    Leads (saveReport r path format) s (fun _ _ => True) (Unsaved files) := by
  refine .bind leads_get fun _ _ => ?_
  rintro ⟨rfl, rfl⟩
  cases hsave : r.saveFile _ path (some format) with
  | error e =>
    rw [hs, Report.saveFile] at hsave
    exact leads_failStore_save hs (unwritten_dumpReport r _) hsave
  | ok files => exact .bind leads_modify_trivial fun _ _ _ => leads_modify_trivial

/-- So is a comparison. -/
theorem leads_saveComparison (c : Comparison) (path format : String) :
    Leads (saveComparison c path format) s (fun _ _ => True) (Unsaved files) := by
  refine .bind leads_get fun _ _ => ?_
  rintro ⟨rfl, rfl⟩
  cases hsave : c.saveFile _ path (some format) with
  | error e =>
    rw [hs, Comparison.saveFile] at hsave
    exact leads_failStore_save hs (unwritten_dumpComparison c _) hsave
  | ok files => exact .bind leads_modify_trivial fun _ _ _ => leads_modify_trivial

/-- A report is exported as it is saved. -/
theorem leads_exportReport (r : Report) (path : String) (format : Option String) (c : Config) :
    Leads (exportReport r path format c) s (fun _ _ => True) (Unsaved files) :=
  .bind (leads_keep hs) fun _ _ hs => .bind (leads_saveReport hs r path _) fun _ _ _ =>
    leads_modify_trivial

/-- **The end of a run.**  It fails only if measurements are to be appended to their log and cannot
    be, and changes nothing then. -/
theorem leads_finish (c : Config) :
    Leads (finish c) s (fun _ _ => True) fun h t => Failed files h t ∧
      c.performance.metrics = true ∧
      ∃ (m : Metrics Float) (e : StoreError),
        m.appendTo files c.performance.metricsFile = .error e := by
  refine .bind (leads_keep hs) fun _ s hs => .bind leads_get fun _ _ => ?_
  rintro ⟨rfl, rfl⟩
  dsimp only
  refine .bind (leads_keep hs) fun _ t ht => ?_
  split
  · next hmetrics =>
    rw [hs]
    split
    · next e happend =>
      have he : ∀ written, e ≠ .unencodable written := fun written he =>
        unwritten_appendTo _ _ _ written (he ▸ happend)
      exact (leads_failStore ht he).mono (fun _ _ h => h) fun _ _ h => ⟨h, hmetrics, _, e, happend⟩
    · exact .bind leads_modify_trivial fun _ _ _ => leads_modify_trivial
  · exact leads_pure trivial

end Scanning

end LineCensus.Command
