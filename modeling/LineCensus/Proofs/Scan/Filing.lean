import LineCensus.Proofs.Scan.Shares

namespace LineCensus.Scan

open Text

/-!
# Where every path goes

A scan files each distinct normalized path under exactly one heading, and the path alone decides
which one and with what content:

* `Request.Fails` — the paths that come to a fault.
* `Request.Filed` — three lists that are the outcomes of the paths of a request.
* `filed_scanShare` — a share with all paths in order files them.
* `run_files_every_path` — every scan files its paths, and gives no report exactly when there are
  no paths or all of them fail.
-/

variable {q : Request} {read : Reader}

/-- The language of a path under the overrides of the request. -/
abbrev Request.language (q : Request) (p : String) :
    Except Registry.UnknownOverride (Option Claimant) :=
  q.registry.resolve p (Overrides.normalize q.overrides)

/-- The path cannot be counted: an override names no known language for it, or it has a language
    and cannot be read. -/
def Request.Fails (q : Request) (read : Reader) (p : String) : Prop :=
  (∃ u, q.language p = .error u) ∨ ∃ c e, q.language p = .ok (some c) ∧ read p = .error e

/-- The lists hold what the normalized paths of the request come to. -/
structure Request.Filed (q : Request) (read : Reader) (files : List FileTally)
    (unsupported : List Letters) (faults : List ScanFault) : Prop where
  /-- No path is filed twice, neither in one list nor in two. -/
  distinct : (files.map (·.path) ++ unsupported ++ faults.map fun f => ofString f.path).Nodup
  /-- The paths that are filed are those of the request. -/
  complete : ∀ p, p ∈ files.map (·.path) ++ unsupported ++ faults.map (fun f => ofString f.path) ↔
    p ∈ q.paths.map fun path => ofString (Path.normalize path)
  /-- An override that names no known language gives a fault. -/
  unknownOverride : ∀ p ∈ q.paths.map Path.normalize, ∀ u, q.language p = .error u →
    ⟨p, .unknownOverride, u.message⟩ ∈ faults
  /-- A path without a language is unsupported. -/
  noLanguage : ∀ p ∈ q.paths.map Path.normalize, q.language p = .ok none →
    ofString p ∈ unsupported
  /-- A file that cannot be read gives a fault. -/
  unreadable : ∀ p ∈ q.paths.map Path.normalize, ∀ c e, q.language p = .ok (some c) →
    read p = .error e → faultOf p e ∈ faults
  /-- Any other file gives the counts of its lines. -/
  counted : ∀ p ∈ q.paths.map Path.normalize, ∀ c lines, q.language p = .ok (some c) →
    read p = .ok lines → Classifier.tallyFile p c.language q.exclude lines ∈ files
  filesAscending : Ascending (files.map (·.path))
  unsupportedAscending : Ascending unsupported
  faultsAscending : Ascending (faults.map (·.path))

/-! ### One share with all paths -/

/-- A share files every path that it holds, in one list and once. -/
theorem scanShare_paths_perm {outcome : String → Outcome}
    (hpath : ∀ p, (outcome p).path = ofString p) (paths : List String) :
    ((paths.filterMap fun p => (outcome p).counted?).map (·.path) ++
      (paths.filterMap fun p => (outcome p).unsupported?) ++
      (paths.filterMap fun p => (outcome p).failed?).map fun f => ofString f.path).Perm
        (paths.map ofString) := by
  induction paths with
  | nil => exact List.Perm.refl []
  | cons p ps ih =>
    have hp := hpath p
    simp only [List.filterMap_cons]
    -- The first path goes to the front of the list of its kind, and from there to the very front.
    cases ho : outcome p with
    | counted f =>
      rw [ho] at hp
      simp only [Outcome.counted?, Outcome.unsupported?, Outcome.failed?, List.map_cons]
      rw [show f.path = ofString p from hp]
      exact ih.cons _
    | unsupported s =>
      rw [ho] at hp
      simp only [Outcome.counted?, Outcome.unsupported?, Outcome.failed?]
      rw [show s = ofString p from hp, List.append_assoc, List.cons_append]
      refine List.perm_middle.trans ?_
      rw [← List.append_assoc]
      exact ih.cons _
    | failed f =>
      rw [ho] at hp
      simp only [Outcome.counted?, Outcome.unsupported?, Outcome.failed?, List.map_cons]
      rw [show ofString f.path = ofString p from hp]
      exact List.perm_middle.trans (ih.cons _)

/-- A path fails exactly if its outcome is a fault. -/
theorem failed?_isSome_iff (p : String) :
    (q.outcome read p).failed?.isSome = true ↔ q.Fails read p := by
  simp only [Request.outcome, Request.Fails, Request.language, outcomeOf]
  cases q.registry.resolve p (Overrides.normalize q.overrides) with
  | error u => exact iff_of_true rfl (.inl ⟨u, rfl⟩)
  | ok c =>
    cases c with
    | none =>
      refine iff_of_false Bool.false_ne_true ?_
      rintro (⟨u, ⟨⟩⟩ | ⟨c, e, ⟨⟩, _⟩)
    | some c =>
      cases hread : read p with
      | error e => exact iff_of_true rfl (.inr ⟨c, e, rfl, rfl⟩)
      | ok lines =>
        refine iff_of_false Bool.false_ne_true ?_
        rintro (⟨u, ⟨⟩⟩ | ⟨c, e, _, ⟨⟩⟩)

/-- The share that holds all paths of a request in order files them. -/
theorem filed_scanShare (q : Request) (read : Reader) :
    let b := scanShare (q.outcome read) (uniquePaths q.paths)
    q.Filed read b.files b.unsupported b.faults := by
  have hpath : ∀ p, (q.outcome read p).path = ofString p := outcomeOf_path _ _ _ _
  have hperm := scanShare_paths_perm hpath (uniquePaths q.paths)
  have hasc := ascending_uniquePaths q.paths
  rw [scanShare_eq]
  refine
    { distinct := hperm.nodup_iff.2 (hasc.nodup.map ofString_injective)
      complete := fun p => ?_
      unknownOverride := fun p hp u hu => ?_
      noLanguage := fun p hp hn => ?_
      unreadable := fun p hp c e hc he => ?_
      counted := fun p hp c lines hc hl => ?_
      filesAscending := ascending_filterMap (counted?_path hpath) (fun _ _ h => h) hasc
      unsupportedAscending := ?_
      faultsAscending := ascending_filterMap (failed?_path hpath) (fun _ _ h => h) hasc }
  · -- The three lists together are the unique paths, so every path is in one of them.
    rw [hperm.mem_iff, List.mem_map, List.mem_map]
    simp only [mem_uniquePaths, List.mem_map]
    constructor
    · rintro ⟨_, ⟨path, hmem, rfl⟩, heq⟩
      exact ⟨path, hmem, heq⟩
    · rintro ⟨path, hmem, heq⟩
      exact ⟨_, ⟨path, hmem, rfl⟩, heq⟩
  · refine List.mem_filterMap.2 ⟨p, mem_uniquePaths.2 hp, ?_⟩
    simp only [Request.outcome, outcomeOf, hu, Outcome.failed?]
  · refine List.mem_filterMap.2 ⟨p, mem_uniquePaths.2 hp, ?_⟩
    simp only [Request.outcome, outcomeOf, hn, Outcome.unsupported?]
  · refine List.mem_filterMap.2 ⟨p, mem_uniquePaths.2 hp, ?_⟩
    simp only [Request.outcome, outcomeOf, hc, he, Outcome.failed?]
  · refine List.mem_filterMap.2 ⟨p, mem_uniquePaths.2 hp, ?_⟩
    simp only [Request.outcome, outcomeOf, hc, hl, Outcome.counted?]
  · have h := ascending_filterMap (unsupported?_path hpath) (fun _ _ h => h) hasc
    rwa [List.map_id'] at h

/-- There are as many faults as paths exactly if every path fails. -/
theorem faults_length_eq_iff (q : Request) (read : Reader) :
    (scanShare (q.outcome read) (uniquePaths q.paths)).faults.length =
        (uniquePaths q.paths).length ↔
      ∀ p ∈ q.paths.map Path.normalize, q.Fails read p := by
  rw [scanShare_eq, List.length_filterMap_eq_countP, List.countP_eq_length]
  simp only [mem_uniquePaths, failed?_isSome_iff]

/-- If every path fails, there are only faults to file. -/
theorem Request.Filed.only_faults {files : List FileTally} {unsupported : List Letters}
    {faults : List ScanFault} (h : q.Filed read files unsupported faults)
    (hfails : ∀ p ∈ q.paths.map Path.normalize, q.Fails read p) :
    q.Filed read [] [] faults := by
  have hfault : ∀ p ∈ q.paths.map Path.normalize,
      ofString p ∈ faults.map fun f => ofString f.path := by
    intro p hp
    rcases hfails p hp with ⟨u, hu⟩ | ⟨c, e, hc, he⟩
    · exact List.mem_map.2 ⟨_, h.unknownOverride p hp u hu, rfl⟩
    · refine List.mem_map.2 ⟨_, h.unreadable p hp c e hc he, ?_⟩
      cases e <;> rfl
  -- A path in one of the other lists would be filed twice.
  have hdisjoint := List.nodup_append.1 h.distinct
  have hnone : files.map (·.path) ++ unsupported = [] := by
    apply List.eq_nil_iff_forall_not_mem.2
    intro p hp
    obtain ⟨path, hpath, rfl⟩ := List.mem_map.1 ((h.complete p).1 (List.mem_append_left _ hp))
    exact hdisjoint.2.2 _ hp _ (hfault _ (List.mem_map_of_mem hpath)) rfl
  obtain ⟨hfiles, hunsupported⟩ := List.append_eq_nil_iff.1 hnone
  rw [List.map_eq_nil_iff] at hfiles
  rwa [hfiles, hunsupported] at h

/-! ### Scans -/

/-- A scan without paths. -/
theorem run_of_no_paths (h : q.paths = []) (now : Moment) :
    run q read now = .error .emptyInput := by
  rw [run_eq, if_pos (uniquePaths_eq_nil_iff.2 h)]

/-- A scan of which all paths fail. -/
theorem run_of_all_fail (h : q.paths ≠ [])
    (hfails : ∀ p ∈ q.paths.map Path.normalize, q.Fails read p) (now : Moment) :
    ∃ faults, run q read now = .error (.allFailed faults) ∧ q.Filed read [] [] faults := by
  refine ⟨_, ?_, (filed_scanShare q read).only_faults hfails⟩
  rw [run_eq, if_neg (mt uniquePaths_eq_nil_iff.1 h), conclude,
    if_pos ((faults_length_eq_iff q read).2 hfails)]

/-- A scan of which some path does not fail. -/
theorem run_of_not_all_fail (h : ¬ ∀ p ∈ q.paths.map Path.normalize, q.Fails read p)
    (now : Moment) :
    ∃ r, run q read now = .ok r ∧
      q.Filed read r.report.files r.report.unsupported r.faults ∧ r.report.Valid := by
  have hpaths : q.paths ≠ [] := by
    intro hnil
    rw [hnil] at h
    exact h (by simp)
  obtain ⟨b, hb⟩ : ∃ b, b = scanShare (q.outcome read) (uniquePaths q.paths) := ⟨_, rfl⟩
  have hfiled : q.Filed read b.files b.unsupported b.faults := hb ▸ filed_scanShare q read
  refine ⟨⟨Report.build b.files b.unsupported now, b.faults⟩, ?_, ?_,
    Report.valid_build hfiled.filesAscending.nodup _ now⟩
  · rw [run_eq, if_neg (mt uniquePaths_eq_nil_iff.1 hpaths), conclude,
      if_neg (mt (faults_length_eq_iff q read).1 h), ← hb]
  · rw [Report.build_files_of_ascending hfiled.filesAscending,
      Report.build_unsupported_of_ascending _ hfiled.unsupportedAscending]
    exact hfiled

/-- **Conservation of paths.**  A scan without paths is refused, and only that one is for being
    empty.  Any other files every distinct normalized path in exactly one of its lists, as the path
    alone decides: if all of them fail, the scan gives their faults, and otherwise a valid report
    with the faults beside it. -/
theorem run_files_every_path (q : Request) (read : Reader) (now : Moment) :
    (run q read now = .error .emptyInput ↔ q.paths = []) ∧
    ((∃ faults, run q read now = .error (.allFailed faults)) ↔
      q.paths ≠ [] ∧ ∀ p ∈ q.paths.map Path.normalize, q.Fails read p) ∧
    ((∃ r, run q read now = .ok r) ↔ ∃ p ∈ q.paths.map Path.normalize, ¬ q.Fails read p) ∧
    (∀ faults, run q read now = .error (.allFailed faults) → q.Filed read [] [] faults) ∧
    ∀ r, run q read now = .ok r →
      q.Filed read r.report.files r.report.unsupported r.faults ∧ r.report.Valid := by
  -- No paths, only failing paths, or some path that does not fail: there is one outcome for each.
  by_cases hnil : q.paths = []
  · rw [run_of_no_paths hnil]
    simp [hnil]
  by_cases hall : ∀ p ∈ q.paths.map Path.normalize, q.Fails read p
  · obtain ⟨faults, hrun, hfiled⟩ := run_of_all_fail hnil hall now
    have hnone : ¬ ∃ p ∈ q.paths.map Path.normalize, ¬ q.Fails read p :=
      fun ⟨p, hp, hp'⟩ => hp' (hall p hp)
    rw [hrun]
    refine ⟨by simp [hnil], ⟨fun _ => ⟨hnil, hall⟩, fun _ => ⟨faults, rfl⟩⟩, by simpa using hnone,
      ?_, by simp⟩
    rintro _ ⟨⟩
    exact hfiled
  · obtain ⟨r, hrun, hfiled, hvalid⟩ := run_of_not_all_fail hall now
    have hsome : ∃ p ∈ q.paths.map Path.normalize, ¬ q.Fails read p := by
      simpa only [not_forall, exists_prop] using hall
    rw [hrun]
    refine ⟨by simp [hnil], ⟨by rintro ⟨_, ⟨⟩⟩, fun h => absurd h.2 hall⟩,
      ⟨fun _ => hsome, fun _ => ⟨r, rfl⟩⟩, by simp, ?_⟩
    rintro _ ⟨⟩
    exact ⟨hfiled, hvalid⟩

end LineCensus.Scan
