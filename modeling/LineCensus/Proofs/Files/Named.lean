import LineCensus.Proofs.Files.Collect
import LineCensus.Proofs.Files.Places

namespace LineCensus.Files

open Text

/-!
# Files given by their names

An argument with a wildcard is a pattern, whether or not it is also the name of a file.

* `Findable` — a path of which the components with wildcards fit themselves, in directories that can
  be listed.
* `mem_globLast`, `mem_globParts` — the paths that such a pattern fits are among what is found for
  it: one component, and all components by going from directory to directory.
* `collected_names` — a file that is given by such a path belongs to the scan.
-/

/-- The components of a path that have wildcards fit themselves, read as patterns, and the
    directories in which they are looked for can be listed. -/
def Findable (t : Tree) (path : List Char) : Prop :=
  ∀ front part back, Path.parts path = front ++ part :: back → hasMagic part = true →
    (Pattern.parse part).matchesName part = true ∧
      (t.listing? (Path.build (Path.rootOf path) front)).isSome = true

variable {t : Tree} {lenient recursive dirsOnly : Bool}

/-- A path without wildcards is not looked for. -/
theorem findable_of_not_hasMagic {path : List Char} (h : hasMagic path = false) :
    Findable t path := by
  intro front part back hparts hwild
  have hpart : part ∈ Path.parts path := hparts ▸ List.mem_append_right _ List.mem_cons_self
  obtain ⟨c, hc, hmagic⟩ := List.any_eq_true.1 hwild
  exact absurd hmagic (List.any_eq_false.1 h c ((sublist_of_mem_parts hpart).mem hc))

/-- The directory of a path is found on the way. -/
theorem Divided.findable {path dir base : List Char} {slashes : Nat}
    (h : Divided path dir slashes base) (hfind : Findable t path) : Findable t dir := by
  intro front part back hparts hwild
  rw [← h.rootOf_eq]
  exact hfind front part (back ++ Path.parts base)
    (by rw [h.parts_eq, hparts, List.append_assoc, List.cons_append]) hwild

/-! ### One component -/

/-- The listing at any depth has the entries that are not hidden. -/
theorem mem_visibleEntries {dir base : List Char} {entries : List (String × Node)} {name : String}
    {n : Node} (hmem : (name, n) ∈ entries) (hhidden : isHidden name.toList = false)
    (hdirs : dirsOnly = true → n.isDirectory = true) :
    joinPath base name.toList ∈ visibleEntries t dirsOnly dir base entries := by
  induction entries with
  | nil => cases hmem
  | cons e entries ih =>
    obtain ⟨k, m⟩ := e
    rw [visibleEntries, List.mem_append]
    rcases List.mem_cons.1 hmem with heq | hmem
    · cases heq
      left
      rw [if_neg (by simpa [hhidden] using hdirs)]
      exact List.mem_cons_self
    · exact .inr (ih hmem)

/-- A name with a wildcard that is to be found in a directory: that of an entry which it fits. -/
structure Fitting (t : Tree) (dirsOnly : Bool) (dir base : List Char) (n : Node) : Prop where
  mem_entries : (String.ofList base, n) ∈ entriesAt t dir
  isDirectory : dirsOnly = true → n.isDirectory = true
  matchesName : (Pattern.parse base).matchesName base = true

/-- **One component.**  A base that leads to something is among what is found for it. -/
theorem mem_globLast {dir base : List Char} {n : Node} {found : List (List Char)}
    (hbase : base ≠ []) (hhas : t.has (joinPath dir base) = true)
    (hmagic : hasMagic base = true → Fitting t dirsOnly dir base n)
    (h : globLast t lenient recursive dirsOnly dir base = .ok found) : base ∈ found := by
  rw [globLast] at h
  cases hwild : hasMagic base with
  | false =>
    rw [hwild, Bool.not_false, if_pos rfl, if_neg (by simpa using hbase), if_pos hhas] at h
    cases h
    exact List.mem_singleton_self base
  | true =>
    obtain ⟨hmem, hdirs, hfits⟩ := hmagic hwild
    rw [hwild, if_neg (by decide)] at h
    split at h
    · cases h
    by_cases hany : (recursive && isRecursivePattern base) = true
    · -- The pattern for any depth is not hidden, nor is an entry that has it as its name.
      rw [if_pos hany] at h
      have hvisible : joinPath [] (String.ofList base).toList ∈
          visibleEntries t dirsOnly dir [] (entriesAt t dir) := by
        rw [Bool.and_eq_true, isRecursivePattern, decide_eq_true_eq] at hany
        exact mem_visibleEntries hmem (by rw [hany.2]; decide) hdirs
      rw [joinPath, String.toList_ofList] at hvisible
      cases h
      exact List.mem_append_right _ hvisible
    · rw [if_neg hany] at h
      cases h
      refine List.mem_filter.2 ⟨?_, by cases isHidden base <;> simp [hfits]⟩
      rw [namesAt, List.mem_map]
      refine ⟨_, List.mem_filter.2 ⟨hmem, ?_⟩, String.toList_ofList⟩
      cases dirsOnly with
      | false => rfl
      | true => exact hdirs rfl

/-! ### All components -/

/-- Every item has a result. -/
theorem exists_of_mapM_eq_ok {ε α β : Type} {f : α → Except ε β} {as : List α} {bs : List β}
    (h : as.mapM f = .ok bs) {a : α} (ha : a ∈ as) : ∃ b ∈ bs, f a = .ok b := by
  induction as generalizing bs with
  | nil => cases ha
  | cons a' as ih =>
    rw [List.mapM_cons] at h
    obtain ⟨b, hb, h⟩ := exists_of_bind_eq_ok h
    obtain ⟨bs', hbs, h⟩ := exists_of_bind_eq_ok h
    cases h
    rcases List.mem_cons.1 ha with rfl | ha
    · exact ⟨b, List.mem_cons_self, hb⟩
    · obtain ⟨c, hc, hac⟩ := ih hbs ha
      exact ⟨c, List.mem_cons_of_mem b hc, hac⟩

/-- A base with a wildcard is a component. -/
theorem parts_of_hasMagic {base : List Char} (hslash : '/' ∉ base)
    (hwild : hasMagic base = true) : Path.parts base = [base] := by
  rw [Path.parts, splitAtChar_of_not_mem hslash, List.filter_cons_of_pos, List.filter_nil]
  rw [Bool.and_eq_true, bne_iff_ne, bne_iff_ne]
  constructor <;> rintro rfl <;> cases hwild

/-- The base of a path that leads to something is to be found in its directory. -/
theorem Findable.fitting {dir d path base : List Char} {q r : List String} {n : Node}
    (hfind : Findable t path) (hd : (if dir.isEmpty then ['.'] else dir) = d)
    (hroot : Path.rootOf d = Path.rootOf path)
    (hparts : Path.parts path = Path.parts d ++ Path.parts base) (hslash : '/' ∉ base)
    (hdir : t.locate d = .ok q) (hstep : t.root.step q base = .ok r)
    (hpath : t.locate path = .ok r) (hnode : t.nodeAt path = .ok n)
    (hdirs : dirsOnly = true → n.isDirectory = true) (hwild : hasMagic base = true) :
    Fitting t dirsOnly dir base n := by
  rw [parts_of_hasMagic hslash hwild] at hparts
  obtain ⟨hfits, hlisting⟩ := hfind _ base [] hparts hwild
  rw [← hroot, Tree.listing?_congr ((locate_build hdir).trans hdir.symm)] at hlisting
  obtain ⟨listed, hlisted⟩ := Option.isSome_iff_exists.1 hlisting
  obtain ⟨access, entries, m, hentries, hm, hget⟩ := Node.step_name
    (by rintro rfl; cases hwild) (by rintro rfl; cases hwild) (by rintro rfl; cases hwild) hstep
  -- What the step leads to is the node at the path.
  obtain ⟨r', hr', hget'⟩ := Tree.nodeAt_eq_ok_iff.1 hnode
  rw [hpath, Except.ok.injEq] at hr'
  obtain rfl := hr'
  obtain rfl : m = n := Option.some.inj (hget.symm.trans hget')
  refine ⟨?_, hdirs, hfits⟩
  rw [entriesAt, hd, hlisted, Option.getD_some]
  rw [Tree.listing?, Tree.nodeAt_eq_ok_iff.2 ⟨q, hdir, hentries⟩] at hlisted
  dsimp only at hlisted
  split_ifs at hlisted
  cases hlisted
  exact Table.mem_of_get? hm

/-- A single component is looked for in the working directory. -/
theorem fitting_single {path : List Char} {n : Node} (hslash : '/' ∉ path)
    (hfind : Findable t path) (hnode : t.nodeAt path = .ok n)
    (hdirs : dirsOnly = true → n.isDirectory = true) (hwild : hasMagic path = true) :
    Fitting t dirsOnly [] path n := by
  obtain ⟨r, hr, -⟩ := Tree.nodeAt_eq_ok_iff.1 hnode
  obtain ⟨husable, hwalk⟩ := Tree.locate_eq_ok_iff.1 hr
  have hhead : path.head? ≠ some '/' := fun hhead => hslash (List.mem_of_head? hhead)
  rw [splitAtChar_of_not_mem hslash, Node.walk_singleton] at hwalk
  have hstart : t.start path = t.start ['.'] :=
    start_eq_of_root (rootOf_eq_relative_iff_head.2 hhead)
  have hdot : t.locate ['.'] = .ok (t.start path) := by
    rw [Tree.locate_eq_ok_iff, hstart]
    refine ⟨⟨by decide, by decide, by decide⟩, (Node.walk_singleton t.root _ _).trans ?_⟩
    exact hstart ▸ Node.step_dot husable.ne_nil hwalk
  exact hfind.fitting rfl (rootOf_eq_relative_iff_head.2 hhead).symm rfl hslash hdot hwalk hr hnode
    hdirs hwild

/-- A path without wildcards is looked for as it is. -/
theorem globParts_plain {path : List Char} {fuel : Nat} (hpath : path ≠ [])
    (hlast : path.getLast? ≠ some '/') (hplain : hasMagic path = false)
    (hhas : t.has path = true) :
    globParts t lenient recursive (fuel + 1) dirsOnly path = .ok [path] := by
  have hbase : (splitPath path).2 ≠ [] := by
    rw [splitPath, ne_eq, List.reverse_eq_nil_iff]
    obtain ⟨c, rest, hrev⟩ := List.exists_cons_of_ne_nil (List.reverse_ne_nil_iff.2 hpath)
    rw [← List.head?_reverse, hrev, List.head?_cons] at hlast
    rw [hrev, List.takeWhile_cons_of_pos (by simpa using hlast)]
    exact List.cons_ne_nil _ _
  rw [globParts]
  simp [hplain, hbase, hhas]

/-- A single component is looked for in the working directory. -/
theorem globParts_single {path : List Char} {fuel : Nat} (hsplit : splitPath path = ([], path))
    (hwild : hasMagic path = true) : globParts t lenient recursive (fuel + 1) dirsOnly path =
      globLast t lenient recursive dirsOnly [] path := by
  rw [globParts, hsplit]
  simp [hwild]

/-- A base is looked for in all that is found for the directory. -/
theorem exists_dirs_of_globParts {path dir base : List Char} {fuel : Nat}
    {found : List (List Char)} (hsplit : splitPath path = (dir, base)) (hdir : dir ≠ [])
    (hne : dir ≠ path) (hwild : hasMagic path = true)
    (h : globParts t lenient recursive (fuel + 1) dirsOnly path = .ok found) :
    ∃ dirs, (if hasMagic dir = true then globParts t lenient recursive fuel true dir = .ok dirs
        else dirs = [dir]) ∧
      ∀ d ∈ dirs, ∃ names, globLast t lenient recursive dirsOnly d base = .ok names ∧
        ∀ name ∈ names, Path.child d name ∈ found := by
  rw [globParts, hsplit] at h
  simp only [hwild, Bool.not_true, Bool.false_eq_true, if_false, List.isEmpty_iff, hdir, ne_eq, hne,
    not_false_eq_true, decide_true, Bool.true_and] at h
  have hnames {dirs : List (List Char)}
      (h : (dirs.mapM fun d => (globLast t lenient recursive dirsOnly d base).map fun names =>
        names.map (Path.child d)) >>= (fun lists => pure lists.flatten) = .ok found) :
      ∀ d ∈ dirs, ∃ names, globLast t lenient recursive dirsOnly d base = .ok names ∧
        ∀ name ∈ names, Path.child d name ∈ found := by
    obtain ⟨lists, hlists, h⟩ := exists_of_bind_eq_ok h
    cases h
    intro d hd
    obtain ⟨list, hlist, hmap⟩ := exists_of_mapM_eq_ok hlists hd
    obtain ⟨names, hlast, rfl⟩ := exists_of_map_eq_ok hmap
    exact ⟨names, hlast, fun name hname =>
      List.mem_flatten_of_mem hlist (List.mem_map_of_mem hname)⟩
  -- The directory part is a pattern itself, or it stands for itself alone.
  split_ifs at h ⊢ with hmagic
  · obtain ⟨dirs, hdirs, h⟩ := exists_of_bind_eq_ok h
    exact ⟨dirs, hdirs, hnames h⟩
  · exact ⟨[dir], rfl, hnames h⟩

/-- **One step more.**  In a directory that was found, the base of a path is found. -/
theorem Divided.mem_globLast {path dir base d : List Char} {slashes : Nat} {r : List String}
    {n : Node} {names : List (List Char)} (hdivided : Divided path dir slashes base)
    (hbase : base ≠ []) (hr : t.locate path = .ok r) (hnode : t.nodeAt path = .ok n)
    (hdirs : dirsOnly = true → n.isDirectory = true) (hfind : Findable t path)
    (hd : Respells t d dir) (h : globLast t lenient recursive dirsOnly d base = .ok names) :
    base ∈ names ∧ Respells t (Path.child d base) path := by
  obtain ⟨q, hq, hstep⟩ := hdivided.exists_locate hbase hr
  have hplace : t.locate d = .ok q := hd.locate_eq.trans hq
  have hne : d ≠ [] := (Tree.locate_eq_ok_iff.1 hplace).1.ne_nil
  have hwhole := hdivided.respells hbase hr hd
  have hjoin : joinPath d base = d ++ '/' :: base := by
    simp [joinPath, hne, hbase, hd.last_ne]
  have hchild : Path.child d base = d ++ '/' :: base := by
    simp [Path.child, hne, hd.last_ne]
  refine ⟨Files.mem_globLast (n := n) hbase ?_ (fun hwild => ?_) h, hchild ▸ hwhole⟩
  · rw [hjoin]
    exact Tree.has_of_locate (hwhole.locate_eq.trans hr)
  · exact hfind.fitting (if_neg (by simpa using hne)) (hd.root_eq.trans hdivided.rootOf_eq.symm)
      (by rw [hdivided.parts_eq, hd.parts_eq]) hdivided.slash_not_mem hplace hstep hr hnode hdirs
      hwild

/-- A component behind slashes is looked for in the root. -/
theorem locate_slashes {base : List Char} {k : Nat} {r : List String} (hslash : '/' ∉ base)
    (h : t.locate (List.replicate (k + 1) '/' ++ base) = .ok r) :
    t.locate (List.replicate (k + 1) '/') = .ok [] ∧ t.root.step [] base = .ok r := by
  obtain ⟨husable, hwalk⟩ := Tree.locate_eq_ok_iff.1 h
  rw [splitAtChar_slashes _ hslash] at hwalk
  have hstart : t.start (List.replicate (k + 1) '/' ++ base) = [] := rfl
  rw [hstart] at hwalk
  have hroot : t.root.step [] [] = .ok [] := by
    rw [List.replicate_succ, List.cons_append, Node.walk_cons] at hwalk
    obtain ⟨next, hstep, -⟩ := exists_of_bind_eq_ok hwalk
    exact Node.step_nil hstep
  refine ⟨Tree.locate_eq_ok_iff.2 ⟨husable.sublist (List.cons_ne_nil _ _)
    (List.sublist_append_left _ base), ?_⟩, ?_⟩
  · have hsplit := splitAtChar_slashes (k + 1) (List.not_mem_nil (a := '/'))
    rw [List.append_nil] at hsplit
    rw [hsplit]
    have hsingle := (Node.walk_singleton t.root _ _).trans hroot
    exact (Node.walk_slashes hroot (k + 1) [[]]).trans hsingle
  · rwa [Node.walk_slashes hroot, Node.walk_singleton] at hwalk

/-- **At the root.**  What follows slashes at the front of a path is found in the root. -/
theorem mem_globLast_root {path base : List Char} {k : Nat} {n : Node} {names : List (List Char)}
    (hpath : path = List.replicate (k + 1) '/' ++ base) (hbase : base ≠ []) (hslash : '/' ∉ base)
    (hnode : t.nodeAt path = .ok n) (hdirs : dirsOnly = true → n.isDirectory = true)
    (hfind : Findable t path)
    (h : globLast t lenient recursive dirsOnly (List.replicate (k + 1) '/') base = .ok names) :
    base ∈ names ∧ Path.child (List.replicate (k + 1) '/') base = path := by
  obtain ⟨r, hr, -⟩ := Tree.nodeAt_eq_ok_iff.1 hnode
  obtain ⟨hroot, hstep⟩ := locate_slashes hslash (hpath ▸ hr)
  have hlast : (List.replicate (k + 1) '/').getLast? = some '/' := by
    rw [List.replicate_succ', List.getLast?_concat]
  have hjoin : joinPath (List.replicate (k + 1) '/') base = path := by
    rw [hpath, joinPath, if_neg (by simpa using hbase), if_pos hlast]
  refine ⟨mem_globLast (n := n) hbase ?_ (fun hwild => ?_) h, ?_⟩
  · rw [hjoin]
    exact Tree.has_of_locate hr
  · refine hfind.fitting (if_neg (by simp)) ?_ ?_ hslash hroot hstep hr hnode hdirs hwild
    · rw [hpath, rootOf_append_base _ hslash]
    · have hslashes := parts_slashes (k + 1) []
      rw [List.append_nil] at hslashes
      rw [hpath, parts_slashes, hslashes]
      rfl
  · rw [hpath, Path.child, if_pos (by simp [hlast])]

/-- **All components.**  A path that leads to something and is findable is among what is found for
    it, perhaps in another spelling. -/
theorem mem_globParts {path : List Char} {n : Node} {fuel : Nat} {found : List (List Char)}
    (hfuel : path.length < fuel) (hlast : path.getLast? ≠ some '/')
    (hnode : t.nodeAt path = .ok n) (hdirs : dirsOnly = true → n.isDirectory = true)
    (hfind : Findable t path) (h : globParts t lenient recursive fuel dirsOnly path = .ok found) :
    ∃ p ∈ found, Respells t p path := by
  -- Induction on the depth: the directory of the path is found first.
  induction fuel generalizing path n dirsOnly found with
  | zero => exact absurd hfuel (Nat.not_lt_zero _)
  | succ fuel ih =>
    obtain ⟨r, hr, -⟩ := Tree.nodeAt_eq_ok_iff.1 hnode
    have hhas : t.has path = true := Tree.has_of_locate hr
    have hpath : path ≠ [] := (Tree.locate_eq_ok_iff.1 hr).1.ne_nil
    cases hwild : hasMagic path with
    | false =>
      rw [globParts_plain hpath hlast hwild hhas] at h
      cases h
      exact ⟨path, List.mem_singleton_self path, .refl hlast⟩
    | true =>
      rcases splitPath_cases path with ⟨hsplit, hslash⟩ | ⟨k, base, hsplit, hrooted, hslash⟩ |
        ⟨dir, slashes, base, hsplit, hdivided⟩
      · -- Found among the entries of the working directory.
        rw [globParts_single hsplit hwild] at h
        exact ⟨path, mem_globLast hpath hhas (fitting_single hslash hfind hnode hdirs) h,
          .refl hlast⟩
      · -- Found among the entries of the root.
        have hbase : base ≠ [] := by
          rintro rfl
          rw [hrooted, List.append_nil, List.replicate_succ', List.getLast?_concat] at hlast
          exact hlast rfl
        obtain ⟨ds, hds, hnames⟩ := exists_dirs_of_globParts hsplit (by simp)
          (by rw [hrooted]; simpa using hbase) hwild h
        have hplain : hasMagic (List.replicate (k + 1) '/') = false := by
          rw [hasMagic, List.any_replicate]
          rfl
        rw [hplain, if_neg Bool.false_ne_true] at hds
        obtain ⟨names, hfound, hmem⟩ := hnames _ (hds ▸ List.mem_singleton_self _)
        obtain ⟨hbasemem, hwhole⟩ := mem_globLast_root hrooted hbase hslash hnode hdirs hfind hfound
        exact ⟨path, hwhole ▸ hmem base hbasemem, .refl hlast⟩
      · -- Found in the directory, if that is found by its own pattern or has none.
        have hne : dir ≠ path := fun heq =>
          absurd (congrArg List.length heq) hdivided.length_dir_lt.ne
        have hbase : base ≠ [] := hdivided.base_ne hlast
        obtain ⟨q, hq, hstep⟩ := hdivided.exists_locate hbase hr
        obtain ⟨access, entries, hentries, -⟩ := Node.step_cases hstep
        obtain ⟨ds, hds, hnames⟩ := exists_dirs_of_globParts hsplit hdivided.dir_ne hne hwild h
        obtain ⟨d, hd, hrespells⟩ : ∃ d ∈ ds, Respells t d dir := by
          split_ifs at hds with hmagic
          · exact ih (lt_of_lt_of_le hdivided.length_dir_lt (Nat.le_of_lt_succ hfuel))
              hdivided.last_ne (Tree.nodeAt_eq_ok_iff.2 ⟨q, hq, hentries⟩) (fun _ => rfl)
              (hdivided.findable hfind) hds
          · rw [hds]
            exact ⟨dir, List.mem_singleton_self dir, .refl hdivided.last_ne⟩
        obtain ⟨names, hfound, hmem⟩ := hnames d hd
        obtain ⟨hbasemem, hwhole⟩ := hdivided.mem_globLast hbase hr hnode hdirs hfind hrespells
          hfound
        exact ⟨_, hmem base hbasemem, hwhole⟩

/-! ### Whole scans -/

variable {args input ps : List String} {arg : String} {access : Access} {bytes : List UInt8}

/-- **One path.**  A path that leads to a file stands for itself. -/
theorem targetContribution_of_file (h : t.nodeAt arg.toList = .ok (.file access bytes)) :
    targetContribution t recursive arg = .ok ⟨[arg], []⟩ := by
  have hshown := nodeAt_display h
  unfold targetContribution Tree.probe
  dsimp only
  rw [hshown]

theorem Respells.normalize_eq {p : List Char} (h : Respells t p arg.toList) :
    Path.normalize (String.ofList p) = Path.normalize arg := by
  rw [Path.normalize, Path.normalize, String.toList_ofList, Path.normal, Path.normal, h.root_eq,
    h.parts_eq]

/-- **One pattern.**  What it fits has the path itself, if the path leads to something and is
    findable. -/
theorem mem_globPaths {path : List Char} {n : Node} {found : List (List Char)}
    (hlast : path.getLast? ≠ some '/') (hnode : t.nodeAt path = .ok n) (hfind : Findable t path)
    (h : globPaths t lenient recursive path = .ok found) : ∃ p ∈ found, Respells t p path := by
  obtain ⟨all, hparts, rfl⟩ := exists_of_map_eq_ok h
  obtain ⟨p, hp, hrespells⟩ := mem_globParts (Nat.lt_succ_self _) hlast hnode
    (fun hdirs => absurd hdirs Bool.false_ne_true) hfind hparts
  obtain ⟨r, hr, -⟩ := Tree.nodeAt_eq_ok_iff.1 hnode
  have hne := (Tree.locate_eq_ok_iff.1 (hrespells.locate_eq.trans hr)).1.ne_nil
  exact ⟨p, List.mem_filter.2 ⟨hp, by simpa using hne⟩, hrespells⟩

/-- **One argument.**  What an argument gives has the file that it leads to, if it is findable. -/
theorem mem_contributionOf {a : Contribution} (h : t.nodeAt arg.toList = .ok (.file access bytes))
    (hfind : Findable t arg.toList) (ha : contributionOf t lenient recursive arg = .ok a) :
    Path.normalize arg ∈ a.paths.map Path.normalize := by
  rw [contributionOf] at ha
  split_ifs at ha with hwild
  · cases hfound : globPaths t lenient recursive arg.toList with
    | error e =>
      rw [hfound] at ha
      cases ha
    | ok found =>
      -- The pattern finds a respelling of the file's path, and that normalizes to the same.
      obtain ⟨p, hp, hrespells⟩ := mem_globPaths (Tree.last_ne_of_file h) h hfind hfound
      have hpfile : t.nodeAt (String.ofList p).toList = .ok (.file access bytes) := by
        rw [String.toList_ofList, Tree.nodeAt_congr hrespells.locate_eq]
        exact h
      have hgather : gather ((sorted (found.map String.ofList)).map
          (targetContribution t recursive)) = .ok a := by
        rw [hfound] at ha
        cases found with
        | nil => cases hp
        | cons first rest => exact ha
      rw [← hrespells.normalize_eq]
      refine List.mem_map_of_mem ((mem_paths_gather hgather).2 ⟨⟨[String.ofList p], []⟩, ?_, ?_⟩)
      · rw [← targetContribution_of_file hpfile]
        exact List.mem_map_of_mem (mem_sorted.2 (List.mem_map_of_mem hp))
      · exact List.mem_singleton_self _
  · rw [targetContribution_of_file h, Except.ok.injEq] at ha
    rw [← ha]
    exact List.mem_singleton_self _

/-- An argument without wildcards that leads to a file gives the file. -/
theorem collected_of_file (h : t.nodeAt arg.toList = .ok (.file access bytes))
    (hplain : hasMagic arg.toList = false) :
    collected t lenient recursive [arg] [] = some [Path.normalize arg] := by
  rw [collected_eq_some_iff, asked_argument, contributionOf, hplain, if_neg Bool.false_ne_true,
    targetContribution_of_file h]
  refine ⟨⟨[arg], []⟩, rfl, (sorted_dedup_of_mem (List.pairwise_singleton _ _) fun s => ?_).symm⟩
  simp

/-- What several paths give is what one of them stands for. -/
theorem exists_standsFor_of_gather {paths : List String} {a : Contribution} {p : String}
    (h : gather (paths.map (targetContribution t recursive)) = .ok a)
    (hp : p ∈ a.paths.map Path.normalize) : ∃ x ∈ paths, StandsFor t recursive x p := by
  obtain ⟨q, hq, rfl⟩ := List.mem_map.1 hp
  obtain ⟨b, hb, hq⟩ := (mem_paths_gather h).1 hq
  obtain ⟨x, hx, hxb⟩ := List.mem_map.1 hb
  rcases targetContribution_spec t recursive x with ⟨-, e, hfault⟩ | ⟨-, c, hc, hpaths⟩
  · rw [hxb] at hfault
    cases hfault
  · rw [hxb] at hc
    cases hc
    exact ⟨x, hx, (hpaths _).1 (List.mem_map_of_mem hq)⟩

/-- A single component with wildcards is found under the names of entries that it fits. -/
theorem matchesName_of_mem_globPaths {path name : List Char} {found : List (List Char)}
    (hslash : '/' ∉ path) (hwild : hasMagic path = true)
    (h : globPaths t lenient false path = .ok found) (hname : name ∈ found) :
    name ∈ namesAt t false [] ∧ (Pattern.parse path).matchesName name = true := by
  have hsplit : splitPath path = ([], path) := by
    rcases splitPath_cases path with ⟨hsplit, -⟩ | ⟨k, base, -, hrooted, -⟩ |
      ⟨dir, slashes, base, -, hdivided⟩
    · exact hsplit
    · simp [hrooted] at hslash
    · simp [hdivided.path_eq] at hslash
  rw [globPaths, globParts_single hsplit hwild, globLast, hwild] at h
  cases h
  have hlisted := List.mem_filter.1 (List.mem_filter.1 hname).1
  exact ⟨hlisted.1, (Bool.and_eq_true_iff.1 hlisted.2).2⟩

/-- A name with wildcards is normal. -/
theorem normalize_of_hasMagic (hslash : '/' ∉ arg.toList) (hwild : hasMagic arg.toList = true) :
    Path.normalize arg = arg := by
  have hhead : arg.toList.head? ≠ some '/' := fun hhead => hslash (List.mem_of_head? hhead)
  have hresolve : Path.resolveParts .relative [arg.toList] = [arg.toList] := by
    rw [Path.resolveParts, List.foldl_cons, List.foldl_nil, Path.pushPart, if_pos]
    · rfl
    · rintro hdots
      rw [hdots] at hwild
      cases hwild
  have hbuild : Path.build .relative [arg.toList] = arg.toList := by
    obtain ⟨c, rest, hcons⟩ : ∃ c rest, arg.toList = c :: rest :=
      List.exists_cons_of_ne_nil (by rintro hnil; rw [hnil] at hwild; cases hwild)
    rw [hcons]
    rfl
  rw [Path.normalize, Path.normal, rootOf_eq_relative_iff_head.2 hhead,
    parts_of_hasMagic hslash hwild, hresolve, hbuild, String.ofList_toList]

/-- An entry of the working directory is found only where that can be listed. -/
theorem isSome_listing?_of_mem_entriesAt {e : String × Node} (h : e ∈ entriesAt t []) :
    (t.listing? ['.']).isSome = true := by
  cases hlisting : t.listing? ['.'] with
  | some entries => rfl
  | none =>
    rw [entriesAt, List.isEmpty_nil, if_pos rfl, hlisting] at h
    cases h

/-- **Names with wildcards.**  If a name with wildcards gives the file that has the name, it is
    findable. -/
theorem findable_of_mem_collected (hslash : '/' ∉ arg.toList)
    (hnormal : ∀ e ∈ entriesAt t [], Path.normalize e.1 = e.1)
    (hps : collected t lenient false [arg] [] = some ps) (hmem : Path.normalize arg ∈ ps) :
    Findable t arg.toList := by
  intro front part back hparts hwild
  have hparts_one : (front ++ part :: back).Sublist [arg.toList] := by
    rw [← hparts, Path.parts, splitAtChar_of_not_mem hslash]
    exact List.filter_sublist
  obtain ⟨rfl, rfl, rfl⟩ : front = [] ∧ part = arg.toList ∧ back = [] := by
    have hlength := hparts_one.length_le
    simp only [List.length_append, List.length_cons, List.length_nil] at hlength
    obtain rfl := List.length_eq_zero_iff.1 (show front.length = 0 by omega)
    obtain rfl := List.length_eq_zero_iff.1 (show back.length = 0 by omega)
    exact ⟨rfl, by simpa using hparts_one.mem List.mem_cons_self, rfl⟩
  obtain ⟨a, ha, hpath⟩ := (mem_collected_iff hps).1 hmem
  rw [asked_argument, List.mem_singleton, contributionOf, hwild, if_pos rfl] at ha
  cases hfound : globPaths t lenient false arg.toList with
  | error e =>
    rw [hfound] at ha
    cases ha
  | ok found =>
    rw [hfound] at ha
    obtain ⟨p, hp, hstands⟩ : ∃ p ∈ found,
        StandsFor t false (String.ofList p) (Path.normalize arg) := by
      cases found with
      | nil =>
        cases ha
        cases hpath
      | cons first rest =>
        obtain ⟨x, hx, hstands⟩ := exists_standsFor_of_gather ha.symm hpath
        obtain ⟨p, hp, rfl⟩ := List.mem_map.1 (mem_sorted.1 hx)
        exact ⟨p, hp, hstands⟩
    obtain ⟨hentry, hfits⟩ := matchesName_of_mem_globPaths hslash hwild hfound hp
    obtain ⟨e, he, rfl⟩ := List.mem_map.1 hentry
    have he := (List.mem_filter.1 he).1
    have hhead : arg.toList.head? ≠ some '/' := fun hhead => hslash (List.mem_of_head? hhead)
    rw [rootOf_eq_relative_iff_head.2 hhead]
    refine ⟨?_, isSome_listing?_of_mem_entriesAt he⟩
    -- Both names are normal, so that they are the same.
    have heq : arg = e.1 := by
      rw [← normalize_of_hasMagic hslash hwild, ← hnormal e he]
      simpa using hstands.of_other fun access entries hdirectory =>
        absurd (hstands.of_directory access entries hdirectory).1 Bool.false_ne_true
    rw [← heq] at hfits
    exact hfits

/-- **Files given by name.**  There is a result if there is one for every argument and every line
    alone.  An argument without wildcards is findable, and if it leads to a file, it gives that
    file.  Every result has the files that its arguments lead to, if these are findable.  They have
    to be: if no directory is entered, a name in the working directory gives the file that has it
    exactly if it is findable. -/
theorem collected_names (t : Tree) (lenient recursive : Bool) (args input : List String) :
    ((collected t lenient recursive args input).isSome ↔
      (∀ arg ∈ args, (collected t lenient recursive [arg] []).isSome) ∧
        ∀ line ∈ input, (collected t lenient recursive [] [line]).isSome) ∧
    (∀ arg, hasMagic arg.toList = false → Findable t arg.toList ∧
      ∀ access bytes, t.nodeAt arg.toList = .ok (.file access bytes) →
        collected t lenient recursive [arg] [] = some [Path.normalize arg]) ∧
    (∀ ps, collected t lenient recursive args input = some ps → ∀ arg ∈ args, ∀ access bytes,
      t.nodeAt arg.toList = .ok (.file access bytes) → Findable t arg.toList →
        Path.normalize arg ∈ ps) ∧
    ((∀ e ∈ entriesAt t [], Path.normalize e.1 = e.1) → ∀ arg access bytes ps, '/' ∉ arg.toList →
      t.nodeAt arg.toList = .ok (.file access bytes) →
        collected t lenient false [arg] [] = some ps →
          (Path.normalize arg ∈ ps ↔ Findable t arg.toList)) := by
  have hfile {recursive : Bool} {args input ps : List String}
      (hps : collected t lenient recursive args input = some ps) {arg : String} (harg : arg ∈ args)
      {access : Access} {bytes : List UInt8} (h : t.nodeAt arg.toList = .ok (.file access bytes))
      (hfind : Findable t arg.toList) : Path.normalize arg ∈ ps := by
    have hasked : contributionOf t lenient recursive arg ∈ asked t lenient recursive args input :=
      List.mem_append_right _ (List.mem_map_of_mem harg)
    obtain ⟨a, ha⟩ := isSome_collected_iff.1 (by rw [hps]; rfl) _ hasked
    exact (mem_collected_iff hps).2 ⟨a, ha ▸ hasked, mem_contributionOf h hfind ha⟩
  refine ⟨isSome_collected_iff_alone, fun arg hplain => ⟨findable_of_not_hasMagic hplain,
      fun access bytes h => collected_of_file h hplain⟩,
    fun ps hps arg harg access bytes h hfind => hfile hps harg h hfind,
    fun hnormal arg access bytes ps hslash h hps => ⟨fun hmem => ?_, fun hfind => ?_⟩⟩
  · exact findable_of_mem_collected hslash hnormal hps hmem
  · exact hfile hps (List.mem_singleton_self arg) h hfind

/-- `collected_names` for two names with wildcards, of which the first fits itself and is given by
    an absolute path. -/
theorem collected_names_wildcards :
    let d : Node := .directory {} [("a*.c", .file {} []), ("[x].c", .file {} [])]
    let t : Tree := ⟨.directory {} [("d", d)], ["d"]⟩
    "/d/a*.c" ∈ (collected t false true ["/d/./a*.c", "[x].c"] []).getD [] ∧
      ¬ Findable t "[x].c".toList := by
  intro d t
  have hnormal : ∀ e ∈ entriesAt t [], Path.normalize e.1 = e.1 := by
    have hentries : entriesAt t [] = [("a*.c", .file {} []), ("[x].c", .file {} [])] := by rfl
    rw [hentries]
    decide
  have hfind : Findable t "/d/./a*.c".toList := by
    intro front part back hparts hwild
    have htwo : Path.parts "/d/./a*.c".toList = ["d".toList, "a*.c".toList] := by decide
    rw [htwo] at hparts
    obtain - | ⟨first, - | ⟨second, front⟩⟩ := front
    · cases hparts
      cases hwild
    · cases hparts
      decide +kernel
    · simp at hparts
  have hall : collected t false true ["/d/./a*.c", "[x].c"] [] = some ["/d/a*.c"] := by
    decide +kernel
  have hone : collected t false false ["[x].c"] [] = some [] := by decide +kernel
  obtain ⟨-, -, hfiles, -⟩ := collected_names t false true ["/d/./a*.c", "[x].c"] []
  obtain ⟨-, -, -, hnames⟩ := collected_names t false false [] []
  have hmem := hfiles _ hall "/d/./a*.c" List.mem_cons_self {} [] rfl hfind
  refine ⟨?_, fun hself => ?_⟩
  · rw [hall]
    exact hmem
  · exact absurd ((hnames hnormal "[x].c" {} [] [] (by decide) rfl hone).2 hself) List.not_mem_nil

/-- **A name that looks like a pattern.**  A file is named, and it is not in the result: as a
    pattern its name fits other names only.  On a line of input the name stands for the file. -/
theorem collected_bracketed :
    let t : Tree := ⟨.directory {} [("[x].c", .file {} [])], []⟩
    t.has "[x].c".toList = true ∧ t.hasDirectory "[x].c".toList = false ∧
      (∀ lenient, collected t lenient false ["[x].c"] [] = some []) ∧
        ∀ lenient, collected t lenient false [] ["[x].c"] = some [Path.normalize "[x].c"] := by
  decide +kernel

end LineCensus.Files
