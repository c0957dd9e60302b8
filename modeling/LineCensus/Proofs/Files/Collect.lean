import LineCensus.Files.Collect
import LineCensus.Proofs.Path.Canonical
import LineCensus.Proofs.Text.Order

namespace LineCensus.Files

open Text

/-!
# What a scan is asked for

The paths of a scan are put together from those of its arguments and of its lines of input, each of
which could stand alone:

* `Node.Holds`, `Listed`, `mem_filesBelow` — a walk over a directory lists the files at the end of
  names below it, as far as the directories on the way can be listed, and nothing else.
* `isSome_collected_iff_alone`, `mem_collected_iff_alone` — there is a result if there is one for
  every argument and for every line, and then it has the paths of all of them.
* `Barred`, `StandsFor` — paths that cannot be looked up, and the paths of any other argument
  without wildcards.
* `collect_arguments` — all of that, with the order of the result and without an order of arguments.
-/

/-! ### The files below a directory -/

/-- A file is at the end of the names. -/
inductive Node.Holds : Node → List String → Prop
  | file (access : Access) (bytes : List UInt8) : Node.Holds (.file access bytes) []
  | entry {access : Access} {entries : List (String × Node)} {name : String} {n : Node}
      {names : List String} (hmem : (name, n) ∈ entries) (h : Node.Holds n names) :
      Node.Holds (.directory access entries) (name :: names)

/-- A path that goes on with names. -/
def under (base : List Char) (names : List String) : List Char :=
  names.foldl (fun path name => Path.child path name.toList) base

/-- All directories on the way along the names from a path can be listed. -/
def Listed (t : Tree) (base : List Char) (names : List String) : Prop :=
  ∀ front name back, names = front ++ name :: back → (t.listing? (under base front)).isSome = true

/-- A directory holds what its entries hold under their names. -/
theorem holds_directory_iff {access : Access} {entries : List (String × Node)}
    {names : List String} : Node.Holds (.directory access entries) names ↔
      ∃ e ∈ entries, ∃ rest, e.2.Holds rest ∧ names = e.1 :: rest := by
  constructor
  · intro h
    cases h with
    | entry hmem hrest => exact ⟨_, hmem, _, hrest, rfl⟩
  · rintro ⟨e, hmem, rest, h, rfl⟩
    exact .entry hmem h

/-- A directory itself takes no listing to be found. -/
theorem listed_nil (t : Tree) (base : List Char) : Listed t base [] := by
  intro front name back h
  cases front <;> cases h

/-- A name is found if its directory can be listed, and so on below it. -/
theorem listed_cons {t : Tree} {base : List Char} {name : String} {names : List String} :
    Listed t base (name :: names) ↔
      (t.listing? base).isSome = true ∧ Listed t (Path.child base name.toList) names := by
  constructor
  · intro h
    refine ⟨h [] name names rfl, fun front name' back hnames => ?_⟩
    exact h (name :: front) name' back (by rw [hnames, List.cons_append])
  · rintro ⟨hbase, hrest⟩ front name' back hnames
    cases front with
    | nil => exact hbase
    | cons first front =>
      rw [List.cons_append, List.cons.injEq] at hnames
      obtain ⟨rfl, hnames⟩ := hnames
      exact hrest front name' back hnames

mutual

/-- **Walks.**  The listing of a node has the files below it, each under the path with its names, as
    far as the directories on the way can be listed. -/
theorem mem_filesBelow {t : Tree} {base path : List Char} :
    ∀ n : Node, path ∈ t.filesBelow base n ↔
      ∃ names, n.Holds names ∧ Listed t base names ∧ path = under base names
  | .file access bytes => by
    rw [Tree.filesBelow, List.mem_singleton]
    constructor
    · rintro rfl
      exact ⟨[], .file access bytes, listed_nil t path, rfl⟩
    · rintro ⟨names, h, -, rfl⟩
      cases h
      rfl
  | .directory access entries => by
    rw [Tree.filesBelow]
    constructor
    · intro hmem
      split_ifs at hmem with hlisting
      · obtain ⟨e, he, rest, hrest, hlisted, rfl⟩ := (mem_filesOfEntries entries).1 hmem
        exact ⟨e.1 :: rest, .entry he hrest, listed_cons.2 ⟨hlisting, hlisted⟩, rfl⟩
      · cases hmem
    · rintro ⟨names, h, hlisted, rfl⟩
      obtain ⟨e, he, rest, hrest, rfl⟩ := holds_directory_iff.1 h
      obtain ⟨hlisting, hlisted⟩ := listed_cons.1 hlisted
      rw [if_pos hlisting]
      exact (mem_filesOfEntries entries).2 ⟨e, he, rest, hrest, hlisted, rfl⟩

/-- The listing of a directory has the files below each of its entries. -/
theorem mem_filesOfEntries {t : Tree} {base path : List Char} :
    ∀ entries : List (String × Node), path ∈ t.filesOfEntries base entries ↔
      ∃ e ∈ entries, ∃ rest, e.2.Holds rest ∧ Listed t (Path.child base e.1.toList) rest ∧
        path = under (Path.child base e.1.toList) rest
  | [] => by simp [Tree.filesOfEntries]
  | (name, n) :: entries => by
    rw [Tree.filesOfEntries, List.mem_append, mem_filesOfEntries entries, mem_filesBelow n,
      List.exists_mem_cons_iff]

end

/-! ### Contributions put together -/

variable {t : Tree} {lenient recursive : Bool} {args input : List String} {ps : List String}

/-- There is a whole if every part is there. -/
theorem exists_gather_iff {cs : List (Except PathFault Contribution)} :
    (∃ c, gather cs = .ok c) ↔ ∀ x ∈ cs, ∃ a, x = .ok a := by
  induction cs with
  | nil => simp [gather]
  | cons x cs ih =>
    rw [List.forall_mem_cons, ← ih]
    cases x with
    | error e => simp [gather]
    | ok a =>
      cases hcs : gather cs with
      | error e => simp [gather, hcs, Except.map]
      | ok c => simp [gather, hcs, Except.map]

/-- The whole has the paths of the parts. -/
theorem mem_paths_gather {cs : List (Except PathFault Contribution)} {c : Contribution}
    (h : gather cs = .ok c) {p : String} : p ∈ c.paths ↔ ∃ a, .ok a ∈ cs ∧ p ∈ a.paths := by
  induction cs generalizing c with
  | nil =>
    cases h
    simp [Contribution.none]
  | cons x cs ih =>
    cases x with
    | error e => cases h
    | ok a =>
      cases hcs : gather cs with
      | error e =>
        rw [gather, hcs] at h
        cases h
      | ok d =>
        rw [gather, hcs] at h
        cases h
        rw [Contribution.append, List.mem_append, ih hcs]
        simp

/-- The normal paths of a scan, if nothing stands in the way. -/
def collected (t : Tree) (lenient recursive : Bool) (args input : List String) :
    Option (List String) :=
  (collect t lenient recursive args input).toOption.map (·.paths)

/-- The parts of a scan. -/
def asked (t : Tree) (lenient recursive : Bool) (args input : List String) :
    List (Except PathFault Contribution) :=
  input.map (inputContribution t) ++ args.map (contributionOf t lenient recursive)

/-- Paths are collected if every argument and every line gives some. -/
theorem collected_eq_some_iff : collected t lenient recursive args input = some ps ↔
    ∃ c, gather (asked t lenient recursive args input) = .ok c ∧
      ps = sorted (dedup (c.paths.map Path.normalize)) := by
  rw [collected, collect, ← asked]
  cases gather (asked t lenient recursive args input) with
  | error e => simp [Except.map, Except.toOption]
  | ok c => simp [Except.map, Except.toOption, eq_comm]

/-- There is a result if every part is there. -/
theorem isSome_collected_iff : (collected t lenient recursive args input).isSome ↔
    ∀ x ∈ asked t lenient recursive args input, ∃ a, x = .ok a := by
  rw [← exists_gather_iff, Option.isSome_iff_exists]
  simp only [collected_eq_some_iff]
  constructor
  · rintro ⟨ps, c, hc, -⟩
    exact ⟨c, hc⟩
  · rintro ⟨c, hc⟩
    exact ⟨_, c, hc, rfl⟩

/-- The result has the normal forms of the paths of the parts. -/
theorem mem_collected_iff (h : collected t lenient recursive args input = some ps) {p : String} :
    p ∈ ps ↔ ∃ a, .ok a ∈ asked t lenient recursive args input ∧
      p ∈ a.paths.map Path.normalize := by
  obtain ⟨c, hc, rfl⟩ := collected_eq_some_iff.1 h
  rw [mem_sorted, mem_dedup]
  simp only [List.mem_map, mem_paths_gather hc]
  constructor
  · rintro ⟨q, ⟨a, ha, hq⟩, rfl⟩
    exact ⟨a, ha, q, hq, rfl⟩
  · rintro ⟨a, ha, q, hq, rfl⟩
    exact ⟨q, ⟨a, ha, hq⟩, rfl⟩

/-- A single argument gives what it contributes. -/
theorem asked_argument (arg : String) :
    asked t lenient recursive [arg] [] = [contributionOf t lenient recursive arg] := rfl

/-- So does a single line. -/
theorem asked_line (line : String) :
    asked t lenient recursive [] [line] = [inputContribution t line] := rfl

/-! ### Arguments without wildcards -/

/-- A path that cannot be looked up: it, or a name on it, is longer than any can be, or it leads
    through a directory in which nothing may be looked for. -/
def Barred (t : Tree) (path : String) : Prop :=
  t.nodeAt path.toList = .error .tooLong ∨ t.nodeAt path.toList = .error .denied

/-- The paths of an argument without wildcards: those of the files below it if it leads to a
    directory that is entered, as far as its directories can be listed, none if it leads to one that
    is not entered, and its own in any other case. -/
structure StandsFor (t : Tree) (recursive : Bool) (arg p : String) : Prop where
  of_directory : ∀ access entries,
    t.nodeAt (Path.display arg).toList = .ok (.directory access entries) →
      recursive = true ∧ ∃ names, Node.Holds (.directory access entries) names ∧
        Listed t (Path.display arg).toList names ∧
          p = Path.normalize (String.ofList (under (Path.display arg).toList names))
  of_other : (∀ access entries,
    t.nodeAt (Path.display arg).toList ≠ .ok (.directory access entries)) → p = Path.normalize arg

/-- A directory stands for the files that are found in it, and only in a recursive search. -/
theorem standsFor_iff_of_directory {arg p : String} {access : Access}
    {entries : List (String × Node)}
    (h : t.nodeAt (Path.display arg).toList = .ok (.directory access entries)) :
    StandsFor t recursive arg p ↔ recursive = true ∧
      ∃ names, Node.Holds (.directory access entries) names ∧
        Listed t (Path.display arg).toList names ∧
          p = Path.normalize (String.ofList (under (Path.display arg).toList names)) := by
  refine ⟨fun hp => hp.of_directory access entries h,
    fun hp => ⟨?_, fun hother => absurd h (hother _ _)⟩⟩
  intro access' entries' h'
  rw [h, Except.ok.injEq, Node.directory.injEq] at h'
  obtain ⟨rfl, rfl⟩ := h'
  exact hp

/-- Anything else stands for itself, be it there or not. -/
theorem standsFor_iff_of_other {arg p : String}
    (h : ∀ access entries, t.nodeAt (Path.display arg).toList ≠ .ok (.directory access entries)) :
    StandsFor t recursive arg p ↔ p = Path.normalize arg :=
  ⟨fun hp => hp.of_other h,
    fun hp => ⟨fun _ _ hdirectory => absurd hdirectory (h _ _), fun _ => hp⟩⟩

/-- A walk over a directory gives the normal paths of the files below it. -/
theorem mem_map_filesBelow {shown : List Char} {n : Node} {p : String} :
    p ∈ ((t.filesBelow shown n).map String.ofList).map Path.normalize ↔
      ∃ names, n.Holds names ∧ Listed t shown names ∧
        p = Path.normalize (String.ofList (under shown names)) := by
  rw [List.map_map, List.mem_map]
  constructor
  · rintro ⟨path, hmem, rfl⟩
    obtain ⟨names, hholds, hlisted, rfl⟩ := (mem_filesBelow n).1 hmem
    exact ⟨names, hholds, hlisted, rfl⟩
  · rintro ⟨names, hholds, hlisted, rfl⟩
    exact ⟨_, (mem_filesBelow n).2 ⟨names, hholds, hlisted, rfl⟩, rfl⟩

/-- What comes of a part of a scan: a fault if it is barred, and otherwise paths that are known. -/
def Gives (x : Except PathFault Contribution) (barred : Prop) (paths : String → Prop) : Prop :=
  barred ∧ (∃ e, x = .error e) ∨
    ¬ barred ∧ ∃ a, x = .ok a ∧ ∀ p, p ∈ a.paths.map Path.normalize ↔ paths p

/-- **One path.**  A path that is barred is a fault, and any other one gives the paths that it
    stands for. -/
theorem targetContribution_spec (t : Tree) (recursive : Bool) (path : String) :
    Gives (targetContribution t recursive path) (Barred t (Path.display path))
      (StandsFor t recursive path) := by
  have hself (p : String) : p ∈ [path].map Path.normalize ↔ p = Path.normalize path := by simp
  unfold Barred targetContribution Tree.probe
  dsimp only
  -- The two faults that end the whole collection are told apart from a name that leads nowhere.
  cases hnode : t.nodeAt (Path.display path).toList with
  | error e =>
    have hother (p : String) : StandsFor t recursive path p ↔ p = Path.normalize path :=
      standsFor_iff_of_other (by simp [hnode])
    cases e with
    | tooLong => exact .inl ⟨.inl rfl, _, rfl⟩
    | denied => exact .inl ⟨.inr rfl, _, rfl⟩
    | _ => exact .inr ⟨by simp, ⟨[path], []⟩, rfl, fun p => (hself p).trans (hother p).symm⟩
  | ok n =>
    refine .inr ⟨by simp, ?_⟩
    cases n with
    | file access bytes =>
      have hother (p : String) : StandsFor t recursive path p ↔ p = Path.normalize path :=
        standsFor_iff_of_other (by simp [hnode])
      exact ⟨⟨[path], []⟩, rfl, fun p => (hself p).trans (hother p).symm⟩
    | directory access entries =>
      cases recursive with
      | true =>
        refine ⟨_, rfl, fun p => ?_⟩
        rw [standsFor_iff_of_directory hnode, eq_self_iff_true, true_and]
        exact mem_map_filesBelow
      | false =>
        refine ⟨⟨[], [.skippedDirectory path]⟩, rfl, fun p => ?_⟩
        simp [standsFor_iff_of_directory hnode]

/-- **One line.**  A line with a path that is barred is a fault; any other one gives its path if
    something is there. -/
theorem inputContribution_spec (t : Tree) (line : String) :
    Gives (inputContribution t line) (strip line ≠ "" ∧ Barred t (Path.display (strip line)))
      fun p => strip line ≠ "" ∧ t.has (Path.display (strip line)).toList = true ∧
        p = Path.normalize (strip line) := by
  simp only [Gives, Barred, inputContribution, Tree.probe, Tree.has]
  by_cases hblank : strip line = ""
  · simp [hblank, Contribution.none]
  · cases t.nodeAt (Path.display (strip line)).toList with
    | error e => cases e <;> simp [hblank, Except.toOption]
    | ok n =>
      have hone (p : String) : Path.normalize (strip line) = p ↔ p = Path.normalize (strip line) :=
        eq_comm
      simp [hblank, Except.toOption, hone]

/-! ### Whole scans -/

/-- What a single argument or line gives alone. -/
theorem mem_alone_iff {x : Except PathFault Contribution}
    (hasked : asked t lenient recursive args input = [x]) {p : String} :
    p ∈ (collected t lenient recursive args input).getD [] ↔
      ∃ a, x = .ok a ∧ p ∈ a.paths.map Path.normalize := by
  cases hps : collected t lenient recursive args input with
  | some ps =>
    rw [Option.getD_some, mem_collected_iff hps, hasked]
    simp only [List.mem_singleton, eq_comm]
  | none =>
    have hnone : ¬ (collected t lenient recursive args input).isSome := by simp [hps]
    rw [isSome_collected_iff, hasked, List.forall_mem_singleton] at hnone
    simp only [Option.getD_none, List.not_mem_nil, false_iff]
    rintro ⟨a, ha, -⟩
    exact hnone ⟨a, ha⟩

/-- What is known of a contribution is known of what it gives alone. -/
theorem collected_alone {x : Except PathFault Contribution} {barred : Prop}
    {paths : String → Prop}
    (hasked : asked t lenient recursive args input = [x])
    (hx : Gives x barred paths) :
    (collected t lenient recursive args input = none ↔ barred) ∧
      (¬ barred → ∀ p, p ∈ (collected t lenient recursive args input).getD [] ↔ paths p) := by
  have hsome : (collected t lenient recursive args input).isSome ↔ ∃ a, x = .ok a := by
    rw [isSome_collected_iff, hasked, List.forall_mem_singleton]
  rw [← Option.not_isSome_iff_eq_none, hsome]
  rcases hx with ⟨hbarred, e, rfl⟩ | ⟨hfree, a, rfl, hpaths⟩
  · exact ⟨iff_of_true (by simp) hbarred, absurd hbarred⟩
  · refine ⟨iff_of_false (by simp) hfree, fun _ p => ?_⟩
    rw [mem_alone_iff hasked, ← hpaths p]
    simp

/-- There is a result if there is one for every argument and for every line alone. -/
theorem isSome_collected_iff_alone : (collected t lenient recursive args input).isSome ↔
    (∀ arg ∈ args, (collected t lenient recursive [arg] []).isSome) ∧
      ∀ line ∈ input, (collected t lenient recursive [] [line]).isSome := by
  simp only [isSome_collected_iff, asked_argument, asked_line, List.forall_mem_singleton]
  rw [asked, List.forall_mem_append, List.forall_mem_map, List.forall_mem_map, and_comm]

/-- The result is a union over the arguments and the lines. -/
theorem mem_collected_iff_alone (h : collected t lenient recursive args input = some ps)
    {p : String} : p ∈ ps ↔ (∃ arg ∈ args, p ∈ (collected t lenient recursive [arg] []).getD []) ∨
      ∃ line ∈ input, p ∈ (collected t lenient recursive [] [line]).getD [] := by
  simp only [mem_collected_iff h, mem_alone_iff (asked_argument _), mem_alone_iff (asked_line _)]
  constructor
  · rintro ⟨a, ha, hp⟩
    rcases List.mem_append.1 ha with hline | harg
    · obtain ⟨line, hmem, hline⟩ := List.mem_map.1 hline
      exact .inr ⟨line, hmem, a, hline, hp⟩
    · obtain ⟨arg, hmem, harg⟩ := List.mem_map.1 harg
      exact .inl ⟨arg, hmem, a, harg, hp⟩
  · rintro (⟨arg, hmem, a, harg, hp⟩ | ⟨line, hmem, a, hline, hp⟩)
    · exact ⟨a, List.mem_append_right _ (List.mem_map.2 ⟨arg, hmem, harg⟩), hp⟩
    · exact ⟨a, List.mem_append_left _ (List.mem_map.2 ⟨line, hmem, hline⟩), hp⟩

/-- **What a scan is asked for.**  There is a list of paths if every argument and every line gives
    one.  It ascends strictly, its paths are normal, and they are those of the single arguments and
    lines; so neither order nor repetition of these matters.  An argument without wildcards gives
    the paths that it stands for, and a line gives its path if something is there; either is a fault
    exactly if it is barred. -/
theorem collect_arguments (t : Tree) (lenient recursive : Bool) (args input : List String) :
    ((collected t lenient recursive args input).isSome ↔
      (∀ arg ∈ args, (collected t lenient recursive [arg] []).isSome) ∧
        ∀ line ∈ input, (collected t lenient recursive [] [line]).isSome) ∧
    (∀ ps, collected t lenient recursive args input = some ps →
      Ascending ps ∧ (∀ p ∈ ps, Path.normalize p = p) ∧
        ∀ p, p ∈ ps ↔ (∃ arg ∈ args, p ∈ (collected t lenient recursive [arg] []).getD []) ∨
          ∃ line ∈ input, p ∈ (collected t lenient recursive [] [line]).getD []) ∧
    (∀ args' input', (∀ arg, arg ∈ args' ↔ arg ∈ args) → (∀ line, line ∈ input' ↔ line ∈ input) →
      collected t lenient recursive args' input' = collected t lenient recursive args input) ∧
    (∀ arg, hasMagic arg.toList = false →
      (collected t lenient recursive [arg] [] = none ↔ Barred t (Path.display arg)) ∧
        (¬ Barred t (Path.display arg) → ∀ p,
          p ∈ (collected t lenient recursive [arg] []).getD [] ↔ StandsFor t recursive arg p)) ∧
    ∀ line,
      (collected t lenient recursive [] [line] = none ↔
        strip line ≠ "" ∧ Barred t (Path.display (strip line))) ∧
      (¬ (strip line ≠ "" ∧ Barred t (Path.display (strip line))) → ∀ p,
        p ∈ (collected t lenient recursive [] [line]).getD [] ↔
          strip line ≠ "" ∧ t.has (Path.display (strip line)).toList = true ∧
            p = Path.normalize (strip line)) := by
  have hsorted {args input ps : List String}
      (h : collected t lenient recursive args input = some ps) : Ascending ps := by
    obtain ⟨c, -, rfl⟩ := collected_eq_some_iff.1 h
    exact ascending_sorted_dedup _
  refine ⟨isSome_collected_iff_alone, fun ps hps => ⟨hsorted hps, fun p hp => ?_, fun p => ?_⟩,
    fun args' input' hargs hinput => ?_, fun arg harg => ?_, fun line => ?_⟩
  · obtain ⟨a, -, hp⟩ := (mem_collected_iff hps).1 hp
    obtain ⟨q, -, rfl⟩ := List.mem_map.1 hp
    exact Path.normalize_idem q
  · exact mem_collected_iff_alone hps
  · have hsome : (collected t lenient recursive args' input').isSome ↔
        (collected t lenient recursive args input).isSome := by
      rw [isSome_collected_iff_alone, isSome_collected_iff_alone]
      simp only [hargs, hinput]
    cases hps : collected t lenient recursive args input with
    | none => simpa [hps] using hsome
    | some ps =>
      rw [hps] at hsome
      obtain ⟨ps', hps'⟩ := Option.isSome_iff_exists.1 (hsome.2 rfl)
      rw [hps', ascending_ext (hsorted hps') (hsorted hps)]
      intro p
      rw [mem_collected_iff_alone hps', mem_collected_iff_alone hps]
      simp only [hargs, hinput]
  · have hasked : asked t lenient recursive [arg] [] = [targetContribution t recursive arg] := by
      rw [asked_argument, contributionOf, harg, if_neg Bool.false_ne_true]
    exact collected_alone hasked (targetContribution_spec t recursive arg)
  · exact collected_alone (asked_line line) (inputContribution_spec t line)

/-- `collect_arguments` for a directory that is entered, named by an absolute path and as the one
    above the working directory, with a file in a hidden directory, and for a file in it that is
    named alone, and once before and once behind the directory. -/
theorem collect_arguments_hidden :
    let src : Node := .directory {}
      [(".h", .directory {} [("x.rs", .file {} [])]), ("a.rs", .file {} [])]
    let t : Tree := ⟨.directory {} [("src", src), ("w", .empty)], ["w"]⟩
    hasMagic "/src//".toList = false ∧ ¬ Barred t (Path.display "/src//") ∧
      (∀ p, p ∈ (collected t true true ["/src//"] []).getD [] ↔ StandsFor t true "/src//" p) ∧
      "/src/.h/x.rs" ∈ (collected t true true ["/src//"] []).getD [] ∧
      "../src/.h/x.rs" ∈ (collected t true true [".."] []).getD [] ∧
      collected t true true ["/src/./a.rs"] [] = some ["/src/a.rs"] ∧
      Path.normalize "/src/a.rs" = "/src/a.rs" ∧
      collected t true true ["/src/a.rs", "/src//", "/src/a.rs"] [] =
        collected t true true ["/src//", "/src/a.rs"] [] := by
  intro src t
  have hnode : t.nodeAt (Path.display "/src//").toList = .ok src := by rfl
  have habove : t.nodeAt (Path.display "..").toList = .ok t.root := by rfl
  have hplain : hasMagic "/src//".toList = false := by decide
  have hfree : ¬ Barred t (Path.display "/src//") := by simp [Barred, hnode]
  have hfree_above : ¬ Barred t (Path.display "..") := by simp [Barred, habove]
  have hpaths := (collect_arguments t true true [] []).2.2.2.1 "/src//" hplain |>.2 hfree
  have hpaths_above :=
    (collect_arguments t true true [] []).2.2.2.1 ".." (by decide) |>.2 hfree_above
  have hholds : src.Holds [".h", "x.rs"] :=
    .entry List.mem_cons_self (.entry List.mem_cons_self (.file {} []))
  have hhidden : StandsFor t true "/src//" "/src/.h/x.rs" := by
    refine (standsFor_iff_of_directory hnode).2 ⟨rfl, [".h", "x.rs"], hholds, ?_, by decide⟩
    rw [listed_cons, listed_cons]
    exact ⟨by decide +kernel, by decide +kernel, listed_nil t _⟩
  have hhidden_above : StandsFor t true ".." "../src/.h/x.rs" := by
    refine (standsFor_iff_of_directory habove).2
      ⟨rfl, ["src", ".h", "x.rs"], .entry List.mem_cons_self hholds, ?_, by decide⟩
    rw [listed_cons, listed_cons, listed_cons]
    exact ⟨by decide +kernel, by decide +kernel, by decide +kernel, listed_nil t _⟩
  have hone : collected t true true ["/src/./a.rs"] [] = some ["/src/a.rs"] := by decide +kernel
  obtain ⟨-, hresult, -⟩ := collect_arguments t true true ["/src/./a.rs"] []
  have hnormal := (hresult _ hone).2.1 "/src/a.rs" List.mem_cons_self
  obtain ⟨-, -, hany, -⟩ := collect_arguments t true true ["/src//", "/src/a.rs"] []
  have hrepeated := hany ["/src/a.rs", "/src//", "/src/a.rs"] []
    (fun arg => by simp; tauto) fun _ => Iff.rfl
  exact ⟨hplain, hfree, hpaths, (hpaths _).2 hhidden, (hpaths_above _).2 hhidden_above, hone,
    hnormal, hrepeated⟩

set_option maxRecDepth 4000 in
/-- **A name that is too long.**  An argument with a name that no entry can have is neither there
    nor kept for the scan to report: there is no list of paths at all, not even of the other
    arguments. -/
theorem collected_overlong :
    let t : Tree := ⟨.directory {} [("a.c", .file {} [])], []⟩
    let long := String.ofList (List.replicate 256 'x')
    hasMagic long.toList = false ∧ t.has long.toList = false ∧ Path.normalize long = long ∧
      ∀ lenient, collected t lenient false ["a.c", long] [] = none := by
  intro t long
  -- Character by character, the name is the only component of its path.
  have hlist : long.toList = List.replicate 256 'x' := String.toList_ofList
  have hshown : (Path.display long).toList = long.toList := by
    rw [Path.display, hlist, String.toList_ofList]
    decide +kernel
  have hmagic : hasMagic long.toList = false := by
    rw [hlist]
    decide +kernel
  have hlong : t.nodeAt long.toList = .error .tooLong := by
    rw [hlist]
    rfl
  refine ⟨hmagic, ?_, ?_, fun lenient => ?_⟩
  · rw [Tree.has, hlong]
    rfl
  · rw [Path.normalize, hlist]
    congr 1
  · rw [← Option.not_isSome_iff_eq_none, isSome_collected_iff]
    intro hall
    obtain ⟨a, ha⟩ := hall (contributionOf t lenient false long) (by simp [asked])
    rw [contributionOf, hmagic, if_neg Bool.false_ne_true] at ha
    rcases targetContribution_spec t false long with ⟨-, e, hfault⟩ | ⟨hfree, -⟩
    · rw [hfault] at ha
      cases ha
    · exact hfree (.inl (by rw [hshown, hlong]))

end LineCensus.Files
