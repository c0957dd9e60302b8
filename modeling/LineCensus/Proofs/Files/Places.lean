import LineCensus.Files.Collect
import LineCensus.Proofs.Path.Canonical
import LineCensus.Proofs.Table
import Mathlib.Data.List.DropRight
import Mathlib.Data.List.Flatten

namespace LineCensus.Files

open Text

/-!
# Where paths lead

* `Node.step_name` — a step to a name leads from a directory to one of its entries.
* `Tree.locate_eq_ok_iff` — a path leads somewhere if it is usable and a walk along its components
  gets through.
* `Respells` — a spelling of a path that leads to the same place and has the same components.
* `Divided`, `splitPath_cases` — a path is a single component, one behind slashes, or a directory,
  slashes and a base.
* `locate_build`, `nodeAt_display` — a path as it is shown leads to where the path leads.
-/

section Except

variable {ε α β : Type}

/-- Both of two steps were taken if the second one was. -/
theorem exists_of_bind_eq_ok {x : Except ε α} {f : α → Except ε β} {b : β}
    (h : x >>= f = .ok b) : ∃ a, x = .ok a ∧ f a = .ok b := by
  cases x with
  | error e => cases h
  | ok a => exact ⟨a, rfl, h⟩

/-- A changed result comes from a result. -/
theorem exists_of_map_eq_ok {x : Except ε α} {f : α → β} {b : β} (h : x.map f = .ok b) :
    ∃ a, x = .ok a ∧ f a = b := by
  cases x with
  | error e => cases h
  | ok a => exact ⟨a, rfl, Except.ok.inj h⟩

end Except

namespace Node

variable {root : Node} {names q : List String} {part : List Char}

/-! ### Walks -/

/-- A walk begins with its first step. -/
theorem walk_cons (root : Node) (names : List String) (part : List Char) (ps : List (List Char)) :
    root.walk names (part :: ps) = root.step names part >>= fun next => root.walk next ps := by
  rw [walk]
  cases root.step names part <;> rfl

/-- A walk goes on where its front ends. -/
theorem walk_append (root : Node) (names : List String) (ps qs : List (List Char)) :
    root.walk names (ps ++ qs) = root.walk names ps >>= fun q => root.walk q qs := by
  induction ps generalizing names with
  | nil => rfl
  | cons part ps ih =>
    rw [List.cons_append, walk_cons, walk_cons]
    cases root.step names part with
    | error e => rfl
    | ok next => exact ih next

/-- A single step is a walk. -/
theorem walk_singleton (root : Node) (names : List String) (part : List Char) :
    root.walk names [part] = root.step names part := by
  rw [walk]
  cases root.step names part <;> rfl

/-- The node at the end of some names is found along the first of them and then along the others. -/
theorem get?_append (n : Node) (names rest : List String) :
    n.get? (names ++ rest) = (n.get? names).bind fun m => m.get? rest := by
  induction names generalizing n with
  | nil => rfl
  | cons name names ih =>
    cases n with
    | file a b => rfl
    | directory a entries =>
      rw [List.cons_append, get?, get?, Option.bind_assoc]
      congr 1
      funext m
      exact ih m

/-- **What a step can do.**  It is made from a directory: behind a slash nothing happens; otherwise
    the directory has to be open to looking for entries, and the step stays, goes up, or goes to an
    entry by its name. -/
theorem step_cases (h : root.step names part = .ok q) :
    ∃ access entries, root.get? names = some (.directory access entries) ∧
      (part = [] ∧ q = names ∨ access.search = true ∧
        (part = ['.'] ∧ q = names ∨ part = ['.', '.'] ∧ q = names.dropLast ∨
          part ≠ [] ∧ part ≠ ['.'] ∧ part ≠ ['.', '.'] ∧ q = names ++ [String.ofList part] ∧
            ∃ n, Table.get? entries (String.ofList part) = some n)) := by
  rw [step] at h
  split at h
  · cases h
  · cases h
  · next access entries hentries =>
    refine ⟨access, entries, hentries, ?_⟩
    split_ifs at h with hnil hsearch hdot hdots
    · exact .inl ⟨hnil, (Except.ok.inj h).symm⟩
    · exact .inr ⟨by simpa using hsearch, .inl ⟨hdot, (Except.ok.inj h).symm⟩⟩
    · exact .inr ⟨by simpa using hsearch, .inr (.inl ⟨hdots, (Except.ok.inj h).symm⟩)⟩
    · rw [enter] at h
      dsimp only at h
      split_ifs at h with hlong hhas
      refine .inr ⟨by simpa using hsearch, .inr (.inr ⟨hnil, hdot, hdots,
        (Except.ok.inj h).symm, ?_⟩)⟩
      exact Option.isSome_iff_exists.1 (Table.isSome_get?_iff.2 (Table.has_iff.1 hhas))

/-- Where an empty component or a dot leads somewhere, it leads nowhere else. -/
theorem step_stay (hpart : part = [] ∨ part = ['.']) (h : root.step names part = .ok q) :
    q = names := by
  obtain ⟨access, entries, -, ⟨-, hq⟩ | ⟨-, ⟨-, hq⟩ | ⟨hdots, -⟩ | ⟨hnil, hdot, -⟩⟩⟩ :=
    step_cases h
  · exact hq
  · exact hq
  · rcases hpart with rfl | rfl <;> cases hdots
  · exact absurd hpart (by simp [hnil, hdot])

/-- Where a step leads somewhere, a slash more leads nowhere else. -/
theorem step_nil (h : root.step names part = .ok q) : root.step names [] = .ok names := by
  obtain ⟨access, entries, hentries, -⟩ := step_cases h
  rw [step, hentries]
  exact if_pos rfl

/-- Where a component leads somewhere, there is a dot to stay at. -/
theorem step_dot (hpart : part ≠ []) (h : root.step names part = .ok q) :
    root.step names ['.'] = .ok names := by
  obtain ⟨access, entries, hentries, ⟨hnil, -⟩ | ⟨hsearch, -⟩⟩ := step_cases h
  · exact absurd hnil hpart
  · rw [step, hentries]
    dsimp only
    rw [if_neg (by decide), if_neg (by simp [hsearch]), if_pos rfl]

/-- A name leads from a directory to an entry of it. -/
theorem step_name (hempty : part ≠ []) (hdot : part ≠ ['.']) (hdots : part ≠ ['.', '.'])
    (h : root.step names part = .ok q) :
    ∃ access entries n, root.get? names = some (.directory access entries) ∧
      Table.get? entries (String.ofList part) = some n ∧ root.get? q = some n := by
  obtain ⟨access, entries, hentries, ⟨hnil, -⟩ | ⟨-, ⟨hd, -⟩ | ⟨hd, -⟩ | ⟨-, -, -, rfl, n, hn⟩⟩⟩ :=
    step_cases h
  · exact absurd hnil hempty
  · exact absurd hd hdot
  · exact absurd hd hdots
  · refine ⟨access, entries, n, hentries, hn, ?_⟩
    rw [get?_append, hentries, Option.bind_some, get?, hn]
    rfl

/-- A step leads to something. -/
theorem isSome_get?_of_step (h : root.step names part = .ok q) : (root.get? q).isSome := by
  obtain ⟨access, entries, hentries, ⟨-, rfl⟩ | ⟨-, ⟨-, rfl⟩ | ⟨-, rfl⟩ | ⟨hnil, hdot, hdots, -⟩⟩⟩ :=
    step_cases h
  · rw [hentries]
    rfl
  · rw [hentries]
    rfl
  · -- What is above a node that is there is there.
    rcases List.eq_nil_or_concat names with rfl | ⟨front, last, rfl⟩
    · rw [List.dropLast_nil, hentries]
      rfl
    · rw [List.concat_eq_append, get?_append] at hentries
      obtain ⟨m, hm, -⟩ := Option.bind_eq_some_iff.1 hentries
      rw [List.concat_eq_append, List.dropLast_concat, hm]
      rfl
  · obtain ⟨-, -, n, -, -, hn⟩ := step_name hnil hdot hdots h
    rw [hn]
    rfl

/-- A walk that makes a step leads to something. -/
theorem isSome_get?_of_walk {ps : List (List Char)} (hps : ps ≠ [])
    (h : root.walk names ps = .ok q) : (root.get? q).isSome := by
  induction ps generalizing names with
  | nil => exact absurd rfl hps
  | cons part ps ih =>
    rw [walk_cons] at h
    obtain ⟨next, hstep, h⟩ := exists_of_bind_eq_ok h
    cases ps with
    | nil =>
      cases h
      exact isSome_get?_of_step hstep
    | cons part' ps => exact ih (List.cons_ne_nil part' ps) h

/-- Empty components and dots can be left out of a walk that gets through. -/
theorem walk_filter {keep : List Char → Bool}
    (hkeep : ∀ part, keep part = false → part = [] ∨ part = ['.']) {ps : List (List Char)}
    (h : root.walk names ps = .ok q) : root.walk names (ps.filter keep) = .ok q := by
  induction ps generalizing names with
  | nil => exact h
  | cons part ps ih =>
    rw [walk_cons] at h
    obtain ⟨next, hstep, h⟩ := exists_of_bind_eq_ok h
    cases hpart : keep part with
    | true =>
      rw [List.filter_cons_of_pos hpart, walk, hstep]
      exact ih h
    | false =>
      rw [List.filter_cons_of_neg (by simp [hpart])]
      exact ih (step_stay (hkeep part hpart) hstep ▸ h)

/-- Slashes at which a walk may begin lead nowhere else. -/
theorem walk_slashes (h : root.step names [] = .ok names) (k : Nat) (ps : List (List Char)) :
    root.walk names (List.replicate k [] ++ ps) = root.walk names ps := by
  induction k with
  | zero => rfl
  | succ k ih =>
    rw [List.replicate_succ, List.cons_append, walk_cons, h]
    exact ih

end Node

/-! ### Paths -/

/-- A path that there can be: not empty, without null characters, and not too long. -/
structure Usable (path : List Char) : Prop where
  ne_nil : path ≠ []
  null_not_mem : '\x00' ∉ path
  length_lt : (encodeUtf8 path).length < Tree.maxPath

/-- The bytes of two texts in a row are those of both. -/
theorem length_encodeUtf8_append (s t : List Char) :
    (encodeUtf8 (s ++ t)).length = (encodeUtf8 s).length + (encodeUtf8 t).length := by
  rw [encodeUtf8, List.flatMap_append, List.length_append]
  rfl

/-- What is left of a text has no more bytes. -/
theorem length_encodeUtf8_le {s t : List Char} (h : s.Sublist t) :
    (encodeUtf8 s).length ≤ (encodeUtf8 t).length :=
  (h.flatMap encodeCharUtf8).length_le

/-- What is left of a path is a path. -/
theorem Usable.sublist {s path : List Char} (h : Usable path) (hs : s ≠ [])
    (hsub : s.Sublist path) : Usable s :=
  ⟨hs, fun hmem => h.null_not_mem (hsub.mem hmem),
    lt_of_le_of_lt (length_encodeUtf8_le hsub) h.length_lt⟩

namespace Tree

variable {t : Tree} {path : List Char} {q : List String}

/-- A path is found where the walk along its parts ends, if it can be looked up at all. -/
theorem locate_eq_ok_iff : t.locate path = .ok q ↔
    Usable path ∧ t.root.walk (t.start path) (splitAtChar '/' path) = .ok q := by
  rw [locate, along]
  split_ifs with hempty hnull hlong
  · exact iff_of_false (by simp) fun h => h.1.ne_nil (List.isEmpty_iff.1 hempty)
  · exact iff_of_false (by simp) fun h => h.1.null_not_mem (by simpa [hasNull] using hnull)
  · exact iff_of_false (by simp) fun h => absurd h.1.length_lt (Nat.not_lt.2 hlong)
  · rw [and_iff_right ⟨by simpa using hempty, by simpa [hasNull] using hnull, Nat.not_le.1 hlong⟩]

/-- What is at a path is what is at the place it leads to. -/
theorem nodeAt_eq_ok_iff {n : Node} :
    t.nodeAt path = .ok n ↔ ∃ q, t.locate path = .ok q ∧ t.root.get? q = some n := by
  rw [nodeAt]
  cases t.locate path with
  | error e => simp
  | ok q => cases hq : t.root.get? q <;> simp [hq]

/-- Every path has a part, be it an empty one. -/
theorem splitAtChar_ne_nil (path : List Char) : splitAtChar '/' path ≠ [] := by
  rw [splitAtChar_eq_splitOn]
  exact List.splitOn_ne_nil '/' path

/-- Something is where a path leads to. -/
theorem has_of_locate (h : t.locate path = .ok q) : t.has path = true := by
  obtain ⟨n, hn⟩ := Option.isSome_iff_exists.1
    (Node.isSome_get?_of_walk (splitAtChar_ne_nil path) (locate_eq_ok_iff.1 h).2)
  rw [has, nodeAt_eq_ok_iff.2 ⟨q, h, hn⟩]
  rfl

/-- Paths that lead to the same place lead to the same node. -/
theorem nodeAt_congr {p : List Char} (h : t.locate p = t.locate path) :
    t.nodeAt p = t.nodeAt path := by
  rw [nodeAt, nodeAt, h]

/-- Paths to one place have the same listing. -/
theorem listing?_congr {p : List Char} (h : t.locate p = t.locate path) :
    t.listing? p = t.listing? path := by
  rw [listing?, listing?, nodeAt_congr h]

/-- A path sets out from where the front of it does. -/
theorem start_append {s : List Char} (hs : s ≠ []) (rest : List Char) :
    t.start (s ++ rest) = t.start s := by
  rw [start, start, List.head?_append_of_ne_nil _ hs]

/-- A path that leads to a file has no slash at its end. -/
theorem last_ne_of_file {access : Access} {bytes : List UInt8}
    (h : t.nodeAt path = .ok (.file access bytes)) : path.getLast? ≠ some '/' := by
  obtain ⟨q, hq, hfile⟩ := nodeAt_eq_ok_iff.1 h
  intro hlast
  obtain ⟨front, rfl⟩ : ∃ front, path = front ++ ['/'] :=
    ⟨_, (List.dropLast_append_getLast? '/' hlast).symm⟩
  have hwalk := (locate_eq_ok_iff.1 hq).2
  rw [splitAtChar_append_cons, Node.walk_append] at hwalk
  obtain ⟨names, -, hwalk⟩ := exists_of_bind_eq_ok hwalk
  -- The last step is made from a directory, and stays there.
  have hstep : t.root.step names [] = .ok q := (Node.walk_singleton t.root names []).symm.trans hwalk
  obtain rfl := Node.step_stay (.inl rfl) hstep
  obtain ⟨access, entries, hentries, -⟩ := Node.step_cases hstep
  rw [hfile] at hentries
  cases hentries

end Tree

/-! ### Roots -/

/-- A path is relative unless it begins with a slash. -/
theorem rootOf_eq_relative_iff_head {s : List Char} :
    Path.rootOf s = .relative ↔ s.head? ≠ some '/' := by
  cases s with
  | nil => simp [Path.rootOf]
  | cons c s =>
    by_cases hc : c = '/'
    · rw [Path.rootOf_eq_relative_iff, Path.leadingSlashes]
      simp [hc]
    · simp [Path.rootOf, hc]

/-- What follows the first component that is not empty has no bearing on the root. -/
theorem rootOf_append {s : List Char} (h : ∃ c ∈ s, c ≠ '/') (rest : List Char) :
    Path.rootOf (s ++ rest) = Path.rootOf s := by
  have htake : (s ++ rest).takeWhile (· == '/') = s.takeWhile (· == '/') := by
    rw [List.takeWhile_append, if_neg]
    intro hall
    obtain ⟨c, hc, hne⟩ := h
    have hslash := List.takeWhile_eq_self_iff.1 ((List.takeWhile_prefix _).eq_of_length hall) c hc
    exact hne (by simpa using hslash)
  rw [Path.rootOf, Path.rootOf, htake]

/-- A component behind slashes has no bearing on the root. -/
theorem rootOf_append_base (s : List Char) {base : List Char} (h : '/' ∉ base) :
    Path.rootOf (s ++ base) = Path.rootOf s := by
  have htake : (s ++ base).takeWhile (· == '/') = s.takeWhile (· == '/') := by
    rw [List.takeWhile_append]
    split_ifs with hall
    · have hbase : base.takeWhile (· == '/') = [] := by
        cases base with
        | nil => rfl
        | cons c base =>
          rw [List.takeWhile_cons_of_neg]
          simp only [List.mem_cons, not_or] at h
          simpa using Ne.symm h.1
      rw [hbase, List.append_nil, (List.takeWhile_prefix _).eq_of_length hall]
    · rfl
  rw [Path.rootOf, Path.rootOf, htake]

/-- A path begins with the characters of its root. -/
theorem rootText_prefix (path : List Char) : (Path.rootOf path).text <+: path := by
  refine List.IsPrefix.trans ?_ (List.takeWhile_prefix (· == '/'))
  have hslash : ∀ c ∈ path.takeWhile (· == '/'), c = '/' := fun c hc => by
    simpa using List.mem_takeWhile_imp hc
  rw [Path.rootOf]
  split
  · exact List.nil_prefix
  · next a b heq =>
    rw [heq] at hslash
    obtain rfl := hslash a (by simp)
    obtain rfl := hslash b (by simp)
    exact heq ▸ List.prefix_rfl
  · next hnil _ =>
    obtain ⟨c, rest, heq⟩ := List.exists_cons_of_ne_nil hnil
    obtain rfl := hslash c (heq ▸ List.mem_cons_self)
    rw [heq]
    exact ⟨rest, rfl⟩

/-- Paths with one root start at one place. -/
theorem start_eq_of_root {t : Tree} {p path : List Char}
    (h : Path.rootOf p = Path.rootOf path) : t.start p = t.start path := by
  have hhead : p.head? = some '/' ↔ path.head? = some '/' := by
    rw [← not_iff_not, ← ne_eq, ← ne_eq, ← rootOf_eq_relative_iff_head,
      ← rootOf_eq_relative_iff_head, h]
  rw [Tree.start, Tree.start]
  simp only [hhead]

/-! ### Spellings of one way -/

/-- The parts on both sides of a slash are those of the two sides. -/
theorem parts_append_slash (s t : List Char) :
    Path.parts (s ++ '/' :: t) = Path.parts s ++ Path.parts t := by
  rw [Path.parts, splitAtChar_append_cons, List.filter_append]
  rfl

/-- Slashes in front add no part. -/
theorem parts_slashes (k : Nat) (s : List Char) :
    Path.parts (List.replicate k '/' ++ s) = Path.parts s := by
  induction k with
  | zero => rfl
  | succ k ih =>
    rw [List.replicate_succ, List.cons_append, ← ih]
    exact parts_append_slash [] _

/-- Slashes in front of a name give an empty part each. -/
theorem splitAtChar_slashes (k : Nat) {base : List Char} (h : '/' ∉ base) :
    splitAtChar '/' (List.replicate k '/' ++ base) = List.replicate k [] ++ [base] := by
  induction k with
  | zero => exact splitAtChar_of_not_mem h
  | succ k ih =>
    rw [List.replicate_succ, List.cons_append, splitAtChar, if_pos rfl, ih]
    rfl

/-- The first path is a spelling of the second that is not longer. -/
structure Respells (t : Tree) (p path : List Char) : Prop where
  root_eq : Path.rootOf p = Path.rootOf path
  last_ne : p.getLast? ≠ some '/'
  locate_eq : t.locate p = t.locate path
  parts_eq : Path.parts p = Path.parts path
  length_le : (encodeUtf8 p).length ≤ (encodeUtf8 path).length

/-- A path spells itself. -/
theorem Respells.refl {t : Tree} {path : List Char} (hlast : path.getLast? ≠ some '/') :
    Respells t path path :=
  ⟨rfl, hlast, rfl, rfl, le_rfl⟩

/-- A path is a directory, slashes and a base. -/
structure Divided (path dir : List Char) (slashes : Nat) (base : List Char) : Prop where
  path_eq : path = dir ++ '/' :: (List.replicate slashes '/' ++ base)
  dir_ne : dir ≠ []
  last_ne : dir.getLast? ≠ some '/'
  slash_not_mem : '/' ∉ base

/-- What does not end in a slash does not consist of slashes. -/
theorem exists_ne_slash {s : List Char} (hs : s ≠ []) (hlast : s.getLast? ≠ some '/') :
    ∃ c ∈ s, c ≠ '/' :=
  ⟨s.getLast hs, List.getLast_mem hs, fun h => hlast (by
    rw [List.getLast?_eq_some_getLast hs, h])⟩

/-- What ends in a base does not end in a slash. -/
theorem getLast?_append_base_ne (s : List Char) {base : List Char} (hbase : base ≠ [])
    (h : '/' ∉ base) : (s ++ base).getLast? ≠ some '/' := by
  rw [List.getLast?_append_of_ne_nil _ hbase]
  exact fun heq => h (List.mem_of_getLast? heq)

section Divided

variable {t : Tree} {path dir base d : List Char} {slashes : Nat} {r : List String}
  (h : Divided path dir slashes base)
include h

/-- A path has the root of its directory. -/
theorem Divided.rootOf_eq : Path.rootOf path = Path.rootOf dir := by
  rw [h.path_eq, rootOf_append (exists_ne_slash h.dir_ne h.last_ne)]

/-- It is split like its directory, and then into its name. -/
theorem Divided.splitAtChar_eq :
    splitAtChar '/' path = splitAtChar '/' dir ++ (List.replicate slashes [] ++ [base]) := by
  rw [h.path_eq, splitAtChar_append_cons, splitAtChar_slashes slashes h.slash_not_mem]

/-- Its parts are those of its directory and its name. -/
theorem Divided.parts_eq : Path.parts path = Path.parts dir ++ Path.parts base := by
  rw [h.path_eq, parts_append_slash, parts_slashes]

/-- Its directory is shorter. -/
theorem Divided.length_dir_lt : dir.length < path.length := by
  rw [h.path_eq]
  simp

/-- Without a base there would be a slash at the end. -/
theorem Divided.base_ne (hlast : path.getLast? ≠ some '/') : base ≠ [] := by
  rintro rfl
  apply hlast
  rw [h.path_eq, List.append_nil, ← List.replicate_succ, List.replicate_succ',
    ← List.append_assoc, List.getLast?_concat]

/-- A path that leads somewhere goes through its directory. -/
theorem Divided.exists_locate (hbase : base ≠ []) (hr : t.locate path = .ok r) :
    ∃ q, t.locate dir = .ok q ∧ t.root.step q base = .ok r := by
  obtain ⟨husable, hwalk⟩ := Tree.locate_eq_ok_iff.1 hr
  rw [h.splitAtChar_eq, Node.walk_append, start_eq_of_root h.rootOf_eq] at hwalk
  obtain ⟨q, hdir, hwalk⟩ := exists_of_bind_eq_ok hwalk
  have hfront : dir.Sublist path := h.path_eq ▸ List.sublist_append_left dir _
  refine ⟨q, Tree.locate_eq_ok_iff.2 ⟨husable.sublist h.dir_ne hfront, hdir⟩, ?_⟩
  -- The empty components between the slashes are passed over.
  have hfilter : t.root.walk q ((List.replicate slashes [] ++ [base]).filter (· ≠ [])) = .ok r :=
    Node.walk_filter (fun part hpart => .inl (by simpa using hpart)) hwalk
  rw [List.filter_append, List.filter_eq_nil_iff.2 (by simp), List.nil_append,
    List.filter_cons_of_pos (by simpa using hbase), List.filter_nil,
    Node.walk_singleton] at hfilter
  exact hfilter

/-- The directory can be spelled otherwise. -/
theorem Divided.respells (hbase : base ≠ []) (hr : t.locate path = .ok r)
    (hd : Respells t d dir) : Respells t (d ++ '/' :: base) path := by
  obtain ⟨q, hq, hstep⟩ := h.exists_locate hbase hr
  obtain ⟨husable, -⟩ := Tree.locate_eq_ok_iff.1 hr
  obtain ⟨hdusable, hdwalk⟩ := Tree.locate_eq_ok_iff.1 (hd.locate_eq.trans hq)
  have hdne := exists_ne_slash hdusable.ne_nil hd.last_ne
  have hsub : ('/' :: base).Sublist ('/' :: (List.replicate slashes '/' ++ base)) :=
    (List.sublist_append_right _ base).cons_cons '/'
  have hle : (encodeUtf8 (d ++ '/' :: base)).length ≤ (encodeUtf8 path).length := by
    rw [h.path_eq, length_encodeUtf8_append, length_encodeUtf8_append]
    exact Nat.add_le_add hd.length_le (length_encodeUtf8_le hsub)
  -- The respelling is no longer than the path itself, so it is not refused for its length.
  refine ⟨?_, ?_, ?_, ?_, hle⟩
  · rw [rootOf_append hdne, hd.root_eq, h.rootOf_eq]
  · rw [← List.singleton_append, ← List.append_assoc]
    exact getLast?_append_base_ne _ hbase h.slash_not_mem
  · rw [hr, Tree.locate_eq_ok_iff]
    refine ⟨⟨by simp, ?_, lt_of_le_of_lt hle husable.length_lt⟩, ?_⟩
    · have hnull := husable.null_not_mem
      rw [h.path_eq] at hnull
      simp only [List.mem_append, List.mem_cons, not_or] at hnull ⊢
      exact ⟨hdusable.null_not_mem, hnull.2.1, hnull.2.2.2⟩
    · rw [splitAtChar_append_cons, splitAtChar_of_not_mem h.slash_not_mem, Node.walk_append,
        Tree.start_append hdusable.ne_nil, hdwalk]
      exact (Node.walk_singleton t.root q base).trans hstep
  · rw [h.parts_eq, parts_append_slash, hd.parts_eq]

end Divided

/-- A path is divided behind its last slash; the slashes at the end of its front are dropped, unless
    the front is made of slashes. -/
theorem splitPath_eq {path front base : List Char} (hfront : path.rdropWhile (· != '/') = front)
    (hbase : path.rtakeWhile (· != '/') = base) : splitPath path =
      (if (front.rdropWhile (· == '/')).isEmpty then front else front.rdropWhile (· == '/'),
        base) := by
  have hpath : path = front ++ base := by
    rw [← hfront, ← hbase]
    exact List.rdropWhile_append_rtakeWhile.symm
  have htake : path.take (path.length - base.length) = front := by
    rw [hpath, List.length_append, Nat.add_sub_cancel, List.take_left]
  have hunfold : (path.reverse.takeWhile (· != '/')).reverse = base := hbase
  rw [splitPath, hunfold, htake]
  rfl

/-- What ends in slashes is some text with slashes behind it. -/
theorem exists_slashes {front : List Char} (hne : front ≠ []) (hlast : front.getLast hne = '/') :
    ∃ dir slashes, front.rdropWhile (· == '/') = dir ∧
      front = dir ++ List.replicate (slashes + 1) '/' ∧ dir.getLast? ≠ some '/' := by
  have hall : ∀ c ∈ front.rtakeWhile (· == '/'), c = '/' := fun c hc => by
    simpa using List.mem_rtakeWhile_imp hc
  have htaken : front.rtakeWhile (· == '/') ≠ [] := by
    rw [ne_eq, List.rtakeWhile_eq_nil_iff]
    exact fun hnone => hnone hne (by simpa using hlast)
  refine ⟨_, (front.rtakeWhile (· == '/')).length - 1, rfl, ?_, fun hslash => ?_⟩
  · rw [Nat.sub_add_cancel (List.length_pos_of_ne_nil htaken), ← List.eq_replicate_of_mem hall]
    exact List.rdropWhile_append_rtakeWhile.symm
  · have hdropped : front.rdropWhile (· == '/') ≠ [] := fun hnil => by simp [hnil] at hslash
    have hend := List.rdropWhile_last_not (· == '/') front hdropped
    rw [List.getLast?_eq_some_getLast hdropped, Option.some.injEq] at hslash
    simp [hslash] at hend

/-- A path is a single component, one behind slashes, or it is divided. -/
theorem splitPath_cases (path : List Char) :
    splitPath path = ([], path) ∧ '/' ∉ path ∨
      (∃ slashes base, splitPath path = (List.replicate (slashes + 1) '/', base) ∧
        path = List.replicate (slashes + 1) '/' ++ base ∧ '/' ∉ base) ∨
      ∃ dir slashes base, splitPath path = (dir, base) ∧ Divided path dir slashes base := by
  obtain ⟨front, hfront⟩ : ∃ front, path.rdropWhile (· != '/') = front := ⟨_, rfl⟩
  obtain ⟨base, hbase⟩ : ∃ base, path.rtakeWhile (· != '/') = base := ⟨_, rfl⟩
  have hsplit := splitPath_eq hfront hbase
  have hpath : path = front ++ base := by
    rw [← hfront, ← hbase]
    exact List.rdropWhile_append_rtakeWhile.symm
  have hslash : '/' ∉ base := by
    intro hmem
    rw [← hbase] at hmem
    simpa using List.mem_rtakeWhile_imp hmem
  by_cases hempty : front = []
  · subst hempty
    rw [List.nil_append] at hpath
    exact .inl ⟨hpath ▸ hsplit, hpath ▸ hslash⟩
  · -- The front ends in slashes, and may consist of them.
    have hlast : front.getLast hempty = '/' := by
      have hend := List.rdropWhile_last_not (· != '/') path (by rwa [hfront])
      simp only [hfront] at hend
      simpa using hend
    obtain ⟨dir, slashes, hdir, htail, hdir_last⟩ := exists_slashes hempty hlast
    rw [hdir] at hsplit
    by_cases hnil : dir = []
    · subst hnil
      rw [List.nil_append] at htail
      rw [List.isEmpty_nil, if_pos rfl, htail] at hsplit
      exact .inr (.inl ⟨slashes, base, hsplit, htail ▸ hpath, hslash⟩)
    · refine .inr (.inr ⟨dir, slashes, base, ?_, ?_, hnil, hdir_last, hslash⟩)
      · rw [hsplit, if_neg (by simpa using hnil)]
      · rw [hpath, htail, List.replicate_succ, List.append_assoc, List.cons_append]

/-! ### Paths as they are shown -/

/-- In front of other parts, a part is joined to them by a slash. -/
theorem joinParts_cons {p : List Char} {ps : List (List Char)} (h : ps ≠ []) :
    Path.joinParts (p :: ps) = p ++ '/' :: Path.joinParts ps := by
  cases ps with
  | nil => exact absurd rfl h
  | cons q ps => rfl

/-- Fewer parts make a shorter path. -/
theorem joinParts_sublist {ps qs : List (List Char)} (h : ps.Sublist qs) :
    (Path.joinParts ps).Sublist (Path.joinParts qs) := by
  induction h with
  | slnil => exact List.Sublist.refl _
  | @cons ps qs q h ih =>
    -- The first component is left out, and the slash behind it.
    by_cases hqs : qs = []
    · subst hqs
      rw [List.sublist_nil.1 h]
      exact List.nil_sublist _
    · rw [joinParts_cons hqs]
      exact (ih.cons '/').trans (List.sublist_append_right q _)
  | @cons_cons ps qs p h ih =>
    by_cases hps : ps = []
    · subst hps
      by_cases hqs : qs = []
      · rw [hqs]
      · rw [joinParts_cons hqs]
        exact List.sublist_append_left p _
    · have hqs : qs ≠ [] := fun hnil => hps (List.sublist_nil.1 (hnil ▸ h))
      rw [joinParts_cons hps, joinParts_cons hqs]
      exact (ih.cons_cons '/').append_left p

/-- A path is what its parts make. -/
theorem joinParts_splitAtChar (s : List Char) : Path.joinParts (splitAtChar '/' s) = s := by
  rw [Path.joinParts_eq_intercalate, splitAtChar_eq_splitOn]
  exact List.intercalate_splitOn '/'

/-- A part is in its path. -/
theorem sublist_of_mem_parts {s part : List Char} (h : part ∈ Path.parts s) : part.Sublist s := by
  have hjoined := joinParts_sublist (List.singleton_sublist.2 (List.mem_filter.1 h).1)
  rwa [joinParts_splitAtChar] at hjoined

/-- The components that are kept of a path are found in it, in their order. -/
theorem joinParts_parts_sublist (path : List Char) :
    (Path.joinParts (Path.parts path)).Sublist path := by
  have hjoined := joinParts_sublist (List.filter_sublist (l := splitAtChar '/' path)
    (p := fun p => p != [] && p != ['.']))
  rwa [joinParts_splitAtChar] at hjoined

/-- The text of a root and components splits into slashes and the components. -/
theorem splitAtChar_root {root : Path.Root} {ps : List (List Char)}
    (h : ∀ p ∈ ps, Path.IsPart p) (hps : ps ≠ []) :
    splitAtChar '/' (root.text ++ Path.joinParts ps) =
      List.replicate root.text.length [] ++ ps := by
  have hsplit : splitAtChar '/' (Path.joinParts ps) = ps := by
    rw [splitAtChar_eq_splitOn, Path.joinParts_eq_intercalate]
    exact List.splitOn_intercalate '/' (fun part hpart => (h part hpart).slash_not_mem) hps
  cases root
  · exact hsplit
  · show splitAtChar '/' ('/' :: Path.joinParts ps) = _
    rw [splitAtChar, if_pos rfl, hsplit]
    rfl
  · show splitAtChar '/' ('/' :: '/' :: Path.joinParts ps) = _
    rw [splitAtChar, if_pos rfl, splitAtChar, if_pos rfl, hsplit]
    rfl

/-- The first component of a relative path is not empty. -/
theorem ne_nil_of_splitAtChar {path part : List Char} {rest : List (List Char)}
    (hne : path ≠ []) (hhead : path.head? ≠ some '/')
    (h : splitAtChar '/' path = part :: rest) : part ≠ [] := by
  rintro rfl
  have hjoined := joinParts_splitAtChar path
  rw [h] at hjoined
  cases rest with
  | nil => exact hne hjoined.symm
  | cons p ps =>
    rw [joinParts_cons (List.cons_ne_nil p ps)] at hjoined
    exact hhead (hjoined ▸ rfl)

/-- **The components that are kept.**  A path that leads somewhere leads there along its root and
    the components that are kept. -/
theorem locate_build {t : Tree} {path : List Char} {q : List String}
    (h : t.locate path = .ok q) :
    t.locate (Path.build (Path.rootOf path) (Path.parts path)) = .ok q := by
  obtain ⟨husable, hwalk⟩ := Tree.locate_eq_ok_iff.1 h
  have hkept : t.root.walk (t.start path) (Path.parts path) = .ok q := by
    refine Node.walk_filter (fun part hpart => ?_) hwalk
    simpa [or_iff_not_imp_left] using hpart
  have hisPart (part : List Char) (hpart : part ∈ Path.parts path) : Path.IsPart part :=
    Path.isPart_of_mem_parts hpart
  have hstart := start_eq_of_root (t := t) (Path.rootOf_build hisPart (Path.rootOf path))
  rw [Tree.locate_eq_ok_iff, hstart]
  obtain ⟨part, rest, hsplit⟩ := List.exists_cons_of_ne_nil (Tree.splitAtChar_ne_nil path)
  rw [hsplit, Node.walk_cons] at hwalk
  obtain ⟨next, hstep, -⟩ := exists_of_bind_eq_ok hwalk
  rcases Path.build_cases hisPart (Path.rootOf path) with htext | ⟨hrelative, hparts, hdot⟩
  · -- The text is no longer than the path.
    have hsub : ((Path.rootOf path).text ++ Path.joinParts (Path.parts path)).Sublist path := by
      obtain ⟨tail, htail⟩ := rootText_prefix path
      have htailparts : Path.parts path = Path.parts tail := by
        conv_lhs => rw [← htail]
        exact Path.parts_root _ tail
      conv_rhs => rw [← htail]
      rw [htailparts]
      exact (joinParts_parts_sublist tail).append_left _
    refine ⟨htext ▸ husable.sublist (htext ▸ Path.build_ne_nil _ _) hsub, ?_⟩
    rw [htext]
    by_cases hparts : Path.parts path = []
    · -- Nothing but slashes is left.
      rw [hparts] at hkept ⊢
      cases hkept
      have hslashes : splitAtChar '/' ((Path.rootOf path).text ++ Path.joinParts []) =
          List.replicate (Path.rootOf path).text.length [] ++ [[]] := by
        cases hroot : Path.rootOf path <;> rfl
      rw [hslashes, Node.walk_slashes (Node.step_nil hstep), Node.walk_singleton]
      exact Node.step_nil hstep
    · rw [splitAtChar_root hisPart hparts, Node.walk_slashes (Node.step_nil hstep)]
      exact hkept
  · -- The text is a dot.  The first step was made to a dot, too.
    rw [hparts] at hkept
    cases hkept
    rw [hdot]
    refine ⟨⟨by decide, by decide, by decide⟩, ?_⟩
    exact (Node.walk_singleton t.root _ _).trans (Node.step_dot (ne_nil_of_splitAtChar husable.ne_nil
      (rootOf_eq_relative_iff_head.1 hrelative) hsplit) hstep)

/-- **Shown paths.**  A path leads to what its shown form leads to. -/
theorem nodeAt_display {t : Tree} {path : String} {n : Node}
    (h : t.nodeAt path.toList = .ok n) : t.nodeAt (Path.display path).toList = .ok n := by
  obtain ⟨q, hq, hn⟩ := Tree.nodeAt_eq_ok_iff.1 h
  rw [Path.display, String.toList_ofList]
  exact Tree.nodeAt_eq_ok_iff.2 ⟨q, locate_build hq, hn⟩

end LineCensus.Files
