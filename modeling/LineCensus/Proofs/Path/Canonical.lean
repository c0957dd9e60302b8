import LineCensus.Proofs.Path
import LineCensus.Proofs.Text.Search
import Mathlib.Data.List.Induction

namespace LineCensus.Path

open Text

/-!
# Normal forms of paths

What a path means is known from where it leads: it is walked component by component, from any stack
of directories if it is relative, and from the root otherwise.

* `leadingSlashes`, `SameRoot` — the three kinds of roots.
* `walk` — the stack of directories to which a path leads.
* `Resolved` — the invariant of resolving parents: the components so far go up some levels and then
  down along some names.
* `Resolved.push`, `exists_resolved` — one component, and all of them.
* `parts_build`, `rootOf_build` — the text of a path shows its root and its components.
* `normalize_canonical` — normal forms are stable, and they are equal for paths that lead to the same
  place from everywhere, and for no others.
-/

/-- The number of slashes with which a path begins. -/
def leadingSlashes (s : List Char) : Nat := (s.takeWhile (· == '/')).length

/-- Two paths have no root, or the root of exactly two slashes, or the common one. -/
def SameRoot (s t : List Char) : Prop :=
  (leadingSlashes s = 0 ↔ leadingSlashes t = 0) ∧ (leadingSlashes s = 2 ↔ leadingSlashes t = 2)

/-- A component that is kept. -/
structure IsPart (part : List Char) : Prop where
  ne_nil : part ≠ []
  ne_dot : part ≠ ['.']
  slash_not_mem : '/' ∉ part

/-- The name of a directory: a component that does not stand for a parent. -/
structure IsName (name : List Char) : Prop extends IsPart name where
  ne_dots : name ≠ ['.', '.']

/-- One component of a walk, from a stack of directories with the innermost one first. -/
def enter (stack : List (List Char)) (part : List Char) : List (List Char) :=
  if part = [] ∨ part = ['.'] then stack
  else if part = ['.', '.'] then stack.tail
  else part :: stack

/-- The stack of directories to which a path leads from `stack`. -/
def walk (s : List Char) (stack : List (List Char)) : List (List Char) :=
  (s.splitOn '/').foldl enter stack

/-! ### Roots -/

/-- The root depends on the number of slashes in front: none, two, or another number. -/
theorem rootOf_eq (s : List Char) : rootOf s =
    if leadingSlashes s = 0 then .relative
    else if leadingSlashes s = 2 then .doubleSlash else .slash := by
  rw [rootOf, leadingSlashes]
  rcases s.takeWhile (· == '/') with _ | ⟨a, _ | ⟨b, _ | ⟨c, slashes⟩⟩⟩ <;> simp

/-- A path is relative if no slash leads it. -/
theorem rootOf_eq_relative_iff {s : List Char} : rootOf s = .relative ↔ leadingSlashes s = 0 := by
  rw [rootOf_eq]
  split_ifs with hnone <;> simp [hnone]

/-- Paths with the same kind of root. -/
theorem rootOf_eq_iff {s t : List Char} : rootOf s = rootOf t ↔ SameRoot s t := by
  rw [rootOf_eq, rootOf_eq, SameRoot]
  split_ifs <;> simp <;> omega

/-! ### Components -/

/-- Two dots are a part. -/
theorem isPart_dots : IsPart ['.', '.'] := ⟨by decide, by decide, by decide⟩

/-- So is each part of a path. -/
theorem isPart_of_mem_parts {s part : List Char} (h : part ∈ parts s) : IsPart part := by
  have hkept := (List.mem_filter.1 h).2
  simp only [Bool.and_eq_true, bne_iff_ne, ne_eq] at hkept
  exact ⟨hkept.1, hkept.2, slash_not_mem_of_mem_parts h⟩

/-- A walk passes over the components that are left out. -/
theorem walk_eq_foldl_parts (s : List Char) (stack : List (List Char)) :
    walk s stack = (parts s).foldl enter stack := by
  rw [walk, parts, splitAtChar_eq_splitOn, List.foldl_filter]
  congr 1
  funext stack part
  by_cases h : part = [] ∨ part = ['.']
  · rcases h with rfl | rfl <;> simp [enter]
  · rw [not_or] at h
    simp [h.1, h.2]

/-! ### Texts of paths -/

/-- Parts are joined with slashes between them. -/
theorem joinParts_eq_intercalate (ps : List (List Char)) :
    joinParts ps = ['/'].intercalate ps := by
  fun_induction joinParts ps with
  | case1 => simp
  | case2 p => simp
  | case3 p ps hne ih =>
    cases ps with
    | nil => exact absurd rfl hne
    | cons q ps =>
      rw [ih]
      simp [List.intercalate_cons_cons]

/-- A slash in front adds no component. -/
theorem parts_slash (s : List Char) : parts ('/' :: s) = parts s := by
  simp [parts, splitAtChar]

/-- A root has no parts. -/
theorem parts_root (root : Root) (s : List Char) : parts (root.text ++ s) = parts s := by
  cases root with
  | relative => rfl
  | slash => exact parts_slash s
  | doubleSlash => exact (parts_slash _).trans (parts_slash s)

section Build

variable {ps : List (List Char)} (h : ∀ p ∈ ps, IsPart p)
include h

/-- Joined parts are split again. -/
theorem parts_joinParts : parts (joinParts ps) = ps := by
  cases hps : ps with
  | nil => decide
  | cons p rest =>
    have hne : ps ≠ [] := by simp [hps]
    have hsplit : splitAtChar '/' (joinParts ps) = ps := by
      rw [splitAtChar_eq_splitOn, joinParts_eq_intercalate]
      exact List.splitOn_intercalate '/' (fun q hq => (h q hq).slash_not_mem) hne
    rw [← hps, parts, hsplit, List.filter_eq_self]
    intro q hq
    simp [(h q hq).ne_nil, (h q hq).ne_dot]

/-- No slash stands in front of the first component. -/
theorem takeWhile_joinParts : (joinParts ps).takeWhile (· == '/') = [] := by
  cases ps with
  | nil => rfl
  | cons p rest =>
    have hp := h p List.mem_cons_self
    obtain ⟨c, p', rfl⟩ := List.exists_cons_of_ne_nil hp.ne_nil
    have hc : c ≠ '/' := fun heq => hp.slash_not_mem (heq ▸ List.mem_cons_self)
    rw [joinParts_eq_intercalate]
    cases rest <;> simp [List.intercalate_cons_cons, hc]

/-- The text is the root and the components, or the dot if there is nothing else to write. -/
theorem build_cases (root : Root) :
    build root ps = root.text ++ joinParts ps ∨
      root = .relative ∧ ps = [] ∧ build root ps = ['.'] := by
  rw [build]
  split
  · rename_i hempty
    rw [List.append_eq_nil_iff] at hempty
    have hps : ps = [] := by
      rw [← parts_joinParts h, hempty.2]
      decide
    have hroot : root = .relative := by
      cases root with
      | relative => rfl
      | slash => cases hempty.1
      | doubleSlash => cases hempty.1
    exact .inr ⟨hroot, hps, rfl⟩
  · exact .inl rfl

/-- **Components are shown.**  The text of a path has the components that it was made of. -/
theorem parts_build (root : Root) : parts (build root ps) = ps := by
  rcases build_cases h root with htext | ⟨-, rfl, hdot⟩
  · rw [htext, parts_root, parts_joinParts h]
  · rw [hdot]
    decide

/-- **Roots are shown.**  The text of a path has the root that it was made of. -/
theorem rootOf_build (root : Root) : rootOf (build root ps) = root := by
  rcases build_cases h root with htext | ⟨rfl, rfl, hdot⟩
  · have hslashes : (root.text ++ joinParts ps).takeWhile (· == '/') = root.text := by
      cases root <;> simp [Root.text, takeWhile_joinParts h]
    rw [htext, rootOf, hslashes]
    cases root <;> rfl
  · rw [hdot]
    decide

end Build

/-! ### Resolving parents -/

/-- The components so far, nearest first, go up `up` levels and then down along `names`; from a root
    there is no way up. -/
structure Resolved (root : Root) (trail : List (List Char)) (up : Nat)
    (names : List (List Char)) : Prop where
  trail_eq : trail = names ++ List.replicate up ['.', '.']
  isName : ∀ name ∈ names, IsName name
  rooted : root ≠ .relative → up = 0

/-- **One component.**  The invariant is kept, and the new way leads to where the component leads
    from the end of the old one. -/
theorem Resolved.push {root : Root} {trail names : List (List Char)} {up : Nat}
    (h : Resolved root trail up names) {part : List Char} (hpart : IsPart part) :
    ∃ up' names', Resolved root (pushPart root trail part) up' names' ∧
      ∀ stack, (root ≠ .relative → stack = []) →
        names' ++ stack.drop up' = enter (names ++ stack.drop up) part := by
  obtain ⟨rfl, hnames, hrooted⟩ := h
  have hkept : ¬(part = [] ∨ part = ['.']) := not_or.2 ⟨hpart.ne_nil, hpart.ne_dot⟩
  by_cases hdots : part = ['.', '.']
  · cases names with
    | cons name names =>
      -- The parent takes back the last step down.
      rw [List.forall_mem_cons] at hnames
      refine ⟨up, names, ⟨?_, hnames.2, hrooted⟩, fun stack _ => ?_⟩
      · simp [pushPart, hdots, hnames.1.ne_dots]
      · simp [enter, hdots]
    | nil =>
      by_cases hroot : root = .relative
      · -- The parent goes up one level more.
        refine ⟨up + 1, [], ⟨?_, List.forall_mem_nil _,
          fun hne => absurd hroot hne⟩, fun stack _ => ?_⟩
        · cases up <;> simp [pushPart, hdots, hroot, List.replicate_succ]
        · simp [enter, hdots]
      · -- The parent of the root is the root.
        obtain rfl := hrooted hroot
        refine ⟨0, [], ⟨?_, List.forall_mem_nil _, fun _ => rfl⟩,
          fun stack hstack => ?_⟩
        · simp [pushPart, hdots, hroot]
        · simp [enter, hdots, hstack hroot]
  · -- A name goes down one level more.
    have hname : IsName part := ⟨hpart, hdots⟩
    refine ⟨up, part :: names, ⟨?_, List.forall_mem_cons.2 ⟨hname, hnames⟩, hrooted⟩,
      fun stack _ => ?_⟩
    · simp [pushPart, hdots]
    · simp [enter, hdots, hkept]

/-- **All components.**  They are resolved to a way up and then down, which leads to where the
    components lead one by one. -/
theorem exists_resolved (root : Root) {ps : List (List Char)} (h : ∀ p ∈ ps, IsPart p) :
    ∃ up names, Resolved root (ps.foldl (pushPart root) []) up names ∧
      ∀ stack, (root ≠ .relative → stack = []) →
        names ++ stack.drop up = ps.foldl enter stack := by
  -- Induction from the end, for the last component is pushed last.
  induction ps using List.reverseRecOn with
  | nil => exact ⟨0, [], ⟨rfl, List.forall_mem_nil _, fun _ => rfl⟩,
      fun stack _ => rfl⟩
  | append_singleton ps part ih =>
    simp only [List.mem_append, List.mem_singleton, or_imp, forall_and, forall_eq] at h
    obtain ⟨up, names, hresolved, hwalk⟩ := ih h.1
    obtain ⟨up', names', hresolved', hstep⟩ := hresolved.push h.2
    refine ⟨up', names', ?_, fun stack hstack => ?_⟩
    · rwa [List.foldl_append]
    · rw [hstep stack hstack, hwalk stack hstack, List.foldl_append]
      rfl

/-- Parents go up, at most as far as the stack goes. -/
theorem foldl_enter_dots (up : Nat) (stack : List (List Char)) :
    (List.replicate up ['.', '.']).foldl enter stack = stack.drop up := by
  induction up generalizing stack with
  | zero => rfl
  | succ up ih =>
    rw [List.replicate_succ, List.foldl_cons, ih]
    simp [enter]

/-- Names go down. -/
theorem foldl_enter_names {names : List (List Char)} (h : ∀ name ∈ names, IsName name)
    (stack : List (List Char)) : names.reverse.foldl enter stack = names ++ stack := by
  induction names with
  | nil => rfl
  | cons name names ih =>
    rw [List.forall_mem_cons] at h
    rw [List.reverse_cons, List.foldl_append, ih h.2]
    simp [enter, h.1.ne_nil, h.1.ne_dot, h.1.ne_dots]

section Resolved

variable {root : Root} {trail names : List (List Char)} {up : Nat}
  (h : Resolved root trail up names)
include h

/-- What is left of the components can be kept. -/
theorem Resolved.isPart {part : List Char} (hpart : part ∈ trail.reverse) : IsPart part := by
  rw [List.mem_reverse, h.trail_eq, List.mem_append] at hpart
  rcases hpart with hname | hdots
  · exact (h.isName part hname).toIsPart
  · rw [List.eq_of_mem_replicate hdots]
    exact isPart_dots

/-- The way up and then down, walked from a stack. -/
theorem Resolved.foldl_enter (stack : List (List Char)) :
    trail.reverse.foldl enter stack = names ++ stack.drop up := by
  rw [h.trail_eq, List.reverse_append, List.reverse_replicate, List.foldl_append,
    foldl_enter_dots, foldl_enter_names h.isName]

end Resolved

/-- From enough levels down, and from the top, one sees how far up a way leads and where it goes
    from there. -/
theorem eq_of_forall_stack {names names' : List (List Char)} {up up' : Nat}
    (h : ∀ stack : List (List Char), (∀ name ∈ stack, IsName name) →
      names ++ stack.drop up = names' ++ stack.drop up') : up = up' ∧ names = names' := by
  have hnames : names = names' := by
    have htop := h [] (List.forall_mem_nil _)
    simpa using htop
  have hname : IsName ['a'] := ⟨⟨by decide, by decide, by decide⟩, by decide⟩
  have hdeep := h (List.replicate (up + up') ['a']) fun name hmem =>
    List.eq_of_mem_replicate hmem ▸ hname
  rw [hnames, List.append_cancel_left_eq] at hdeep
  have hlength := congrArg List.length hdeep
  simp only [List.length_drop, List.length_replicate] at hlength
  exact ⟨by omega, hnames⟩

/-! ### Normal forms -/

/-- The normal form of a path has its root. -/
theorem rootOf_normal (s : List Char) : rootOf (normal s) = rootOf s := by
  obtain ⟨up, names, hresolved, -⟩ :=
    exists_resolved (rootOf s) fun p hp => isPart_of_mem_parts (s := s) hp
  exact rootOf_build (fun _ hpart => hresolved.isPart hpart) _

/-- **Normal forms mean the same.**  The normal form of a path leads to where the path leads. -/
theorem walk_normal {s : List Char} {stack : List (List Char)}
    (hstack : rootOf s ≠ .relative → stack = []) : walk (normal s) stack = walk s stack := by
  obtain ⟨up, names, hresolved, hwalk⟩ :=
    exists_resolved (rootOf s) fun p hp => isPart_of_mem_parts (s := s) hp
  have hparts : parts (normal s) = resolveParts (rootOf s) (parts s) :=
    parts_build (fun _ hpart => hresolved.isPart hpart) _
  rw [walk_eq_foldl_parts, walk_eq_foldl_parts, hparts, resolveParts, hresolved.foldl_enter,
    hwalk stack hstack]

/-- **Equal normal forms.**  Paths have one normal form if they have the same root and lead to the
    same place from everywhere. -/
theorem normal_eq_of_walk_eq {s t : List Char} (hroot : rootOf s = rootOf t)
    (h : ∀ stack, (∀ name ∈ stack, IsName name) → (rootOf s ≠ .relative → stack = []) →
      walk s stack = walk t stack) : normal s = normal t := by
  obtain ⟨up, names, hs, hwalks⟩ :=
    exists_resolved (rootOf s) fun p hp => isPart_of_mem_parts (s := s) hp
  obtain ⟨up', names', ht, hwalkt⟩ :=
    exists_resolved (rootOf s) fun p hp => isPart_of_mem_parts (s := t) hp
  have hland (stack : List (List Char)) (hnames : ∀ name ∈ stack, IsName name)
      (hstack : rootOf s ≠ .relative → stack = []) :
      names ++ stack.drop up = names' ++ stack.drop up' := by
    have heq := h stack hnames hstack
    rwa [walk_eq_foldl_parts, walk_eq_foldl_parts, ← hwalks stack hstack,
      ← hwalkt stack hstack] at heq
  have hsame : up = up' ∧ names = names' := by
    by_cases hrelative : rootOf s = .relative
    · apply eq_of_forall_stack
      intro stack hnames
      exact hland stack hnames fun hne => absurd hrelative hne
    · -- From the root there is one place to start, and no way up.
      have htop := hland [] (List.forall_mem_nil _) fun _ => rfl
      refine ⟨(hs.rooted hrelative).trans (ht.rooted hrelative).symm, ?_⟩
      simpa using htop
  rw [normal, normal, resolveParts, resolveParts, ← hroot, hs.trail_eq, ht.trail_eq, hsame.1,
    hsame.2]

/-- **Normal paths.**  A normal path is normal. -/
theorem normal_idem (s : List Char) : normal (normal s) = normal s := by
  apply normal_eq_of_walk_eq (rootOf_normal s)
  intro stack _ hstack
  rw [rootOf_normal] at hstack
  exact walk_normal hstack

/-- So it is with strings. -/
theorem normalize_idem (path : String) : normalize (normalize path) = normalize path := by
  rw [normalize, normalize, String.toList_ofList, normal_idem]

/-- **Canonical forms.**  The normal form of a path is its own normal form.  Two paths have one
    normal form exactly if they have the same kind of root and lead to the same stack of directories
    from every stack, or from the empty one if they have a root. -/
theorem normalize_canonical (p q : String) :
    normalize (normalize p) = normalize p ∧
    (normalize p = normalize q ↔ SameRoot p.toList q.toList ∧
      ∀ stack, (∀ name ∈ stack, IsName name) → (leadingSlashes p.toList ≠ 0 → stack = []) →
        walk p.toList stack = walk q.toList stack) := by
  have hnormal : normalize p = normalize q ↔ normal p.toList = normal q.toList := by
    rw [normalize, normalize, String.ofList_inj]
  rw [hnormal, ← rootOf_eq_iff]
  simp only [ne_eq, ← rootOf_eq_relative_iff]
  refine ⟨?_, fun h => ?_, fun h => normal_eq_of_walk_eq h.1 h.2⟩
  · rw [normalize, normalize, String.toList_ofList, normal_idem]
  · have hroot : rootOf p.toList = rootOf q.toList := by
      rw [← rootOf_normal, h, rootOf_normal]
    refine ⟨hroot, fun stack _ hstack => ?_⟩
    rw [← walk_normal hstack, h]
    exact walk_normal (hroot ▸ hstack)

example : normalize "..//a/../../b/." = "../../b" := by decide

end LineCensus.Path
