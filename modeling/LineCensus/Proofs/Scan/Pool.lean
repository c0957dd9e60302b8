import LineCensus.Proofs.Scan.Shares
import LineCensus.Language.Builtin
import Mathlib.Logic.Relation

namespace LineCensus.Scan

open Text

/-!
# Workers in any order

The shares of a request are tasks of a pool of workers.  Here a task does one path at a time, and
which task comes next is left open, so that every order and every interleaving is among the runs:

* `Task`, `Turn` — a task under way, and one turn of one task of the pool.
* `turns_finish` — turns do not change what the tasks will have come to in the end.
* `exists_turns_done` — whatever has been done so far, the pool can be brought to its end.
* `Request.Yields` — the results that a request can have, over all runs of its pool.
* `yields_of_same_paths` — there is only one, and requests with the same normalized paths have the
  same one.
-/

/-- A task of the pool: the paths of its share that are still to be done, and what those before them
    have come to. -/
structure Task where
  rest : List String
  buffer : Buffer := {}

/-- What a task will have come to in the end. -/
def Task.finish (outcome : String → Outcome) (t : Task) : Buffer :=
  t.rest.foldl (fun b p => b.add (outcome p)) t.buffer

/-- One task of the pool does its next path; all others stand still.  Fewer workers than tasks only
    leave fewer turns to choose from. -/
inductive Turn (outcome : String → Outcome) : List Task → List Task → Prop where
  | next (front : List Task) (p : String) (rest : List String) (b : Buffer) (back : List Task) :
      Turn outcome (front ++ ⟨p :: rest, b⟩ :: back)
        (front ++ ⟨rest, b.add (outcome p)⟩ :: back)

/-- Any number of turns. -/
abbrev Turns (outcome : String → Outcome) : List Task → List Task → Prop :=
  Relation.ReflTransGen (Turn outcome)

/-- No task has anything left to do. -/
def AllDone (tasks : List Task) : Prop := ∀ t ∈ tasks, t.rest = []

variable {outcome : String → Outcome} {tasks tasks' : List Task}

/-! ### What turns preserve -/

/-- A turn does not change what the tasks will have come to. -/
theorem turn_finish (h : Turn outcome tasks tasks') :
    tasks'.map (Task.finish outcome) = tasks.map (Task.finish outcome) := by
  obtain ⟨front, p, rest, b, back⟩ := h
  simp only [List.map_append, List.map_cons, Task.finish, List.foldl_cons]

/-- Turns do not change what the tasks will have come to. -/
theorem turns_finish (h : Turns outcome tasks tasks') :
    tasks'.map (Task.finish outcome) = tasks.map (Task.finish outcome) := by
  induction h with
  | refl => rfl
  | tail _ hturn ih => rw [turn_finish hturn, ih]

/-- A task that is done has come to what its buffer holds. -/
theorem map_finish_of_done (h : AllDone tasks) :
    tasks.map (Task.finish outcome) = tasks.map (·.buffer) := by
  apply List.map_congr_left
  intro t ht
  rw [Task.finish, h t ht, List.foldl_nil]

/-! ### Every run can be brought to its end -/

/-- The number of paths that are still to be done. -/
def remaining (tasks : List Task) : Nat := (tasks.flatMap (·.rest)).length

/-- A turn does one path. -/
theorem turn_remaining (h : Turn outcome tasks tasks') : remaining tasks = remaining tasks' + 1 := by
  obtain ⟨front, p, rest, b, back⟩ := h
  simp only [remaining, List.flatMap_append, List.flatMap_cons, List.length_append,
    List.length_cons]
  omega

/-- While some task has a path left, there is a turn to take. -/
theorem exists_turn (outcome : String → Outcome) (h : ¬ AllDone tasks) : ∃ tasks', Turn outcome tasks tasks' := by
  simp only [AllDone, not_forall] at h
  obtain ⟨⟨rest, b⟩, hmem, hrest⟩ := h
  obtain ⟨front, back, rfl⟩ := List.append_of_mem hmem
  cases rest with
  | nil => exact absurd rfl hrest
  | cons p rest => exact ⟨_, .next front p rest b back⟩

/-- Whatever has been done so far, the pool can be brought to its end. -/
theorem exists_turns_done (outcome : String → Outcome) (tasks : List Task) :
    ∃ tasks', Turns outcome tasks tasks' ∧ AllDone tasks' := by
  -- Every turn leaves fewer paths, so the induction is on their number.
  induction h : remaining tasks generalizing tasks with
  | zero =>
    refine ⟨tasks, .refl, ?_⟩
    by_contra hnot
    obtain ⟨next, hturn⟩ := exists_turn outcome hnot
    have := turn_remaining hturn
    omega
  | succ n ih =>
    by_cases hdone : AllDone tasks
    · exact ⟨tasks, .refl, hdone⟩
    · obtain ⟨next, hturn⟩ := exists_turn outcome hdone
      have := turn_remaining hturn
      obtain ⟨last, hturns, hlast⟩ := ih next (by omega)
      exact ⟨last, .head hturn hturns, hlast⟩

/-! ### Results -/

/-- The tasks of a request before any of them has begun. -/
def Request.pool (q : Request) : List Task := q.shares.map fun share => { rest := share }

/-- The results that a request can have: the refusal of an empty request, or what the buffers of the
    tasks give, put together in the order of the shares, when all turns have been taken. -/
inductive Request.Yields (q : Request) (read : Reader) (now : Moment) :
    Except ScanError ScanResult → Prop where
  | empty (h : uniquePaths q.paths = []) : Yields q read now (.error .emptyInput)
  | done {tasks : List Task} (h : uniquePaths q.paths ≠ [])
      (hturns : Turns (q.outcome read) q.pool tasks) (hdone : AllDone tasks) :
      Yields q read now
        (conclude now (uniquePaths q.paths).length (merge (tasks.map (·.buffer))))

/-- The buffers of tasks that have come to their end are those of the shares. -/
theorem buffers_of_done {q : Request} {read : Reader}
    (hturns : Turns (q.outcome read) q.pool tasks) (hdone : AllDone tasks) :
    tasks.map (·.buffer) = q.shares.map (scanShare (q.outcome read)) := by
  rw [← map_finish_of_done hdone, turns_finish hturns, Request.pool, List.map_map]
  rfl

/-- A request has one result, whatever turns its tasks take. -/
theorem yields_iff_eq_run (q : Request) (read : Reader) (now : Moment)
    (r : Except ScanError ScanResult) : q.Yields read now r ↔ r = run q read now := by
  constructor
  · intro h
    cases h with
    | empty h => rw [run_eq, if_pos h]
    | done h hturns hdone =>
      rw [buffers_of_done hturns hdone, run, if_neg (mt List.length_eq_zero_iff.1 h)]
      rfl
  · rintro rfl
    by_cases h : uniquePaths q.paths = []
    · rw [run_eq, if_pos h]
      exact .empty h
    · -- Some run comes to its end, so the one result there can be is there.
      obtain ⟨tasks, hturns, hdone⟩ := exists_turns_done (q.outcome read) q.pool
      have hyields : q.Yields read now _ := .done h hturns hdone
      rw [buffers_of_done hturns hdone] at hyields
      rw [run, if_neg (mt List.length_eq_zero_iff.1 h)]
      exact hyields

/-- **Only the set of paths counts.**  Two requests that ask for the same normalized paths, with the
    same languages, overrides and treatment of directives, have one and the same result: neither the
    order, the repeats and the spelling of the paths nor the workers, the chunks and the turns that
    the tasks take can be told from it. -/
theorem yields_of_same_paths {q₁ q₂ : Request} (hregistry : q₁.registry = q₂.registry)
    (hoverrides : q₁.overrides = q₂.overrides) (hexclude : q₁.exclude = q₂.exclude)
    (hpaths : ∀ p, p ∈ q₁.paths.map Path.normalize ↔ p ∈ q₂.paths.map Path.normalize)
    (read : Reader) (now : Moment) :
    (∀ r, q₁.Yields read now r ↔ r = run q₁ read now) ∧
      ∀ r, q₂.Yields read now r ↔ r = run q₁ read now := by
  have hunique : uniquePaths q₁.paths = uniquePaths q₂.paths := sorted_dedup_congr hpaths
  have houtcome : q₁.outcome read = q₂.outcome read := by
    simp only [Request.outcome, hregistry, hoverrides, hexclude]
  have hrun : run q₂ read now = run q₁ read now := by
    rw [run_eq, run_eq, hunique, houtcome]
  refine ⟨fun r => yields_iff_eq_run q₁ read now r, fun r => ?_⟩
  rw [← hrun]
  exact yields_iff_eq_run q₂ read now r

/-- `yields_of_same_paths` for two spellings of two paths, one of them twice, and for a negative
    chunk size. -/
theorem yields_of_same_paths_spellings :
    let registry := Registry.withBuiltins []
    let read : Reader := fun _ => .ok ["x = 1"]
    let now : Moment := ⟨2026, 1, 2, 3, 4, 5, 0, some 0, by decide⟩
    let q₁ : Request :=
      { paths := ["src/b.py", "a.rs"], registry, threads := some 0, chunk := some (-1) }
    let q₂ : Request :=
      { paths := ["./a.rs", "src/x/../b.py", "a.rs"], registry, threads := some 3, chunk := some 1 }
    (∀ p, p ∈ q₁.paths.map Path.normalize ↔ p ∈ q₂.paths.map Path.normalize) ∧
      (∀ r, q₁.Yields read now r ↔ r = run q₁ read now) ∧
      ∀ r, q₂.Yields read now r ↔ r = run q₁ read now := by
  intro registry read now q₁ q₂
  have h₁ : q₁.paths.map Path.normalize = ["src/b.py", "a.rs"] := by decide +kernel
  have h₂ : q₂.paths.map Path.normalize = ["a.rs", "src/b.py", "a.rs"] := by decide +kernel
  have hpaths : ∀ p, p ∈ q₁.paths.map Path.normalize ↔ p ∈ q₂.paths.map Path.normalize := by
    intro p
    rw [h₁, h₂]
    simp only [List.mem_cons, List.not_mem_nil, or_false]
    tauto
  have hregistry : q₁.registry = q₂.registry := rfl
  exact ⟨hpaths, yields_of_same_paths hregistry rfl rfl hpaths read now⟩

end LineCensus.Scan
