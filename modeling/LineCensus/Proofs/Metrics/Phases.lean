import LineCensus.Metrics
import LineCensus.Proofs.Table
import Mathlib.Data.List.Induction

namespace LineCensus

/-!
# Phases under any calls

Measurements are taken by calls that may come in any order and as often as one likes:

* `Phase.complete`, `Phase.fail` — what the end of a phase changes.
* `Metrics.Tracked` — the table of names leads to the last phase of every name, and every phase is
  running until it has an end.
* `Metrics.Tracked.ends` — what the end of a phase changes then, and whose phase it is.
* `Metrics.Call`, `Metrics.play` — the calls, and measurements after a list of them.
* `Metrics.Tracked.perform`, `Metrics.Tracked.play` — every call keeps names tracked, and so does
  every list of calls.
* `Metrics.openings_play` — calls only add the phases that they start.
* `Metrics.phases_of_calls` — the phases after any calls on new measurements.
* `Metered.metrics_completePhase`, `Metered.metrics_failPhase` — the end of a phase by a clock that
  is only read if the phase is known.
-/

variable {α : Type}

/-! ### One phase -/

namespace Phase

variable {p : Phase α}

/-- The phase when it is done at a reading. -/
def complete (p : Phase α) (detail : String) (reading : α) : Phase α :=
  { p with status := .completed, stop := some reading, detail }

/-- The phase when it has failed at a reading. -/
def fail (p : Phase α) (error : String) (reading : α) : Phase α :=
  { p with status := .failed, stop := some reading, error := some error }

/-- The name of a phase and the reading at its start. -/
def opening (p : Phase α) : String × Option α := (p.name, p.start)

/-- A phase that was started and is running until it has an end. -/
structure Sound (p : Phase α) : Prop where
  started : ∃ reading, p.start = some reading
  not_pending : p.status ≠ .pending
  running_iff : p.status = .running ↔ p.stop = none

/-- A sound phase stays so when it is completed. -/
theorem Sound.complete (h : p.Sound) (detail : String) (reading : α) :
    (p.complete detail reading).Sound where
  started := h.started
  not_pending := by simp [Phase.complete]
  running_iff := by simp [Phase.complete]

/-- It stays so when it fails. -/
theorem Sound.fail (h : p.Sound) (error : String) (reading : α) :
    (p.fail error reading).Sound where
  started := h.started
  not_pending := by simp [Phase.fail]
  running_iff := by simp [Phase.fail]

/-- A phase that has stopped is completed or failed. -/
theorem Sound.ended (h : p.Sound) (hstop : p.stop ≠ none) :
    p.status = .completed ∨ p.status = .failed := by
  cases hstatus : p.status with
  | pending => exact absurd hstatus h.not_pending
  | running => exact absurd (h.running_iff.1 hstatus) hstop
  | completed => exact .inl rfl
  | failed => exact .inr rfl

end Phase

namespace Metrics

variable {m m' : Metrics α} {name : String}

/-! ### Values and phases -/

@[simp] theorem phases_record (m : Metrics α) (name : String) (v : α) :
    (m.record name v).phases = m.phases := rfl

@[simp] theorem latest_record (m : Metrics α) (name : String) (v : α) :
    (m.record name v).latest = m.latest := rfl

@[simp] theorem get?_record (m : Metrics α) (name k : String) (v : α) :
    (m.record name v).values.get? k = if k = name then some v else m.values.get? k :=
  Table.get?_insert m.values name k v

/-- A name that was never started has no latest phase. -/
theorem latest_of_not_knows (h : ¬ m.knows name = true) : m.latest.get? name = none := by
  rw [Bool.not_eq_true, knows, Table.has_eq_false_iff] at h
  exact Table.get?_eq_none_iff.2 h

/-- Nothing changes under a name without a latest phase. -/
theorem updatePhase_unknown (h : m.latest.get? name = none) (f : Phase α → Phase α) :
    m.updatePhase name f = m := by
  rw [updatePhase, h]

/-- The latest phase with a name changes, and no other one. -/
theorem updatePhase_known {front back : List (Phase α)} {p : Phase α}
    (h : m.latest.get? name = some front.length) (hphases : m.phases = front ++ p :: back)
    (f : Phase α → Phase α) :
    m.updatePhase name f = { m with phases := front ++ f p :: back } := by
  have hmodify : (front ++ p :: back).modify front.length f = front ++ f p :: back :=
    List.modifyTailIdx_add (List.modifyHead f) 0 front (p :: back)
  rw [updatePhase, h, hphases]
  simp only [hmodify]

/-- Every phase is as it was, or it is the last one of the name, changed. -/
theorem mem_updatePhase {f : Phase α → Phase α} {q : Phase α}
    (hq : q ∈ (m.updatePhase name f).phases) : q ∈ m.phases ∨ ∃ p ∈ m.phases, q = f p := by
  rw [updatePhase] at hq
  split at hq
  · next i _ =>
    obtain ⟨j, hj, rfl⟩ := List.getElem_of_mem hq
    rw [List.getElem_modify]
    split
    · exact .inr ⟨_, List.getElem_mem _, rfl⟩
    · exact .inl (List.getElem_mem _)
  · exact .inl hq

/-- A change that leaves the name and the start of a phase leaves those of all phases. -/
theorem openings_updatePhase (m : Metrics α) (name : String) (f : Phase α → Phase α)
    (hf : ∀ p, (f p).opening = p.opening) :
    (m.updatePhase name f).phases.map Phase.opening = m.phases.map Phase.opening := by
  rw [updatePhase]
  split
  · next i _ =>
    refine List.ext_getElem (by simp) fun j _ _ => ?_
    simp only [List.getElem_map, List.getElem_modify]
    split
    · exact hf _
    · rfl
  · rfl

/-- A change of a phase leaves the latest phases where they are. -/
theorem latest_updatePhase (m : Metrics α) (name : String) (f : Phase α → Phase α) :
    (m.updatePhase name f).latest = m.latest := by
  rw [updatePhase]
  split <;> rfl

/-- A failure changes the latest phase with the name. -/
theorem failPhase_eq (m : Metrics α) (name error : String) (reading : α) :
    m.failPhase name error reading = m.updatePhase name (·.fail error reading) := rfl

/-! ### Names lead to phases -/

/-- The table of names leads to the last phase of every name that was started, and all phases are
    sound. -/
structure Tracked (m : Metrics α) : Prop where
  /-- A name that is not in the table has no phase. -/
  unknown : ∀ name, m.latest.get? name = none → name ∉ m.phases.map (·.name)
  /-- A name leads to the place of its last phase. -/
  latest : ∀ name i, m.latest.get? name = some i → ∃ front back,
    m.phases.map (·.name) = front ++ name :: back ∧ front.length = i ∧ name ∉ back
  sound : ∀ p ∈ m.phases, p.Sound

namespace Tracked

/-- Before the first call all is in order. -/
theorem fresh (operation : String) : ({ operation } : Metrics α).Tracked :=
  ⟨by simp, by simp [Table.get?], by simp⟩

/-- A name is known exactly if a phase of it was started. -/
theorem get?_eq_none_iff (h : m.Tracked) :
    m.latest.get? name = none ↔ name ∉ m.phases.map (·.name) := by
  refine ⟨h.unknown name, fun hname => ?_⟩
  by_contra hsome
  obtain ⟨i, hi⟩ := Option.ne_none_iff_exists'.1 hsome
  obtain ⟨front, back, hnames, -, -⟩ := h.latest name i hi
  exact hname (hnames ▸ List.mem_append_right _ List.mem_cons_self)

/-- A name of which a phase was started has a last phase, and the table leads to it. -/
theorem split (h : m.Tracked) (hname : name ∈ m.phases.map (·.name)) :
    ∃ front p back, m.phases = front ++ p :: back ∧ m.latest.get? name = some front.length ∧
      p.name = name ∧ (∀ q ∈ back, q.name ≠ name) ∧ p.Sound := by
  cases hlatest : m.latest.get? name with
  | none => exact absurd hname (h.unknown name hlatest)
  | some i =>
    obtain ⟨names, rest, hmap, rfl, hrest⟩ := h.latest name i hlatest
    obtain ⟨front, tail, hphases, rfl, htail⟩ := List.map_eq_append_iff.1 hmap
    obtain ⟨p, back, rfl, hp, rfl⟩ := List.map_eq_cons_iff.1 htail
    have hsound := h.sound p (hphases ▸ List.mem_append_right _ List.mem_cons_self)
    refine ⟨front, p, back, hphases, by rw [List.length_map], hp, fun q hq hqname => ?_, hsound⟩
    exact hrest (List.mem_map.2 ⟨q, hq, hqname⟩)

/-- Only the names of phases and their soundness count. -/
theorem of_openings (h : m.Tracked) (hlatest : m'.latest = m.latest)
    (hopenings : m'.phases.map Phase.opening = m.phases.map Phase.opening)
    (hsound : ∀ p ∈ m'.phases, p.Sound) : m'.Tracked := by
  have hnames : m'.phases.map (·.name) = m.phases.map (·.name) := by
    have hfirst := congrArg (List.map Prod.fst) hopenings
    rwa [List.map_map, List.map_map] at hfirst
  refine ⟨fun name => ?_, fun name i => ?_, hsound⟩
  · rw [hlatest, hnames]
    exact h.unknown name
  · rw [hlatest, hnames]
    exact h.latest name i

/-- Only the phases and the latest ones count. -/
theorem of_phases (h : m.Tracked) (hphases : m'.phases = m.phases)
    (hlatest : m'.latest = m.latest) : m'.Tracked :=
  h.of_openings hlatest (by rw [hphases]) (hphases ▸ h.sound)

/-- A phase may be changed in its place. -/
theorem updatePhase (h : m.Tracked) (name : String) (f : Phase α → Phase α)
    (hf : ∀ p, (f p).opening = p.opening) (hsound : ∀ p : Phase α, p.Sound → (f p).Sound) :
    (m.updatePhase name f).Tracked := by
  refine h.of_openings (latest_updatePhase m name f) (openings_updatePhase m name f hf)
    fun q hq => ?_
  rcases mem_updatePhase hq with hq | ⟨p, hp, rfl⟩
  · exact h.sound q hq
  · exact hsound p (h.sound p hp)

/-- A phase that starts becomes the last one of its name; other names keep theirs. -/
theorem startPhase (h : m.Tracked) (n : String) (reading : α) :
    (m.startPhase n reading).Tracked where
  unknown name hnone := by
    simp only [Metrics.startPhase, Table.get?_insert] at hnone
    split at hnone
    · cases hnone
    · next hne => simp [Metrics.startPhase, h.unknown name hnone, hne]
  latest name i hsome := by
    simp only [Metrics.startPhase, Table.get?_insert] at hsome
    split at hsome
    · next heq =>
      -- The name that starts: its phase stands behind all others.
      cases hsome
      exact ⟨m.phases.map (·.name), [], by simp [Metrics.startPhase, heq], by simp, by simp⟩
    · next hne =>
      -- Any other name: its last phase keeps its place.
      obtain ⟨front, back, hnames, hlength, hback⟩ := h.latest name i hsome
      refine ⟨front, back ++ [n], ?_, hlength, by simp [hback, hne]⟩
      simp [Metrics.startPhase, hnames]
  sound p hp := by
    simp only [Metrics.startPhase, List.mem_append, List.mem_singleton] at hp
    rcases hp with hp | rfl
    · exact h.sound p hp
    · exact ⟨⟨reading, rfl⟩, by simp, by simp⟩

end Tracked

variable [Gauge α]

/-! ### Ends -/

/-- The end of a run is noted, and so is the time since it began if it has. -/
theorem endRun_eq (m : Metrics α) (reading : α) :
    m.endRun reading =
      match m.start with
      | none => { m with stop := some reading }
      | some s => { m with stop := some reading }.record "elapsed_seconds" (span s reading) := by
  simp only [endRun, elapsed?]
  cases m.start <;> rfl

@[simp] theorem phases_endRun (m : Metrics α) (reading : α) :
    (m.endRun reading).phases = m.phases := by
  rw [endRun_eq]
  cases m.start <;> rfl

@[simp] theorem latest_endRun (m : Metrics α) (reading : α) :
    (m.endRun reading).latest = m.latest := by
  rw [endRun_eq]
  cases m.start <;> rfl

/-- The end of a phase that was never started changes nothing. -/
theorem completePhase_unknown (h : m.latest.get? name = none) (detail : String) (reading : α) :
    m.completePhase name detail reading = m := by
  simp only [completePhase, updatePhase_unknown h, phase?, h, Option.bind_none]

/-- A phase that is done is changed in its place, and its time is recorded. -/
theorem completePhase_known {front back : List (Phase α)} {p : Phase α} {start : α}
    (h : m.latest.get? name = some front.length) (hphases : m.phases = front ++ p :: back)
    (hstart : p.start = some start) (detail : String) (reading : α) :
    m.completePhase name detail reading =
      { m with
        phases := front ++ p.complete detail reading :: back
        values := m.values.insert (name ++ "_time") (span start reading) } := by
  have hplace (q : Phase α) : (front ++ q :: back)[front.length]? = some q := by simp
  simp only [completePhase, updatePhase_known h hphases, phase?, h, Option.bind_some, hplace,
    Phase.duration?, Phase.complete, hstart, record]

/-- A phase that is done is changed, and nothing else but the values. -/
theorem completePhase_eq (m : Metrics α) (name detail : String) (reading : α) :
    ∃ values, m.completePhase name detail reading =
      { m.updatePhase name (·.complete detail reading) with values } := by
  rw [completePhase]
  split <;> exact ⟨_, rfl⟩

/-- **The end of a phase.**  Of a name that was never started it changes nothing; otherwise it
    changes the last phase of that name and, if the phase is done, records its time. -/
theorem Tracked.ends (h : m.Tracked) (name : String) (reading : α) :
    (name ∉ m.phases.map (·.name) →
      (∀ detail, m.completePhase name detail reading = m) ∧
      ∀ error, m.failPhase name error reading = m) ∧
    (name ∈ m.phases.map (·.name) → ∃ front p back start,
      m.phases = front ++ p :: back ∧ p.name = name ∧ (∀ q ∈ back, q.name ≠ name) ∧
      p.start = some start ∧
      (∀ detail, m.completePhase name detail reading =
        { m with
          phases := front ++ p.complete detail reading :: back
          values := m.values.insert (name ++ "_time") (span start reading) }) ∧
      ∀ error, m.failPhase name error reading =
        { m with phases := front ++ p.fail error reading :: back }) := by
  constructor
  · intro hname
    have hunknown := h.get?_eq_none_iff.2 hname
    exact ⟨fun detail => completePhase_unknown hunknown detail reading,
      fun error => updatePhase_unknown hunknown _⟩
  · intro hname
    -- The latest phase of that name is the last one of it in the list.
    obtain ⟨front, p, back, hphases, hlatest, hp, hback, hsound⟩ := h.split hname
    obtain ⟨start, hstart⟩ := hsound.started
    exact ⟨front, p, back, start, hphases, hp, hback, hstart,
      fun detail => completePhase_known hlatest hphases hstart detail reading,
      fun error => updatePhase_known hlatest hphases _⟩

/-! ### Calls -/

/-- What can be asked of measurements. -/
inductive Call (α : Type) where
  | beginRun (now : Moment) (processors : Nat)
  | endRun
  | startPhase (name : String)
  | completePhase (name detail : String)
  | failPhase (name error : String)
  | record (name : String) (v : α)
  | increment (name : String) (v : α)

/-- The measurements after a call at a reading of the clock.  Values are set without it. -/
def perform (m : Metrics α) (reading : α) : Call α → Metrics α
  | .beginRun now processors => m.beginRun now reading processors
  | .endRun => m.endRun reading
  | .startPhase name => m.startPhase name reading
  | .completePhase name detail => m.completePhase name detail reading
  | .failPhase name error => m.failPhase name error reading
  | .record name v => m.record name v
  | .increment name v => m.increment name v

/-- The measurements after calls, each with the reading of the clock at it. -/
def play (m : Metrics α) (calls : List (Call α × α)) : Metrics α :=
  calls.foldl (fun m c => m.perform c.2 c.1) m

@[simp] theorem play_nil (m : Metrics α) : m.play [] = m := rfl

@[simp] theorem play_concat (m : Metrics α) (calls : List (Call α × α)) (c : Call α × α) :
    m.play (calls ++ [c]) = (m.play calls).perform c.2 c.1 := by
  rw [play, List.foldl_append]
  rfl

/-- The phase that a call starts, with the reading at its start. -/
def openingOf : Call α × α → Option (String × Option α)
  | (.startPhase name, reading) => some (name, some reading)
  | _ => none

/-- The phases that calls start, in their order. -/
def openings (calls : List (Call α × α)) : List (String × Option α) := calls.filterMap openingOf

/-- Every call leaves names with the last of their phases. -/
theorem Tracked.perform (h : m.Tracked) (c : Call α) (reading : α) :
    (m.perform reading c).Tracked := by
  cases c with
  | beginRun now processors => exact h.of_phases rfl rfl
  | endRun => exact h.of_phases (phases_endRun m reading) (latest_endRun m reading)
  | startPhase name => exact h.startPhase name reading
  | completePhase name detail =>
    obtain ⟨values, hcomplete⟩ := completePhase_eq m name detail reading
    rw [Metrics.perform, hcomplete]
    have hdone := h.updatePhase name (·.complete detail reading) (fun _ => rfl)
      fun p hp => hp.complete detail reading
    exact hdone.of_phases rfl rfl
  | failPhase name error =>
    rw [Metrics.perform, failPhase_eq]
    exact h.updatePhase name _ (fun _ => rfl) fun p hp => hp.fail error reading
  | record name v => exact h.of_phases rfl rfl
  | increment name v => exact h.of_phases rfl rfl

/-- A call adds the phase that it starts, and no other phase comes or goes. -/
theorem openings_perform (m : Metrics α) (c : Call α) (reading : α) :
    (m.perform reading c).phases.map Phase.opening =
      m.phases.map Phase.opening ++ (openingOf (c, reading)).toList := by
  cases c with
  | beginRun now processors => simp [perform, beginRun, openingOf]
  | endRun => simp [perform, openingOf]
  | startPhase name => simp [perform, startPhase, openingOf, Phase.opening]
  | completePhase name detail =>
    obtain ⟨values, hcomplete⟩ := completePhase_eq m name detail reading
    have hopenings := openings_updatePhase m name (·.complete detail reading) fun _ => rfl
    simp [perform, hcomplete, hopenings, openingOf]
  | failPhase name error =>
    have hopenings := openings_updatePhase m name (·.fail error reading) fun _ => rfl
    rw [perform, failPhase_eq, hopenings]
    simp [openingOf]
  | record name v => simp [perform, openingOf]
  | increment name v => simp [perform, increment, openingOf]

/-! ### Any calls -/

/-- All calls keep it in order. -/
theorem Tracked.play (h : m.Tracked) (calls : List (Call α × α)) : (m.play calls).Tracked := by
  induction calls using List.reverseRecOn with
  | nil => exact h
  | append_singleton calls c ih =>
    rw [play_concat]
    exact ih.perform c.1 c.2

/-- Calls add the phases that they start. -/
theorem openings_play (m : Metrics α) (calls : List (Call α × α)) :
    (m.play calls).phases.map Phase.opening = m.phases.map Phase.opening ++ openings calls := by
  induction calls using List.reverseRecOn with
  | nil => simp [openings]
  | append_singleton calls c ih =>
    rw [play_concat, openings_perform, ih, List.append_assoc, openings, openings,
      List.filterMap_append, List.filterMap_cons, List.filterMap_nil]
    cases openingOf c <;> rfl

/-- New measurements track names after any calls, and their phases are those that were started. -/
theorem play_fresh (operation : String) (calls : List (Call α × α)) :
    let m := ({ operation } : Metrics α).play calls
    m.Tracked ∧ m.phases.map Phase.opening = openings calls ∧
      m.phases.map (·.name) = (openings calls).map (·.1) := by
  intro m
  have hstarted : m.phases.map Phase.opening = openings calls := by
    rw [openings_play, List.map_nil, List.nil_append]
  refine ⟨(Tracked.fresh operation).play calls, hstarted, ?_⟩
  rw [← hstarted, List.map_map]
  rfl

/-- **Phases under any calls.**  After any calls on new measurements the phases are those that were
    started, in that order and each with the reading at its start; further calls only add the phases
    that they start.  A phase is running exactly as long as it has no end, is done or has failed
    otherwise, and is never pending.  The end of a phase changes nothing if no phase of its name was
    started; otherwise it changes the last one of that name and nothing else, but for the time that
    is recorded if the phase is done. -/
theorem phases_of_calls (operation : String) (calls : List (Call α × α)) :
    let m := ({ operation } : Metrics α).play calls
    (m.phases.map Phase.opening = openings calls ∧
      ∀ more, (m.play more).phases.map Phase.opening =
        m.phases.map Phase.opening ++ openings more) ∧
    (∀ p ∈ m.phases, (p.status = .running ↔ p.stop = none) ∧
      (p.stop ≠ none → p.status = .completed ∨ p.status = .failed) ∧ p.status ≠ .pending) ∧
    ∀ name reading,
      (name ∉ (openings calls).map (·.1) →
        (∀ detail, m.completePhase name detail reading = m) ∧
        ∀ error, m.failPhase name error reading = m) ∧
      (name ∈ (openings calls).map (·.1) → ∃ front p back start,
        m.phases = front ++ p :: back ∧ p.name = name ∧ (∀ q ∈ back, q.name ≠ name) ∧
        p.start = some start ∧
        (∀ detail, m.completePhase name detail reading =
          { m with
            phases := front ++
              { p with status := .completed, stop := some reading, detail } :: back
            values := m.values.insert (name ++ "_time") (span start reading) }) ∧
        ∀ error, m.failPhase name error reading =
          { m with
            phases := front ++
              { p with status := .failed, stop := some reading, error := some error } :: back }) := by
  intro m
  obtain ⟨htracked, hstarted, hnames⟩ := play_fresh operation calls
  refine ⟨⟨hstarted, fun more => openings_play m more⟩, fun p hp => ?_, fun name reading => ?_⟩
  · have hsound := htracked.sound p hp
    exact ⟨hsound.running_iff, hsound.ended, hsound.not_pending⟩
  · rw [← hnames]
    exact htracked.ends name reading

end Metrics

/-! ### Measurements with a clock -/

namespace Metered

variable [Gauge α]

@[simp] theorem metrics_count (m : Metered α) (name : String) (n : Nat) :
    (m.count name n).metrics = m.metrics.record name (Gauge.ofNat n) := rfl

/-- Whether the clock is read for a phase that was never started does not show. -/
theorem metrics_completePhase (m : Metered α) (name detail : String) :
    (m.completePhase name detail).metrics =
      m.metrics.completePhase name detail m.clock.reading := by
  rw [completePhase]
  split
  · rfl
  · next h => rw [Metrics.completePhase_unknown (Metrics.latest_of_not_knows h)]

/-- The clock tells when a phase failed. -/
theorem metrics_failPhase (m : Metered α) (name error : String) :
    (m.failPhase name error).metrics = m.metrics.failPhase name error m.clock.reading := by
  rw [failPhase]
  split
  · rfl
  · next h => rw [Metrics.failPhase, Metrics.updatePhase_unknown (Metrics.latest_of_not_knows h)]

end Metered

end LineCensus
