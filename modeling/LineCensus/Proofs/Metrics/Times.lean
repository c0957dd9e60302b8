import LineCensus.Proofs.Metrics.Phases
import LineCensus.Proofs.Metrics.Exact

namespace LineCensus

/-!
# Times under any calls

With a clock that does not go back, the times that are measured are not below zero, but for one:

* `Metrics.Begun`, `Metrics.Ended`, `Metrics.Reopened` — a run that has begun, that has ended, and
  that was begun once more after its end.
* `Metrics.Ordered` — the readings that are kept stand in the order of the calls.
* `Metrics.Ordered.perform`, `Metrics.ordered_play` — every call keeps them so, and every list of
  calls.
* `Metrics.times_of_calls` — the times that are measured after any calls.
* `Metrics.elapsed_below_zero` — a run that is begun once more after its end has a time below zero.
-/

namespace Metrics

/-! ### Begin and end of a run -/

section Calls

variable {α : Type} {calls : List (Call α × α)} {c : Call α} {reading : α}

/-- The run begins. -/
def Call.isBegin : Call α → Bool
  | .beginRun _ _ => true
  | _ => false

/-- The run ends. -/
def Call.isEnd : Call α → Bool
  | .endRun => true
  | _ => false

/-- The run has begun. -/
def Begun (calls : List (Call α × α)) : Prop := ∃ c ∈ calls, c.1.isBegin = true

/-- The run has ended. -/
def Ended (calls : List (Call α × α)) : Prop := ∃ c ∈ calls, c.1.isEnd = true

/-- The run was begun after an end of it and has not ended since. -/
def Reopened (calls : List (Call α × α)) : Prop :=
  ∃ front c back, calls = front ++ c :: back ∧ c.1.isBegin = true ∧ Ended front ∧ ¬ Ended back

/-- A run has begun if it had before the last call, or if that call begins it. -/
theorem begun_concat :
    Begun (calls ++ [(c, reading)]) ↔ Begun calls ∨ c.isBegin = true := by
  simp only [Begun, List.mem_append, List.mem_singleton, or_and_right, exists_or, exists_eq_left]

/-- So it is with the end of a run. -/
theorem ended_concat : Ended (calls ++ [(c, reading)]) ↔ Ended calls ∨ c.isEnd = true := by
  simp only [Ended, List.mem_append, List.mem_singleton, or_and_right, exists_or, exists_eq_left]

/-- A run that is opened again had ended. -/
theorem Reopened.ended (h : Reopened calls) : Ended calls := by
  obtain ⟨front, c, back, rfl, -, ⟨e, he, hend⟩, -⟩ := h
  exact ⟨e, List.mem_append_left _ he, hend⟩

/-- One more call leaves the run reopened if it begins a run that has ended, or if the run was
    reopened before and this is not its end. -/
theorem reopened_concat :
    Reopened (calls ++ [(c, reading)]) ↔
      c.isBegin = true ∧ Ended calls ∨ c.isEnd = false ∧ Reopened calls := by
  constructor
  · rintro ⟨front, b, back, hcalls, hbegin, hfront, hback⟩
    rcases List.eq_nil_or_concat back with rfl | ⟨back, e, rfl⟩
    · obtain ⟨rfl, hlast⟩ := List.append_inj' hcalls rfl
      obtain rfl := List.singleton_inj.1 hlast
      exact .inl ⟨hbegin, hfront⟩
    · -- The last call stands behind the begin, so it is no end.
      rw [List.concat_eq_append] at hcalls hback
      rw [← List.cons_append, ← List.append_assoc] at hcalls
      obtain ⟨rfl, hlast⟩ := List.append_inj' hcalls rfl
      obtain rfl := List.singleton_inj.1 hlast
      rw [ended_concat, not_or, Bool.not_eq_true] at hback
      exact .inr ⟨hback.2, front, b, back, rfl, hbegin, hfront, hback.1⟩
  · rintro (⟨hbegin, hended⟩ | ⟨hend, front, b, back, rfl, hbegin, hfront, hback⟩)
    · exact ⟨calls, (c, reading), [], rfl, hbegin, hended, by simp [Ended]⟩
    · refine ⟨front, b, back ++ [(c, reading)], by simp, hbegin, hfront, ?_⟩
      rw [ended_concat, not_or, Bool.not_eq_true]
      exact ⟨hback, hend⟩

end Calls

end Metrics

/-! ### Readings in order -/

/-- The phase has not started later than now, nor ended before it started. -/
def Phase.Ordered (p : Phase ℚ) (now : ℚ) : Prop := ∀ a ∈ p.start, a ≤ now ∧ ∀ b ∈ p.stop, a ≤ b

namespace Phase.Ordered

variable {p : Phase ℚ} {now t : ℚ}

theorem mono (h : p.Ordered now) (hle : now ≤ t) : p.Ordered t :=
  fun a ha => ⟨(h a ha).1.trans hle, (h a ha).2⟩

/-- A phase may end now. -/
theorem stopped (h : p.Ordered now) {q : Phase ℚ} (hstart : q.start = p.start)
    (hstop : q.stop = some now) : q.Ordered now := by
  intro a ha
  have hle : a ≤ now := (h a (hstart ▸ ha)).1
  refine ⟨hle, fun b hb => ?_⟩
  rw [hstop] at hb
  cases hb
  exact hle

/-- A phase that did not end before it started took no time below zero. -/
theorem duration_nonneg (h : p.Ordered now) {d : ℚ} (hd : p.duration? = some d) : 0 ≤ d := by
  rw [Phase.duration?] at hd
  split at hd
  · next a b ha hb =>
    cases hd
    exact span_nonneg ((h a ha).2 b hb)
  · cases hd

end Phase.Ordered

namespace Metrics

variable {m : Metrics ℚ} {calls : List (Call ℚ × ℚ)} {now t : ℚ}

/-- The readings that are kept after calls stand in the order of these, and none is later than
    now. -/
structure Ordered (m : Metrics ℚ) (calls : List (Call ℚ × ℚ)) (now : ℚ) : Prop where
  begun_iff : m.start ≠ none ↔ Begun calls
  ended_iff : m.stop ≠ none ↔ Ended calls
  start_le : ∀ a ∈ m.start, a ≤ now
  stop_le : ∀ b ∈ m.stop, b ≤ now
  start_le_stop : ¬ Reopened calls → ∀ a ∈ m.start, ∀ b ∈ m.stop, a ≤ b
  stop_le_start : Reopened calls → ∀ a ∈ m.start, ∀ b ∈ m.stop, b ≤ a
  phases : ∀ p ∈ m.phases, p.Ordered now

/-- The end of a phase leaves the begin and the end of the run. -/
theorem run_updatePhase (m : Metrics ℚ) (name : String) (f : Phase ℚ → Phase ℚ) :
    (m.updatePhase name f).start = m.start ∧ (m.updatePhase name f).stop = m.stop := by
  rw [updatePhase]
  split <;> exact ⟨rfl, rfl⟩

/-- The end of a run keeps its begin and notes the reading. -/
theorem start_endRun (m : Metrics ℚ) (reading : ℚ) :
    (m.endRun reading).start = m.start ∧ (m.endRun reading).stop = some reading := by
  rw [endRun_eq]
  split <;> exact ⟨rfl, rfl⟩

namespace Ordered

theorem fresh (operation : String) (now : ℚ) : ({ operation } : Metrics ℚ).Ordered [] now where
  begun_iff := by simp [Begun]
  ended_iff := by simp [Ended]
  start_le := by simp
  stop_le := by simp
  start_le_stop := by simp
  stop_le_start := by simp
  phases := by simp

theorem mono (h : m.Ordered calls now) (hle : now ≤ t) : m.Ordered calls t :=
  { h with
    start_le := fun a ha => (h.start_le a ha).trans hle
    stop_le := fun b hb => (h.stop_le b hb).trans hle
    phases := fun p hp => (h.phases p hp).mono hle }

/-- A call that is neither begin nor end of the run may change phases. -/
theorem of_phases (h : m.Ordered calls now) {c : Call ℚ} (hbegin : c.isBegin = false)
    (hend : c.isEnd = false) {m' : Metrics ℚ} (hrun : m'.start = m.start ∧ m'.stop = m.stop)
    (hphases : ∀ p ∈ m'.phases, p.Ordered now) : m'.Ordered (calls ++ [(c, now)]) now := by
  obtain ⟨hstart, hstop⟩ := hrun
  have hreopened : Reopened (calls ++ [(c, now)]) ↔ Reopened calls := by
    simp [reopened_concat, hbegin, hend]
  exact
    { begun_iff := by simp [hstart, begun_concat, hbegin, h.begun_iff]
      ended_iff := by simp [hstop, ended_concat, hend, h.ended_iff]
      start_le := hstart ▸ h.start_le
      stop_le := hstop ▸ h.stop_le
      start_le_stop := by
        rw [hreopened, hstart, hstop]
        exact h.start_le_stop
      stop_le_start := by
        rw [hreopened, hstart, hstop]
        exact h.stop_le_start
      phases := hphases }

/-- The run begins now.  If it has ended before, it is reopened. -/
theorem beginRun (h : m.Ordered calls now) (moment : Moment) (processors : Nat) :
    (m.beginRun moment now processors).Ordered (calls ++ [(.beginRun moment processors, now)])
      now where
  begun_iff := by simp [Metrics.beginRun, record, begun_concat, Call.isBegin]
  ended_iff := by
    have hstop : (m.beginRun moment now processors).stop = m.stop := rfl
    simp [hstop, ended_concat, Call.isEnd, h.ended_iff]
  start_le a ha := by
    cases ha
    exact le_rfl
  stop_le := h.stop_le
  start_le_stop hnot a _ b hb := by
    -- A run that this begin does not reopen has no end yet.
    have hopen : ¬ Ended calls := fun hended => hnot (reopened_concat.2 (.inl ⟨rfl, hended⟩))
    rw [← h.ended_iff, not_not] at hopen
    exact absurd (hopen.symm.trans hb) (Option.some_ne_none b).symm
  stop_le_start _ a ha b hb := by
    cases ha
    exact h.stop_le b hb
  phases := h.phases

/-- The run ends now.  It is not reopened, whatever it was. -/
theorem endRun (h : m.Ordered calls now) :
    (m.endRun now).Ordered (calls ++ [(.endRun, now)]) now := by
  obtain ⟨hstart, hstop⟩ := start_endRun m now
  have hclosed : ¬ Reopened (calls ++ [((.endRun : Call ℚ), now)]) := by
    simp [reopened_concat, Call.isBegin, Call.isEnd]
  exact
    { begun_iff := by simp [hstart, begun_concat, Call.isBegin, h.begun_iff]
      ended_iff := by simp [hstop, ended_concat, Call.isEnd]
      start_le := hstart ▸ h.start_le
      stop_le := by simp [hstop]
      start_le_stop := by
        rw [hstart, hstop]
        rintro - a ha b ⟨⟩
        exact h.start_le a ha
      stop_le_start := fun hreopened => absurd hreopened hclosed
      phases := phases_endRun m now ▸ h.phases }

/-- A phase starts now. -/
theorem startPhase (h : m.Ordered calls now) (name : String) :
    (m.startPhase name now).Ordered (calls ++ [(.startPhase name, now)]) now := by
  refine h.of_phases rfl rfl ⟨rfl, rfl⟩ fun p hp => ?_
  simp only [Metrics.startPhase, List.mem_append, List.mem_singleton] at hp
  rcases hp with hp | rfl
  · exact h.phases p hp
  · rintro a ⟨⟩
    exact ⟨le_rfl, by simp⟩

/-- A phase that ends now is in order, and so are the others. -/
theorem updatePhase (h : m.Ordered calls now) (name : String) {f : Phase ℚ → Phase ℚ}
    (hstart : ∀ p, (f p).start = p.start) (hstop : ∀ p, (f p).stop = some now) :
    ∀ p ∈ (m.updatePhase name f).phases, p.Ordered now := by
  intro q hq
  rcases mem_updatePhase hq with hq | ⟨p, hp, rfl⟩
  · exact h.phases q hq
  · exact (h.phases p hp).stopped (hstart p) (hstop p)

/-- **One call.**  Whatever is called now, the readings stay in order. -/
theorem perform (h : m.Ordered calls now) (c : Call ℚ) :
    (m.perform now c).Ordered (calls ++ [(c, now)]) now := by
  cases c with
  | beginRun moment processors => exact h.beginRun moment processors
  | endRun => exact h.endRun
  | startPhase name => exact h.startPhase name
  | completePhase name detail =>
    obtain ⟨values, hcomplete⟩ := completePhase_eq m name detail now
    rw [Metrics.perform, hcomplete]
    exact h.of_phases rfl rfl (run_updatePhase m name _)
      (h.updatePhase name (fun _ => rfl) fun _ => rfl)
  | failPhase name error =>
    exact h.of_phases rfl rfl (run_updatePhase m name _)
      (h.updatePhase name (fun _ => rfl) fun _ => rfl)
  | record name v => exact h.of_phases rfl rfl ⟨rfl, rfl⟩ h.phases
  | increment name v => exact h.of_phases rfl rfl ⟨rfl, rfl⟩ h.phases

end Ordered

/-- **Any calls.**  If the clock does not go back, readings are in order after any calls. -/
theorem ordered_play (operation : String) (calls : List (Call ℚ × ℚ)) (now : ℚ)
    (hclock : (calls.map (·.2) ++ [now]).Pairwise (· ≤ ·)) :
    (({ operation } : Metrics ℚ).play calls).Ordered calls now := by
  induction calls using List.reverseRecOn generalizing now with
  | nil => exact .fresh operation now
  | append_singleton calls c ih =>
    obtain ⟨call, reading⟩ := c
    rw [List.map_append, List.map_singleton, List.pairwise_append] at hclock
    have hle : reading ≤ now := hclock.2.2 reading (by simp) now (by simp)
    rw [play_concat]
    exact ((ih reading hclock.1).perform call).mono hle

/-! ### Times -/

/-- The time since a run began is not below zero unless it was reopened, and then not above. -/
theorem Ordered.elapsed_sign (h : m.Ordered calls now) {d : ℚ} (hd : m.elapsed? now = some d) :
    (¬ Reopened calls → 0 ≤ d) ∧ (Reopened calls → d ≤ 0) := by
  obtain ⟨a, ha, rfl⟩ := Option.map_eq_some_iff.1 hd
  constructor
  · intro hopen
    apply span_nonneg
    cases hstop : m.stop with
    | none => exact h.start_le a ha
    | some b => exact h.start_le_stop hopen a ha b hstop
  · intro hreopened
    obtain ⟨b, hb⟩ := Option.ne_none_iff_exists'.1 (h.ended_iff.2 hreopened.ended)
    rw [hb, Option.getD_some]
    exact span_nonpos (h.stop_le_start hreopened a ha b hb)

/-- **Times under any calls.**  Any calls are made on new measurements, by a clock that does not go
    back.  There is a time since the run began exactly if it has begun.  It is not below zero unless
    the run was begun once more after its end and has not ended since; then it is not above zero.
    No time of a phase is below zero, and neither is the time that the end of a run or of a phase
    records; the end of a run records none exactly if the run has not begun. -/
theorem times_of_calls (operation : String) (calls : List (Call ℚ × ℚ)) (now : ℚ)
    (hclock : (calls.map (·.2) ++ [now]).Pairwise (· ≤ ·)) :
    let m := ({ operation } : Metrics ℚ).play calls
    (∀ reading, m.elapsed? reading = none ↔ ¬ Begun calls) ∧
    (∀ d, m.elapsed? now = some d →
      (¬ Reopened calls → 0 ≤ d) ∧ (Reopened calls → d ≤ 0)) ∧
    (∀ p ∈ m.phases, ∀ d, p.duration? = some d → 0 ≤ d) ∧
    ((¬ Begun calls → (m.endRun now).values = m.values) ∧
      (Begun calls → ∃ d, 0 ≤ d ∧
        (m.endRun now).values = m.values.insert "elapsed_seconds" d)) ∧
    ∀ name detail,
      (name ∉ (openings calls).map (·.1) →
        (m.completePhase name detail now).values = m.values) ∧
      (name ∈ (openings calls).map (·.1) → ∃ d, 0 ≤ d ∧
        (m.completePhase name detail now).values = m.values.insert (name ++ "_time") d) := by
  intro m
  have hordered : m.Ordered calls now := ordered_play operation calls now hclock
  obtain ⟨htracked, -, hnames⟩ := play_fresh operation calls
  have hbegun : m.start = none ↔ ¬ Begun calls := (not_iff_comm.1 hordered.begun_iff).symm
  refine ⟨fun reading => ?_, fun d hd => hordered.elapsed_sign hd, fun p hp d hd => ?_, ?_,
    fun name detail => ?_⟩
  · rw [elapsed?, Option.map_eq_none_iff, hbegun]
  · exact (hordered.phases p hp).duration_nonneg hd
  · -- The end is now, so the time is that from the begin to now, whatever end was kept before.
    rw [← hbegun, ← hordered.begun_iff, endRun_eq]
    cases hstart : m.start with
    | none => simp
    | some a => simpa using ⟨span a now, span_nonneg (hordered.start_le a hstart), rfl⟩
  · rw [← hnames]
    obtain ⟨hunknown, hknown⟩ := htracked.ends name now
    refine ⟨fun hname => by rw [(hunknown hname).1], fun hname => ?_⟩
    obtain ⟨front, p, back, a, hphases, -, -, hstart, hcomplete, -⟩ := hknown hname
    have hp : p ∈ m.phases := hphases ▸ List.mem_append_right _ List.mem_cons_self
    rw [hcomplete]
    exact ⟨span a now, span_nonneg ((hordered.phases p hp) a hstart).1, rfl⟩

/-- `times_of_calls` for a phase that is done twice and another one that is still running when the
    run ends, each call later than the one in front of it. -/
theorem times_of_calls_repeated :
    let moment : Moment := ⟨2026, 1, 2, 3, 4, 5, 0, some 0, by decide⟩
    let calls : List (Call ℚ × ℚ) :=
      [(.beginRun moment 4, 0), (.startPhase "scan", 1 / 2), (.completePhase "scan" "", 3 / 4),
       (.startPhase "save", 1), (.completePhase "scan" "again", 5 / 4), (.endRun, 2)]
    let now : ℚ := 3
    let m := ({ operation := "count" } : Metrics ℚ).play calls
    (calls.map (·.2) ++ [now]).Pairwise (· ≤ ·) ∧
      (∀ reading, m.elapsed? reading = none ↔ ¬ Begun calls) ∧
      (∀ d, m.elapsed? now = some d →
        (¬ Reopened calls → 0 ≤ d) ∧ (Reopened calls → d ≤ 0)) ∧
      (∀ p ∈ m.phases, ∀ d, p.duration? = some d → 0 ≤ d) ∧
      ((¬ Begun calls → (m.endRun now).values = m.values) ∧
        (Begun calls → ∃ d, 0 ≤ d ∧
          (m.endRun now).values = m.values.insert "elapsed_seconds" d)) ∧
      ∀ name detail,
        (name ∉ (openings calls).map (·.1) →
          (m.completePhase name detail now).values = m.values) ∧
        (name ∈ (openings calls).map (·.1) → ∃ d, 0 ≤ d ∧
          (m.completePhase name detail now).values = m.values.insert (name ++ "_time") d) := by
  intro moment calls now m
  have hclock : (calls.map (·.2) ++ [now]).Pairwise (· ≤ ·) := by decide +kernel
  exact ⟨hclock, times_of_calls "count" calls now hclock⟩

/-- A run that began and ended at zero is begun once more a second later: its time is that from the
    second begin to the end in front of it. -/
theorem elapsed_below_zero :
    let moment : Moment := ⟨2026, 1, 2, 3, 4, 5, 0, some 0, by decide⟩
    let calls : List (Call ℚ × ℚ) :=
      [(.beginRun moment 4, 0), (.endRun, 0), (.beginRun moment 4, 1)]
    let now : ℚ := 1
    (calls.map (·.2) ++ [now]).Pairwise (· ≤ ·) ∧
      (({ operation := "count" } : Metrics ℚ).play calls).elapsed? now = some (-1) ∧
      ¬ (0 : ℚ) ≤ -1 := by
  decide +kernel

end Metrics

end LineCensus
