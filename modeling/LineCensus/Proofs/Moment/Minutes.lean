import LineCensus.Proofs.Schema.Fields

namespace LineCensus.Moment

open Schema

/-!
# Offsets of whole minutes

Texts give offsets in hours and minutes, and numbers are in UTC, so the seconds of an offset are
never read.

* `WholeMinutes` — a moment that is local or whole minutes from UTC.
* `wholeMinutes_ofRfc3339?`, `gives_ofSeconds`, `gives_ofDate` — dates with times, numbers of seconds,
  and bare dates.
* `gives_ofText`, `gives_moment` — every moment that is read.
-/

/-- The moment is local, or its offset has no seconds. -/
def WholeMinutes (m : Moment) : Prop := ∀ o, m.offset = some o → o % 60 = 0

/-- A moment has the offset that it was made with. -/
theorem offset_of_mk? {year month day hour minute second micro : Nat} {offset : Option Int}
    {m : Moment} (h : mk? year month day hour minute second micro offset = some m) :
    m.offset = offset := by
  unfold mk? at h
  split at h
  · cases h
    rfl
  · cases h

/-! ### Dates with times -/

/-- An offset is spelled in hours and minutes. -/
theorem minutes_of_offsetPart? {s : List Char} {offset : Option Int}
    (h : offsetPart? s = some offset) (o : Int) (ho : offset = some o) : o % 60 = 0 := by
  subst ho
  unfold offsetPart? at h
  split at h
  · cases h
  · cases h
    rfl
  · cases h
    rfl
  · simp only [Option.bind_eq_bind, Option.bind_eq_some_iff] at h
    obtain ⟨unit, -, ⟨hours, r⟩, -, ⟨minutes, rest⟩, -, h⟩ := h
    split at h
    · simp only [Option.pure_def, Option.some.injEq] at h
      have hsum : ((hours * 3600 + minutes * 60 : Nat) : Int) =
          60 * ((hours * 60 + minutes : Nat) : Int) := by omega
      rw [← h, hsum, Int.mul_left_comm]
      exact Int.mul_emod_right 60 _
    · cases h

/-- So a moment in text form is at whole minutes from UTC. -/
theorem wholeMinutes_ofRfc3339? {s : List Char} {m : Moment} (h : ofRfc3339? s = some (.ok m)) :
    m.WholeMinutes := by
  unfold ofRfc3339? at h
  simp only [Option.bind_eq_bind, Option.bind_eq_some_iff] at h
  obtain ⟨date, -, h⟩ := h
  -- Of what is read behind the date only the offset matters.
  split at h
  · cases h
  · split at h
    · split at h
      · simp only [Option.bind_eq_some_iff] at h
        obtain ⟨time, -, h⟩ := h
        split at h
        · simp only [Option.bind_eq_some_iff] at h
          obtain ⟨offset, hoffset, h⟩ := h
          split at h
          · cases h
          · split at h
            · cases h
            · simp only [Option.bind_eq_some_iff, Option.pure_def, Option.some.injEq,
                Except.ok.injEq] at h
              obtain ⟨m', hm, rfl⟩ := h
              intro o ho
              rw [offset_of_mk? hm] at ho
              exact minutes_of_offsetPart? hoffset o ho
        · cases h
      · cases h
    · cases h

/-! ### Numbers of seconds -/

/-- One that is counted from the epoch is at UTC. -/
theorem wholeMinutes_ofUnix? {seconds : Int} {micro : Nat} {m : Moment}
    (h : ofUnix? seconds micro 0 = some m) : m.WholeMinutes := by
  unfold ofUnix? at h
  simp only at h
  split at h
  · cases h
  · intro o ho
    rw [offset_of_mk? h] at ho
    cases ho
    rfl

/-- So is one that is read from a whole number of seconds or milliseconds. -/
theorem gives_ofSeconds (n : Int) (micro : Nat) : Gives (ofSeconds n micro) WholeMinutes := by
  intro m hm
  unfold ofSeconds at hm
  split at hm
  · cases hm
  · simp only at hm
    unfold ofUnixSeconds at hm
    split at hm
    · next hunix =>
      cases hm
      exact wholeMinutes_ofUnix? hunix
    · split_ifs at hm

/-- So is one that is read from a number with a fraction. -/
theorem gives_ofFloat (x : Float) : Gives (ofFloat x) WholeMinutes := by
  intro m hm
  unfold ofFloat at hm
  split at hm
  · cases hm
  · exact gives_ofSeconds _ _ m hm

/-! ### Any text -/

/-- A bare date is a local time. -/
theorem gives_ofDate (s : List Char) : Gives (ofDate s) WholeMinutes := by
  intro m hm
  suffices hlocal : m.offset = none by
    intro o ho
    rw [hlocal] at ho
    cases ho
  unfold ofDate at hm
  dsimp only at hm
  -- Of all the branches only the innermost gives a moment.
  split at hm
  · split at hm
    · cases hm
    · split at hm
      · cases hm
      · split at hm
        · split at hm
          · cases hm
          · split at hm
            · split at hm
              · split_ifs at hm
                split at hm
                · next hdate =>
                  cases hm
                  exact offset_of_mk? hdate
                · cases hm
              · cases hm
              · cases hm
            · cases hm
        · cases hm
        · cases hm
  · cases hm

/-- A number with a fraction may be written as a text. -/
theorem gives_ofFloatText (x : Float) : Gives (ofFloatText x) WholeMinutes :=
  gives_ofSeconds _ _

/-- **Texts.**  A moment that is read from a text, in whichever form, is at whole minutes from UTC.
    -/
theorem gives_ofText (s : List Char) : Gives (ofText s) WholeMinutes := by
  intro m hm
  -- The three forms are rewritten at once, for no form may be evaluated before it is known.
  cases hread : ofRfc3339? s with
  | some r =>
    rw [ofText, hread] at hm
    exact wholeMinutes_ofRfc3339? (hread.trans (congrArg some hm))
  | none =>
    cases hwhole : wholeText? s with
    | some n =>
      rw [ofText, hread, hwhole] at hm
      dsimp only at hm
      split at hm
      · cases hm
      · cases hm
      · exact gives_ofSeconds n 0 m hm
    | none =>
      cases hfraction : (fractionText? s).map ofFloatText with
      | none =>
        rw [ofText, hread, hwhole, hfraction] at hm
        exact gives_ofDate s m hm
      | some r =>
        obtain ⟨x, -, hx⟩ := Option.map_eq_some_iff.1 hfraction
        cases r with
        | ok a =>
          rw [ofText, hread, hwhole, hfraction] at hm
          exact gives_ofFloatText x m (hx.trans hm)
        | error p =>
          rw [ofText, hread, hwhole, hfraction] at hm
          cases p <;> first | exact gives_ofDate s m hm | cases hm

/-- What a value is refused for does not matter. -/
theorem gives_momentOf {x : Except Problem Moment} (h : ∀ m, x = .ok m → WholeMinutes m) :
    Gives (momentOf x) WholeMinutes := by
  intro m hm
  cases x with
  | error p => cases hm
  | ok m' => exact Except.ok.inj hm ▸ h m' rfl

/-- **Whole minutes.**  Every moment that is read is local or whole minutes from UTC. -/
theorem gives_moment {τ : Type} [Text.Spelled τ] (v : Value τ) : Gives (moment v) WholeMinutes := by
  have hwrong (p : Problem) : Gives (momentOf (.error p)) WholeMinutes := fun m hm => by cases hm
  cases v with
  | text s =>
    rw [moment]
    cases Text.string? s with
    | none => exact fun m hm => by cases hm
    | some t => exact gives_momentOf (gives_ofText t.toList)
  | int n =>
    rw [moment]
    -- A number that does not fit a word is refused, whatever its size.
    split_ifs
    · exact gives_momentOf (gives_ofSeconds n 0)
    · exact hwrong .tooEarly
    · exact hwrong .tooLate
    · exact hwrong .wrongType
  | float x => exact gives_momentOf (gives_ofFloat x)
  | null => exact hwrong .wrongType
  | bool b => exact hwrong .wrongType
  | calendar => exact hwrong .wrongType
  | list items => exact hwrong .wrongType
  | table entries => exact hwrong .wrongType

end LineCensus.Moment
