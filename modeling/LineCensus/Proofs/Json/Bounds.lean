import LineCensus.Json.Parser
import LineCensus.Proofs.Schema.Bounds

namespace LineCensus.Json

open Text Schema

/-!
# Bounds of parsed values

* `bounded_readNumber?`, `bounded_readWord?` — numbers and words.
* `gives_readValue`, `gives_readItems`, `gives_readMembers` — a value, the items of an array and the
  members of an object.
* `bounded_parse` — no number in the value of a text has more digits than are read.
-/

/-! ### Words and numbers -/

/-- What is read within the limit has no more digits than the limit. -/
theorem short_of_readWithin {digits : List Char} {n : Nat} (hd : ∀ c ∈ digits, isDigit c = true)
    (h : readWithin digits = .ok n) : Short n := by
  unfold readWithin at h
  split at h
  · cases h
  · cases h
    exact short_readDigits hd (by omega)

/-- The whole part of a number is made of digits. -/
theorem isDigit_of_readWhole? {s whole rest : List Char} (h : readWhole? s = some (whole, rest)) :
    ∀ c ∈ whole, isDigit c = true := by
  unfold readWhole? at h
  split at h
  · cases h
    exact List.forall_mem_singleton.2 rfl
  · simp only at h
    split at h
    · cases h
    · cases h
      exact fun c hc => List.mem_takeWhile_imp hc

/-- A number is within the limit, or it is no whole one. -/
theorem bounded_readNumber? {s rest : List Char} {v : Value Letters}
    (h : readNumber? s = some (.ok v, rest)) : Bounded v := by
  unfold readNumber? at h
  simp only [Option.bind_eq_bind, Option.bind_eq_some_iff] at h
  obtain ⟨⟨whole, r⟩, hwhole, h⟩ := h
  have hdigits := isDigit_of_readWhole? hwhole
  simp only at h
  split at h
  · simp only [Option.pure_def, Option.some.injEq, Prod.mk.injEq] at h
    obtain ⟨hv, -⟩ := h
    cases hn : readWithin whole with
    | error e =>
      rw [hn] at hv
      cases hv
    | ok n =>
      have hshort := short_of_readWithin hdigits hn
      rw [hn] at hv
      cases hv
      apply Bounded.int
      split <;> simpa using hshort
  · cases h
    exact .float _

/-- The words with a fixed meaning are no whole numbers, so only the digits of a number count. -/
theorem bounded_readWord? {s rest : List Char} {v : Value Letters}
    (h : readWord? s = some (.ok v, rest)) : Bounded v := by
  unfold readWord? at h
  split at h
  · next hp =>
    cases h
    obtain ⟨e, he, hword⟩ := List.exists_of_findSome?_eq_some hp
    rw [Option.map_eq_some_iff] at hword
    obtain ⟨r, -, hr⟩ := hword
    cases hr
    simp only [literals, List.mem_cons, List.not_mem_nil, or_false] at he
    rcases he with rfl | rfl | rfl | rfl | rfl | rfl
    · exact .null
    · exact .bool true
    · exact .bool false
    · exact .float _
    · exact .float _
    · exact .float _
  · exact bounded_readNumber? h

/-- So it is with a word or a number in a text. -/
theorem bounded_readPlain {s rest : Letters} {v : Value Letters}
    (h : readPlain s = .ok (v, rest)) : Bounded v := by
  unfold readPlain at h
  simp only at h
  split at h
  · next hword =>
    cases h
    exact bounded_readWord? hword
  · cases h
  · cases h

/-! ### Values -/

mutual

/-- The values that a reader gives are bounded. -/
theorem gives_readValue (fuel room : Nat) (s : Letters) :
    Gives (readValue fuel room s) fun p => Bounded p.1 := by
  intro p hp
  cases fuel with
  | zero => cases hp
  | succ fuel =>
    rw [readValue.eq_def] at hp
    simp only at hp
    -- The front of the text tells a string, a table, a list and a plain value apart.
    split at hp
    · split at hp
      · cases hp
      · cases hp
        exact .text _
    · cases hp
    · cases hp
    · split at hp
      · cases hp
        exact .table (List.forall_mem_nil _)
      · split at hp
        · cases hp
        · next hmembers =>
          cases hp
          have h := gives_readMembers fuel _ _ _ hmembers
          exact .table fun e he => h e (Table.mem_of_mem_ofList he)
    · split at hp
      · cases hp
        exact .list (List.forall_mem_nil _)
      · split at hp
        · cases hp
        · next hitems =>
          cases hp
          exact .list (gives_readItems fuel _ _ _ hitems)
    · obtain ⟨v, rest⟩ := p
      exact bounded_readPlain hp

/-- So are the items of an array. -/
theorem gives_readItems (fuel room : Nat) (s : Letters) :
    Gives (readItems fuel room s) fun p => ∀ v ∈ p.1, Bounded v := by
  intro p hp
  cases fuel with
  | zero => cases hp
  | succ fuel =>
    rw [readItems] at hp
    split at hp
    · cases hp
    · next hvalue =>
      have hv := gives_readValue fuel _ _ _ hvalue
      split at hp
      · cases hp
        exact List.forall_mem_singleton.2 hv
      · split at hp
        · cases hp
        · next hitems =>
          cases hp
          exact List.forall_mem_cons.2 ⟨hv, gives_readItems fuel _ _ _ hitems⟩
      · cases hp

/-- So are the members of an object, whichever of those with one name counts. -/
theorem gives_readMembers (fuel room : Nat) (s : Letters) :
    Gives (readMembers fuel room s) fun p => ∀ e ∈ p.1, Bounded e.2 := by
  intro p hp
  cases fuel with
  | zero => cases hp
  | succ fuel =>
    rw [readMembers] at hp
    split at hp
    · cases hp
    · split at hp
      · cases hp
      · next hvalue =>
        have hv := gives_readValue fuel _ _ _ hvalue
        split at hp
        · cases hp
          exact List.forall_mem_singleton.2 hv
        · split at hp
          · cases hp
          · next hmembers =>
            cases hp
            exact List.forall_mem_cons.2 ⟨hv, gives_readMembers fuel _ _ _ hmembers⟩
        · cases hp

end

/-- **Parsed values are bounded.**  No whole number in the value of a text has more digits than are
    read. -/
theorem bounded_parse {s : Letters} {v : Value Letters} (h : parse s = .ok v) : Bounded v := by
  unfold parse at h
  split at h
  · cases h
  · split at h
    · cases h
    · next hvalue =>
      split at h
      · cases h
        exact gives_readValue _ _ _ _ hvalue
      · cases h

end LineCensus.Json
