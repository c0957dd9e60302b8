import LineCensus.Text.Letter
import Mathlib.Data.String.Basic

namespace LineCensus.Text

/-!
# Letters and characters

* `Letter.code_injective`, `Letter.ofCode_code` — a letter is known by its code point.
* `chars?_eq_some_iff`, `chars?_eq_none_iff`, `string?_eq_some_iff` — the texts without surrogates
  are the strings.
* `hasSplitPair_letters` — nor do strings hold a pair of surrogates.
* `spelling_inj` — a text of any kind is known by its letters.
-/

/-! ### Single letters -/

namespace Letter

/-- No character has the code point of a surrogate. -/
theorem not_surrogate_code (c : Char) : ¬(0xD800 ≤ c.toNat ∧ c.toNat < 0xE000) := by
  intro h
  have hc : c.toNat < 0xD800 ∨ 0xDFFF < c.toNat ∧ c.toNat < 0x110000 := c.valid
  omega

@[simp] theorem ofCode_code (c : Letter) : ofCode c.code = c := by
  cases c with
  | char c => rw [code, ofCode, dif_neg (not_surrogate_code c), Char.ofNat_toNat]
  | surrogate n =>
    have hn := n.isLt
    rw [code, ofCode, dif_pos ⟨by omega, by omega⟩]
    simp only [Nat.add_sub_cancel_left, Fin.eta]

/-- A letter is known by its code point. -/
theorem code_injective : Function.Injective code := fun a b h => by
  rw [← ofCode_code a, h, ofCode_code]

end Letter

/-! ### Characters as letters -/

@[simp] theorem letters_nil : letters [] = [] := rfl

@[simp] theorem letters_cons (c : Char) (s : List Char) :
    letters (c :: s) = .char c :: letters s := rfl

@[simp] theorem letters_append (s t : List Char) : letters (s ++ t) = letters s ++ letters t :=
  List.map_append

@[simp] theorem length_letters (s : List Char) : (letters s).length = s.length := List.length_map _

@[simp] theorem letters_inj {s t : List Char} : letters s = letters t ↔ s = t :=
  ⟨letters_injective, congrArg letters⟩

theorem ofString_injective : Function.Injective ofString := fun _ _ h =>
  String.toList_injective (letters_injective h)

@[simp] theorem ofString_inj {s t : String} : ofString s = ofString t ↔ s = t :=
  ofString_injective.eq_iff

@[simp] theorem ofString_ofList (s : List Char) : ofString (String.ofList s) = letters s := by
  rw [ofString, String.toList_ofList]

/-! ### Texts without surrogates -/

@[simp] theorem chars?_letters (s : List Char) : chars? (letters s) = some s := by
  induction s with
  | nil => rfl
  | cons c s ih => rw [letters_cons, chars?, ih, Option.map_some]

/-- **Texts without surrogates.**  A text has characters if they are its letters. -/
theorem chars?_eq_some_iff {s : Letters} {t : List Char} : chars? s = some t ↔ s = letters t := by
  constructor
  · intro h
    induction s generalizing t with
    | nil => rw [chars?, Option.some_inj] at h; rw [← h, letters_nil]
    | cons a s ih =>
      cases a with
      | char c =>
        rw [chars?, Option.map_eq_some_iff] at h
        obtain ⟨u, hu, rfl⟩ := h
        rw [letters_cons, ih hu]
      | surrogate n => cases h
  · rintro rfl
    exact chars?_letters t

/-- Any other text has a surrogate. -/
theorem chars?_eq_none_iff {s : Letters} : chars? s = none ↔ ∃ n, Letter.surrogate n ∈ s := by
  induction s with
  | nil => exact iff_of_false (Option.some_ne_none _) fun ⟨n, hn⟩ => nomatch hn
  | cons a s ih =>
    cases a with
    | char c =>
      rw [chars?, Option.map_eq_none_iff, ih]
      exact exists_congr fun n => (List.mem_cons.trans (or_iff_right Letter.noConfusion)).symm
    | surrogate n => exact iff_of_true rfl ⟨n, List.mem_cons_self⟩

/-- A string has no surrogates. -/
theorem surrogate_not_mem_ofString (n : Fin 2048) (s : String) :
    Letter.surrogate n ∉ ofString s := by
  intro h
  obtain ⟨c, -, hc⟩ := List.mem_map.1 h
  cases hc

/-- **Strings and other texts.**  A text is a string unless it has a surrogate. -/
theorem exists_ofString_or_surrogate (s : Letters) :
    (∃ t, s = ofString t) ∨ ∃ n, Letter.surrogate n ∈ s := by
  cases h : chars? s with
  | none => exact .inr (chars?_eq_none_iff.1 h)
  | some t => exact .inl ⟨String.ofList t, (chars?_eq_some_iff.1 h).trans (ofString_ofList t).symm⟩

/-! ### Pairs of surrogates -/

/-- A text without a pair has none behind its first letter. -/
theorem hasSplitPair_of_cons {a : Letter} {s : Letters} (h : hasSplitPair (a :: s) = false) :
    hasSplitPair s = false := by
  cases s with
  | nil => rfl
  | cons b s => exact (Bool.or_eq_false_iff.1 h).2

/-- Characters make no pair. -/
@[simp] theorem hasSplitPair_letters (s : List Char) : hasSplitPair (letters s) = false := by
  induction s with
  | nil => rfl
  | cons c s ih =>
    cases s with
    | nil => rfl
    | cons d s =>
      rw [letters_cons, letters_cons, hasSplitPair, Letter.isHigh, Bool.false_and, Bool.false_or]
      exact ih

@[simp] theorem hasSplitPair_ofString (s : String) : hasSplitPair (ofString s) = false :=
  hasSplitPair_letters s.toList

/-! ### Kinds of text -/

@[simp] theorem ofString_string (s : String) : (Spelled.ofString s : String) = s := rfl

@[simp] theorem ofString_letters (s : String) : (Spelled.ofString s : Letters) = ofString s := rfl

@[simp] theorem spelling_string (s : String) : Spelled.spelling s = ofString s := rfl

@[simp] theorem spelling_letters (s : Letters) : Spelled.spelling s = s := rfl

section Kinds

variable {τ : Type} [Spelled τ]

/-- A text of any kind is known by its letters. -/
theorem spelling_inj {s t : τ} : Spelled.spelling s = Spelled.spelling t ↔ s = t :=
  ⟨Spelled.spelling_injective, congrArg Spelled.spelling⟩

@[simp] theorem spelling_ofString (s : String) :
    Spelled.spelling (Spelled.ofString s : τ) = ofString s := Spelled.spelling_ofString s

/-- A text without surrogates is a string. -/
theorem string?_eq_some_iff {s : τ} {t : String} : string? s = some t ↔ s = Spelled.ofString t := by
  rw [string?, Option.map_eq_some_iff, ← spelling_inj, spelling_ofString]
  simp only [chars?_eq_some_iff]
  constructor
  · rintro ⟨u, hu, rfl⟩
    rw [hu, ofString_ofList]
  · intro h
    exact ⟨t.toList, h, String.ofList_toList⟩

@[simp] theorem string?_ofString (s : String) : string? (Spelled.ofString s : τ) = some s :=
  string?_eq_some_iff.2 rfl

end Kinds

end LineCensus.Text
