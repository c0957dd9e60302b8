import LineCensus.Proofs.Json.Bounds
import LineCensus.Proofs.Text.Letter

namespace LineCensus.Json

open Text

/-!
# Texts beyond the limits of the reader

How deep a place in a text lies is told here by a walk over the letters that knows nothing of
values: it counts brackets outside of strings.

* `Level`, `Level.next` — how many brackets are open, and whether in a string.
* `Exceeds` — too many digits in a row, or a bracket that opens where too many are open.
* `Passes` — a part of a text behind which as many brackets are open as before.
* `Follows` — what a reader leaves to read lies as deep as what it began with, and it complains of
  a limit only if the text exceeds it.
* `follows_readValue`, `follows_readItems`, `follows_readMembers` — the readers.
* `exceeds_of_parse` — a whole text.
-/

/-- Where a place in a text is with regard to strings. -/
inductive Site where
  | outside
  | inside
  | escaped
  deriving DecidableEq

/-- A bracket or brace that opens. -/
def isOpening (c : Letter) : Bool := c == '[' || c == '\x7b'

/-- A bracket or brace that closes. -/
def isClosing (c : Letter) : Bool := c == ']' || c == '\x7d'

/-- How deep a place is: the brackets that are open there, and whether it is in a string. -/
structure Level where
  depth : Nat
  site : Site
  deriving DecidableEq

/-- The level behind one more letter. -/
def Level.next (l : Level) (c : Letter) : Level :=
  match l.site with
  | .outside =>
    if c = '"' then { l with site := .inside }
    else if isOpening c then { l with depth := l.depth + 1 }
    else if isClosing c then { l with depth := l.depth - 1 }
    else l
  | .inside =>
    if c = '"' then { l with site := .outside }
    else if c = '\\' then { l with site := .escaped }
    else l
  | .escaped => { l with site := .inside }

/-- The text exceeds a limit: it has a run of digits longer than is read, or, if `depth` brackets
    are open in front of it, a bracket that opens where as many are open as may be. -/
def Exceeds (depth : Nat) (s : Letters) : Excess → Prop
  | .digits count => maxDigits < count ∧ ∃ front digits rest, s = front ++ letters digits ++ rest ∧
      digits.length = count ∧ ∀ c ∈ digits, isDigit c = true
  | .nesting => ∃ front c rest, s = front ++ c :: rest ∧ isOpening c = true ∧
      front.foldl Level.next ⟨depth, .outside⟩ = ⟨maxNesting, .outside⟩

/-! ### Single letters -/

section Single

variable {c : Letter} (depth : Nat)

/-- An opening bracket goes a level deeper. -/
theorem next_opening (h : isOpening c = true) :
    Level.next ⟨depth, .outside⟩ c = ⟨depth + 1, .outside⟩ := by
  have hquote : c ≠ .char '"' := by
    rintro rfl
    exact absurd h (by decide)
  simp only [Level.next, hquote, h, if_false, if_true]

/-- A closing bracket goes back. -/
theorem next_closing (h : isClosing c = true) :
    Level.next ⟨depth, .outside⟩ c = ⟨depth - 1, .outside⟩ := by
  have hquote : c ≠ .char '"' := by
    rintro rfl
    exact absurd h (by decide)
  have hopening : isOpening c = false := by
    simp only [isClosing, Bool.or_eq_true, beq_iff_eq] at h
    rcases h with rfl | rfl <;> rfl
  simp only [Level.next, hquote, hopening, h, Bool.false_eq_true, if_false, if_true]

/-- A letter that neither opens nor closes anything. -/
def IsNeutral (c : Letter) : Prop := c ≠ .char '"' ∧ isOpening c = false ∧ isClosing c = false

instance : DecidablePred IsNeutral := fun _ => inferInstanceAs (Decidable (_ ∧ _))

/-- Such a letter changes nothing. -/
theorem next_neutral (h : IsNeutral c) :
    Level.next ⟨depth, .outside⟩ c = ⟨depth, .outside⟩ := by
  simp only [Level.next, h.1, h.2.1, h.2.2, Bool.false_eq_true, if_false]

/-- In a string only a quotation mark and a backslash change something. -/
theorem next_inside (hq : c ≠ .char '"') (hb : c ≠ .char '\\') :
    Level.next ⟨depth, .inside⟩ c = ⟨depth, .inside⟩ := by
  simp only [Level.next, hq, hb, if_false]

/-- White space neither opens nor closes anything. -/
theorem isNeutral_of_isSpace (h : c.isChar isSpace = true) : IsNeutral c := by
  cases c with
  | surrogate n => cases h
  | char c =>
    simp only [Letter.isChar, isSpace, Bool.or_eq_true, beq_iff_eq] at h
    rcases h with ((rfl | rfl) | rfl) | rfl <;> decide

/-- Nor does a character of a word or of a number. -/
theorem isNeutral_of_isWordChar {c : Char} (h : isWordChar c = true) : IsNeutral (.char c) := by
  have hne (d : Char) (hd : isWordChar d = false) : Letter.char c ≠ .char d := by
    rintro heq
    rw [Letter.char.inj heq, hd] at h
    cases h
  simp only [IsNeutral, isOpening, isClosing, Bool.or_eq_false_iff, beq_eq_false_iff_ne]
  exact ⟨hne '"' (by decide), ⟨hne '[' (by decide), hne '\x7b' (by decide)⟩,
    hne ']' (by decide), hne '\x7d' (by decide)⟩

end Single

/-! ### Parts that leave the level as it is -/

/-- Between the front of `s` and `rest` as many brackets close as open. -/
def Passes (a b : Site) (s rest : Letters) : Prop :=
  ∃ part, s = part ++ rest ∧ ∀ depth, part.foldl Level.next ⟨depth, a⟩ = ⟨depth, b⟩

namespace Passes

variable {a b c : Site} {s t u : Letters}

/-- Nothing at all. -/
theorem refl (a : Site) (s : Letters) : Passes a a s s := ⟨[], rfl, fun _ => rfl⟩

/-- Two parts in a row. -/
theorem trans (h : Passes a b s t) (h' : Passes b c t u) : Passes a c s u := by
  obtain ⟨p, rfl, hp⟩ := h
  obtain ⟨q, rfl, hq⟩ := h'
  refine ⟨p ++ q, (List.append_assoc p q u).symm, fun depth => ?_⟩
  rw [List.foldl_append, hp, hq]

/-- A letter that changes nothing but the site. -/
theorem cons {d : Letter} (hd : ∀ depth, Level.next ⟨depth, a⟩ d = ⟨depth, b⟩)
    (h : Passes b c s t) : Passes a c (d :: s) t :=
  trans ⟨[d], rfl, hd⟩ h

/-- What stands between an opening and a closing bracket. -/
theorem enclosed {d e : Letter} (hd : isOpening d = true) (he : isClosing e = true)
    (h : Passes .outside .outside s (e :: t)) : Passes .outside .outside (d :: s) t := by
  obtain ⟨p, rfl, hp⟩ := h
  refine ⟨d :: (p ++ [e]), by simp, fun depth => ?_⟩
  rw [List.foldl_cons, next_opening depth hd, List.foldl_append, hp, List.foldl_cons,
    next_closing _ he]
  rfl

/-- Letters that neither open nor close anything. -/
theorem neutral (h : ∀ d ∈ s, IsNeutral d) (t : Letters) :
    Passes .outside .outside (s ++ t) t := by
  induction s with
  | nil => exact refl _ t
  | cons d s ih =>
    have hd := h d List.mem_cons_self
    exact cons (fun depth => next_neutral depth hd) (ih fun e he => h e (List.mem_cons_of_mem d he))

/-- White space between tokens. -/
theorem skipSpace (s : Letters) : Passes .outside .outside s (skipSpace s) := by
  have h := neutral (s := s.takeWhile (Letter.isChar isSpace))
    (fun d hd => isNeutral_of_isSpace (List.mem_takeWhile_imp hd)) (Json.skipSpace s)
  rwa [Json.skipSpace, List.takeWhile_append_dropWhile] at h

end Passes

/-! ### Strings -/

section Strings

variable {α : Type} {a b c : Site} {s t : Letters}

/-- A reader that knows no limit goes from one site to another one on the same level. -/
def Lexes (a b : Site) (s : Letters) : Except Fault (α × Letters) → Prop
  | .ok (_, rest) => Passes a b s rest
  | .error f => ∀ e, f.problem ≠ .excess e

/-- What a reader passes over in front belongs to it. -/
theorem Lexes.of_passes (h : Passes a b s t) {x : Except Fault (α × Letters)}
    (hx : Lexes b c t x) : Lexes a c s x := by
  cases x with
  | ok p => exact h.trans hx
  | error f => exact hx

/-- Which letters a string has does not matter. -/
theorem Lexes.consLetter {d : Letter} {x : Except Fault StringRest} (h : Lexes a b s x) :
    Lexes a b s (consLetter d x) := by
  cases x with
  | ok p => exact h
  | error f => exact h

/-- A hexadecimal digit is neither a quotation mark nor a backslash. -/
theorem passes_of_digit? {d : Letter} {n : Nat} (hd : digit? d = some n)
    (h : Passes .inside b s t) : Passes .inside b (d :: s) t := by
  have hne (e : Letter) (he : digit? e = none) : d ≠ e := by
    rintro rfl
    rw [he] at hd
    cases hd
  exact h.cons fun depth => next_inside depth (hne (.char '"') rfl) (hne (.char '\\') rfl)

/-- The digits of an escape are in the string. -/
theorem passes_readUnit? {u : Nat} (h : readUnit? s = some (u, t)) :
    Passes .inside .inside s t := by
  unfold readUnit? at h
  split at h
  · next a b c d r =>
    split at h
    · cases h
    · simp only [Option.map_eq_some_iff, Prod.mk.injEq, unit?, Option.bind_eq_bind,
        Option.bind_eq_some_iff, Option.pure_def] at h
      obtain ⟨_, ⟨_, ha, _, hb, _, hc, _, hd, -⟩, -, rfl⟩ := h
      exact passes_of_digit? ha (passes_of_digit? hb (passes_of_digit? hc
        (passes_of_digit? hd (.refl _ r))))
  · cases h

/-- A backslash and the letter behind it. -/
theorem passes_escape (d : Letter) (h : Passes .inside b s t) :
    Passes .inside b (.char '\\' :: d :: s) t :=
  .cons (b := .escaped) (fun _ => rfl) (h.cons fun _ => rfl)

/-- So is a second escape. -/
theorem passes_readLowSurrogate {v : Nat} (h : readLowSurrogate s = .ok (some (v, t))) :
    Passes .inside .inside s t := by
  unfold readLowSurrogate at h
  split at h
  · split at h
    · cases h
    · split at h
      · cases h
      · next hunit =>
        split at h
        · cases h
          exact passes_escape (.char 'u') (passes_readUnit? hunit)
        · cases h
  · cases h

/-- A bad escape is beyond no limit. -/
theorem readLowSurrogate_error {f : Fault} (h : readLowSurrogate s = .error f) (e : Excess) :
    f.problem ≠ .excess e := by
  unfold readLowSurrogate at h
  split at h
  · split at h
    · cases h
    · split at h
      · cases h
        exact Problem.noConfusion
      · cases h
  · cases h

/-- An escape is read within the string. -/
theorem lexes_readEscape (s : Letters) : Lexes .inside .inside s (readEscape s) := by
  unfold readEscape
  split
  · exact fun e => Problem.noConfusion
  · next u r hunit =>
    have hpasses := passes_readUnit? hunit
    split
    · -- The unit is the first of a pair, so a second escape may belong to it.
      split
      · next f hlow => exact readLowSurrogate_error hlow
      · exact hpasses
      · next v r' hlow => exact hpasses.trans (passes_readLowSurrogate hlow)
    · exact hpasses

/-- **Strings.**  Brackets in a string neither open nor close anything, and a string may be as long
    as it likes. -/
theorem lexes_readString (opening s : Letters) :
    Lexes .inside .outside s (readString opening s) := by
  fun_induction readString opening s with
  | case1 => exact fun e => Problem.noConfusion
  | case2 s => exact .cons (fun _ => rfl) (.refl _ s)
  | case3 => exact fun e => Problem.noConfusion
  | case4 s f hescape _ =>
    have h := lexes_readEscape s
    rw [hescape] at h
    exact h
  | case5 s u r hescape _ _ ih =>
    have h := lexes_readEscape s
    rw [hescape] at h
    exact (ih.of_passes (passes_escape (.char 'u') h)).consLetter
  | case6 d s _ _ _ _ ih => exact (ih.of_passes (passes_escape d (.refl _ s))).consLetter
  | case7 => exact fun e => Problem.noConfusion
  | case8 => exact fun e => Problem.noConfusion
  | case9 d s hq hb _ ih =>
    exact (ih.of_passes (.cons (fun depth => next_inside depth hq hb) (.refl _ s))).consLetter

end Strings

/-! ### Numbers and words -/

section Plain

variable {s t : List Char}

/-- The whole part of a number is its front. -/
theorem eq_append_of_readWhole? {whole : List Char} (h : readWhole? s = some (whole, t)) :
    s = whole ++ t := by
  unfold readWhole? at h
  split at h
  · cases h
    rfl
  · dsimp only at h
    split at h
    · cases h
    · cases h
      exact List.takeWhile_append_dropWhile.symm

/-- A number of too many digits has them in a row. -/
theorem digits_of_readNumber? {e : Excess} (h : readNumber? s = some (.error e, t)) :
    ∃ front digits rest, s = front ++ digits ++ rest ∧ maxDigits < digits.length ∧
      e = .digits digits.length ∧ ∀ c ∈ digits, isDigit c = true := by
  unfold readNumber? at h
  simp only [Option.bind_eq_bind, Option.bind_eq_some_iff] at h
  obtain ⟨⟨whole, r⟩, hwhole, h⟩ := h
  have hdigits := isDigit_of_readWhole? hwhole
  have hsign : ∃ front, s = front ++ whole ++ r := by
    have happend := eq_append_of_readWhole? hwhole
    split at happend
    · exact ⟨['-'], congrArg ('-' :: ·) happend⟩
    · exact ⟨[], happend⟩
  obtain ⟨front, hfront⟩ := hsign
  simp only at h
  split at h
  · simp only [Option.pure_def, Option.some.injEq, Prod.mk.injEq] at h
    obtain ⟨hread, -⟩ := h
    cases hn : readWithin whole with
    | ok n =>
      rw [hn] at hread
      cases hread
    | error e' =>
      rw [hn] at hread
      cases hread
      unfold readWithin at hn
      split at hn
      · next hlong =>
        cases hn
        exact ⟨front, whole, r, hfront, hlong, rfl, hdigits⟩
      · cases hn
  · cases h

/-- Nothing with a fixed meaning is a number of too many digits. -/
theorem readNumber?_of_readWord? {e : Excess} (h : readWord? s = some (.error e, t)) :
    readNumber? s = some (.error e, t) := by
  unfold readWord? at h
  split at h
  · cases h
  · exact h

end Plain

/-- A text begins with its first word. -/
theorem letters_wordFront (s : Letters) :
    letters (wordFront s) ++ s.drop (wordFront s).length = s ∧
      ∀ c ∈ wordFront s, isWordChar c = true := by
  induction s with
  | nil => exact ⟨rfl, fun c hc => nomatch hc⟩
  | cons a s ih =>
    cases a with
    | surrogate n => exact ⟨rfl, fun c hc => nomatch hc⟩
    | char c =>
      cases hc : isWordChar c with
      | false =>
        rw [wordFront, hc]
        exact ⟨rfl, fun c hc => nomatch hc⟩
      | true =>
        rw [wordFront, hc, if_pos rfl]
        exact ⟨congrArg (Letter.char c :: ·) ih.1, List.forall_mem_cons.2 ⟨hc, ih.2⟩⟩

/-- What stands in front of a text on the same level adds nothing to it. -/
theorem Exceeds.of_passes {s t : Letters} {depth : Nat} {e : Excess}
    (h : Passes .outside .outside s t) (he : Exceeds depth t e) : Exceeds depth s e := by
  obtain ⟨part, rfl, hpart⟩ := h
  cases e with
  | digits count =>
    obtain ⟨hcount, front, digits, rest, rfl, hdigits⟩ := he
    exact ⟨hcount, part ++ front, digits, rest, by simp, hdigits⟩
  | nesting =>
    obtain ⟨front, c, rest, rfl, hc, hfront⟩ := he
    exact ⟨part ++ front, c, rest, by simp, hc, by rw [List.foldl_append, hpart, hfront]⟩

/-! ### Values -/

section Follows

variable {α : Type} {after : Letters → Letters → Prop} {depth : Nat} {s t : Letters}

/-- A reader that begins `depth` levels deep and goes on as told, and complains of a limit only if
    the text exceeds it. -/
def Follows (after : Letters → Letters → Prop) (depth : Nat) (s : Letters) :
    Except Fault (α × Letters) → Prop
  | .ok (_, rest) => after s rest
  | .error f => ∀ e, f.problem = .excess e → Exceeds depth s e

/-- A bracket closes in front of the rest, and what stands before it leaves the level as it is. -/
def Closes (s rest : Letters) : Prop :=
  ∃ c, isClosing c = true ∧ Passes .outside .outside s (c :: rest)

/-- What leaves the level as it is may stand in front. -/
theorem Closes.of_passes (h : Passes .outside .outside s t) {rest : Letters}
    (hclose : Closes t rest) : Closes s rest := by
  obtain ⟨c, hc, ht⟩ := hclose
  exact ⟨c, hc, h.trans ht⟩

/-- Brackets that open and close again leave the level as it is. -/
theorem Closes.enclosed {c : Letter} (hc : isOpening c = true) (hclose : Closes s t) :
    Passes .outside .outside (c :: s) t := by
  obtain ⟨d, hd, hs⟩ := hclose
  exact hs.enclosed hc hd

/-- A complaint of anything else says nothing of a limit. -/
theorem follows_error {p : Problem} (hp : ∀ e, p ≠ .excess e) (n : Nat) :
    Follows (α := α) after depth s (.error ⟨p, n⟩) :=
  fun e he => absurd he (hp e)

/-- Words and numbers are neutral, however much of them is read. -/
theorem follows_readPlain (depth : Nat) (s : Letters) :
    Follows (Passes .outside .outside) depth s (readPlain s) := by
  obtain ⟨hfront, hword⟩ := letters_wordFront s
  unfold readPlain
  simp only
  split
  · next v r hr =>
    -- What is read lies within the word at the front.
    have hneutral : ∀ d ∈ s.take ((wordFront s).length - r.length), IsNeutral d := by
      have htake : s.take ((wordFront s).length - r.length) =
          (letters (wordFront s)).take ((wordFront s).length - r.length) :=
        calc s.take ((wordFront s).length - r.length)
          _ = (letters (wordFront s) ++ s.drop (wordFront s).length).take
                ((wordFront s).length - r.length) := by rw [hfront]
          _ = (letters (wordFront s)).take ((wordFront s).length - r.length) :=
            List.take_append_of_le_length (by rw [length_letters]; omega)
      intro d hd
      rw [htake] at hd
      obtain ⟨c, hc, rfl⟩ := List.mem_map.1 (List.mem_of_mem_take hd)
      exact isNeutral_of_isWordChar (hword c hc)
    have h := Passes.neutral hneutral (s.drop ((wordFront s).length - r.length))
    rwa [List.take_append_drop] at h
  · next e r hr =>
    rintro e' ⟨⟩
    obtain ⟨front, digits, rest, heq, hlong, rfl, hdigits⟩ :=
      digits_of_readNumber? (readNumber?_of_readWord? hr)
    refine ⟨hlong, letters front, digits, letters rest ++ s.drop (wordFront s).length, ?_, rfl,
      hdigits⟩
    rw [← List.append_assoc, ← letters_append, ← letters_append, ← heq, hfront]
  · exact follows_error (fun e => Problem.noConfusion) _

/-- The name of a member knows no limit. -/
theorem lexes_readName (s : Letters) : Lexes .outside .outside s (readName s) := by
  unfold readName
  split
  · next r =>
    have hstring := lexes_readString (.char '"' :: r) r
    split
    · next hread =>
      rw [hread] at hstring
      exact hstring
    · next name r' hread =>
      rw [hread] at hstring
      have hname : Passes .outside .outside (.char '"' :: r) (skipSpace r') :=
        .cons (b := .inside) (fun _ => rfl) (hstring.trans (.skipSpace r'))
      split
      · next r'' hcolon =>
        rw [hcolon] at hname
        exact hname.trans (.cons (fun _ => rfl) (.skipSpace r''))
      · exact fun e => Problem.noConfusion
  · exact fun e => Problem.noConfusion

end Follows

/-- Where no more brackets may be open, a bracket that opens is one too many. -/
theorem exceeds_opening {c : Letter} (hc : isOpening c = true) {depth : Nat}
    (hdepth : depth + 0 = maxNesting) (s : Letters) : Exceeds depth (c :: s) .nesting :=
  ⟨[], c, s, rfl, hc, congrArg (Level.mk · .outside) hdepth⟩

/-- Behind an opening bracket the text lies one level deeper. -/
theorem Exceeds.of_opening {c : Letter} (hc : isOpening c = true) {depth : Nat} {e : Excess}
    {s : Letters} (h : Exceeds (depth + 1) s e) : Exceeds depth (c :: s) e := by
  cases e with
  | digits count =>
    obtain ⟨hcount, front, digits, rest, rfl, hdigits⟩ := h
    exact ⟨hcount, c :: front, digits, rest, rfl, hdigits⟩
  | nesting =>
    obtain ⟨front, d, rest, rfl, hd, hfront⟩ := h
    exact ⟨c :: front, d, rest, rfl, hd, by rw [List.foldl_cons, next_opening depth hc, hfront]⟩

mutual

/-- A value goes on on the same level. -/
theorem follows_readValue (fuel : Nat) {depth room : Nat} (hroom : depth + room = maxNesting)
    (s : Letters) :
    Follows (Passes .outside .outside) depth s (readValue fuel room s) := by
  cases fuel with
  | zero => exact follows_error (fun e => Problem.noConfusion) _
  | succ fuel =>
    rw [readValue.eq_def]
    simp only
    -- The front of the text tells a string, a table, a list and a plain value apart.
    split
    · next r =>
      have hstring := lexes_readString (.char '"' :: r) r
      split
      · next hread =>
        rw [hread] at hstring
        exact fun e he => absurd he (hstring e)
      · next hread =>
        rw [hread] at hstring
        exact .cons (b := .inside) (fun _ => rfl) hstring
    · rintro e ⟨⟩
      exact exceeds_opening rfl hroom _
    · rintro e ⟨⟩
      exact exceeds_opening rfl hroom _
    · next room r =>
      have hspace := Passes.skipSpace r
      split
      · next r' hr =>
        rw [hr] at hspace
        exact hspace.enclosed rfl rfl
      · have hmembers := follows_readMembers fuel (show depth + 1 + room = maxNesting by omega)
          (skipSpace r)
        split
        · next hread =>
          rw [hread] at hmembers
          exact fun e he => .of_opening rfl (.of_passes hspace (hmembers e he))
        · next hread =>
          rw [hread] at hmembers
          exact (Closes.of_passes hspace hmembers).enclosed rfl
    · next room r =>
      have hspace := Passes.skipSpace r
      split
      · next r' hr =>
        rw [hr] at hspace
        exact hspace.enclosed rfl rfl
      · have hitems := follows_readItems fuel (show depth + 1 + room = maxNesting by omega)
          (skipSpace r)
        split
        · next hread =>
          rw [hread] at hitems
          exact fun e he => .of_opening rfl (.of_passes hspace (hitems e he))
        · next hread =>
          rw [hread] at hitems
          exact (Closes.of_passes hspace hitems).enclosed rfl
    · exact follows_readPlain depth _

/-- The items of an array end with a bracket that closes. -/
theorem follows_readItems (fuel : Nat) {depth room : Nat} (hroom : depth + room = maxNesting)
    (s : Letters) : Follows Closes depth s (readItems fuel room s) := by
  cases fuel with
  | zero => exact follows_error (fun e => Problem.noConfusion) _
  | succ fuel =>
    rw [readItems]
    have hvalue := follows_readValue fuel hroom s
    split
    · next hread =>
      rw [hread] at hvalue
      exact hvalue
    · next v r hread =>
      rw [hread] at hvalue
      have hspace : Passes .outside .outside s (skipSpace r) := hvalue.trans (.skipSpace r)
      split
      · next hr => exact ⟨.char ']', rfl, hr ▸ hspace⟩
      · next r' hr =>
        rw [hr] at hspace
        have hnext : Passes .outside .outside s (skipSpace r') :=
          hspace.trans (.cons (fun _ => rfl) (.skipSpace r'))
        have hitems := follows_readItems fuel hroom (skipSpace r')
        split
        · next hread' =>
          rw [hread'] at hitems
          exact fun e he => .of_passes hnext (hitems e he)
        · next hread' =>
          rw [hread'] at hitems
          exact Closes.of_passes hnext hitems
      · exact follows_error (fun e => Problem.noConfusion) _

/-- The members of an object end with a brace that closes. -/
theorem follows_readMembers (fuel : Nat) {depth room : Nat} (hroom : depth + room = maxNesting)
    (s : Letters) : Follows Closes depth s (readMembers fuel room s) := by
  cases fuel with
  | zero => exact follows_error (fun e => Problem.noConfusion) _
  | succ fuel =>
    rw [readMembers]
    have hname := lexes_readName s
    -- Each reader starts where the one before has passed, so its error is one of the whole text.
    split
    · next hread =>
      rw [hread] at hname
      exact fun e he => absurd he (hname e)
    · next name r hread =>
      rw [hread] at hname
      have hvalue := follows_readValue fuel hroom r
      split
      · next hread' =>
        rw [hread'] at hvalue
        exact fun e he => .of_passes hname (hvalue e he)
      · next v r' hread' =>
        rw [hread'] at hvalue
        have hspace : Passes .outside .outside s (skipSpace r') :=
          hname.trans (hvalue.trans (.skipSpace r'))
        split
        · next hr => exact ⟨.char '\x7d', rfl, hr ▸ hspace⟩
        · next r'' hr =>
          rw [hr] at hspace
          have hnext : Passes .outside .outside s (skipSpace r'') :=
            hspace.trans (.cons (fun _ => rfl) (.skipSpace r''))
          have hmembers := follows_readMembers fuel hroom (skipSpace r'')
          split
          · next hread'' =>
            rw [hread''] at hmembers
            exact fun e he => .of_passes hnext (hmembers e he)
          · next hread'' =>
            rw [hread''] at hmembers
            exact Closes.of_passes hnext hmembers
        · exact follows_error (fun e => Problem.noConfusion) _

end

/-- **Limits.**  The reader complains of a limit only if the text exceeds it. -/
theorem exceeds_of_parse {s : Letters} {f : Fault} {e : Excess} (h : parse s = .error f)
    (he : f.problem = .excess e) : Exceeds 0 s e := by
  unfold parse at h
  split at h
  · cases h
    cases he
  · have hvalue := follows_readValue (2 * s.length + 2) (Nat.zero_add maxNesting) (skipSpace s)
    split at h
    · next hread =>
      rw [hread] at hvalue
      cases h
      exact .of_passes (.skipSpace s) (hvalue e he)
    · split at h
      · cases h
      · cases h
        cases he

end LineCensus.Json
