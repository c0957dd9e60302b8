import LineCensus.Proofs.Text.Letter
import LineCensus.Proofs.Xml.Content

namespace LineCensus.Xml

open Text

/-!
# Elements read back

* `IsTag`, `Tagged` — tags that stand in a document as they are.
* `Element.clean` — no text in the element has a character that may not stand in a document.
* `Element.reread` — what is read from the text of an element: white space stands between the
  elements in it, and its texts are kept.
* `Element.chars`, `writeAt_eq_letters` — the characters in which an element is written.
* `readElement_of_content` — an element is read as its content is.
* `readContent_children` — the elements in an element are read up to its end tag.
* `Tagged.readsBack` — a clean element is read back, and the reader stops at one that is not clean.
-/

/-! ### Tags -/

/-- A name without a colon, which is written and read as it is. -/
def IsTag (tag : String) : Prop :=
  (tag.toList.head?.any isNameStart && tag.toList.all isNameChar) = true

instance (tag : String) : Decidable (IsTag tag) := inferInstanceAs (Decidable (_ = true))

/-- The tags of the element and of all elements in it are names. -/
inductive Tagged : Element → Prop where
  | mk {tag text : String} {children : List Element} (htag : IsTag tag)
      (h : ∀ e ∈ children, Tagged e) : Tagged (.mk tag text children)

/-- The characters of a tag. -/
theorem IsTag.eq_cons {tag : String} (h : IsTag tag) :
    ∃ c s, tag.toList = c :: s ∧ isNameStart c = true ∧ ∀ d ∈ c :: s, isNameChar d = true := by
  rw [IsTag] at h
  cases ht : tag.toList with
  | nil =>
    rw [ht] at h
    cases h
  | cons c s =>
    rw [ht, List.head?_cons, Option.any_some, Bool.and_eq_true, List.all_eq_true] at h
    exact ⟨c, s, rfl, h.1, h.2⟩

/-- A name ends in front of what is no part of one. -/
def EndsName (s : List Char) : Prop := ∀ c ∈ s.head?, isNameChar c = false ∧ c ≠ ':'

/-- So it does in front of such a character. -/
theorem endsName_cons {c : Char} (h : isNameChar c = false ∧ c ≠ ':') (s : List Char) :
    EndsName (c :: s) := by
  intro d hd
  cases hd
  exact h

/-- A tag is read up to its end. -/
theorem readName?_tag {tag : String} (h : IsTag tag) {r : List Char} (hr : EndsName r) :
    readName? (tag.toList ++ r) = some (⟨[], tag.toList⟩, r) := by
  obtain ⟨c, s, ht, hc, hall⟩ := h.eq_cons
  have hs : ∀ d ∈ s, isNameChar d = true := fun d hd => hall d (List.mem_cons_of_mem c hd)
  -- The characters of the name go on up to `r`, and no colon makes it a prefix.
  have hplain : readPlainName? (tag.toList ++ r) = some (tag.toList, r) := by
    rw [ht, List.cons_append, readPlainName?, if_pos hc, List.takeWhile_append_of_pos hs,
      List.dropWhile_append_of_pos hs]
    cases r with
    | nil => simp
    | cons e r =>
      have he := (hr e rfl).1
      rw [List.takeWhile_cons_of_neg (by rw [he]; decide),
        List.dropWhile_cons_of_neg (by rw [he]; decide), List.append_nil]
  rw [readName?, hplain]
  cases r with
  | nil => rfl
  | cons e r =>
    have he := (hr e rfl).2
    simp only [Option.bind_eq_bind, Option.bind_some]
    split
    · next heq => exact absurd (List.cons.inj heq).1 he
    · rfl

/-! ### Elements as they are read -/

mutual

/-- No text in the element has a character that may not stand in a document. -/
def Element.clean : Element → Bool
  | .mk _ text children => if children.isEmpty then text.toList.all isChar else cleanAll children

/-- No text in the elements has such a character. -/
def cleanAll : List Element → Bool
  | [] => true
  | e :: es => e.clean && cleanAll es

end

/-- The white space around the elements in an element `depth` levels deep. -/
def spacing (depth : Nat) : List Element → List Char
  | [] => lineBreak depth
  | _ :: es => lineBreak (depth + 1) ++ spacing depth es

mutual

/-- The element that is read from the text of an element `depth` levels deep. -/
def Element.reread (depth : Nat) : Element → Element
  | .mk tag text children =>
    if children.isEmpty then .mk tag text []
    else .mk tag (String.ofList (spacing depth children)) (rereadAll (depth + 1) children)

/-- The elements that are read from the texts of elements. -/
def rereadAll (depth : Nat) : List Element → List Element
  | [] => []
  | e :: es => e.reread depth :: rereadAll depth es

end

/-! ### Single elements -/

section Element

variable {d : Doctype} {opened : List (List Char)}

/-- What is there is read without a store. -/
theorem liftM_some {α : Type} (a : α) : (liftM (some a) : Reading α) = pure a := rfl

/-- What follows the start tag of an element with no attributes. -/
theorem enterScope?_start (hd : d.rules = []) (name : Name) :
    enterScope? .start (d.complete name []) = some .start := by
  rw [Doctype.complete, hd]
  rfl

/-- There are no attributes in front of a slash. -/
theorem readAttributes_slash (name : Name) (fuel : Nat) (r : List Char) :
    readAttributes d name (fuel + 1) (' ' :: '/' :: r) = pure ([], '/' :: r) := rfl

/-- Nor are there any in front of a bracket that closes. -/
theorem readAttributes_close (name : Name) (fuel : Nat) (r : List Char) :
    readAttributes d name (fuel + 1) ('>' :: r) = pure ([], '>' :: r) := rfl

/-- A tag without a prefix belongs to no namespace where none is declared. -/
theorem expandTag?_start (tag : String) :
    Scope.start.expandTag? ⟨[], tag.toList⟩ = some tag.toList := rfl

/-- An element with nothing in it is read from its only tag. -/
theorem readElement_empty (hd : d.rules = []) {tag : String} (h : IsTag tag) (fuel : Nat)
    (rest : List Char) :
    readElement d opened .start (fuel + 2) (tag.toList ++ " />".toList ++ rest) =
      pure (.mk tag "" [], rest) := by
  have hname : readName? (tag.toList ++ " />".toList ++ rest) =
      some (⟨[], tag.toList⟩, ' ' :: '/' :: '>' :: rest) := by
    rw [List.append_assoc]
    exact readName?_tag h (endsName_cons (by decide) _)
  rw [readElement, hname]
  simp only [liftM_some, pure_bind, readAttributes_slash, enterScope?_start hd, expandTag?_start,
    String.ofList_toList]

/-- An element is read as its content is, up to its end tag. -/
theorem readElement_of_content (hd : d.rules = []) {tag : String} (h : IsTag tag) {fuel : Nat}
    {s rest text : List Char} {children : List Element} {ok : Bool}
    (hcontent : readContent d opened .start (fuel + 1) s =
      if ok then pure ((text, children), '<' :: '/' :: (tag.toList ++ '>' :: rest))
      else failure) :
    readElement d opened .start (fuel + 2) (tag.toList ++ '>' :: s) =
      if ok then pure (.mk tag (String.ofList text) children, rest) else failure := by
  have hopen : readName? (tag.toList ++ '>' :: s) = some (⟨[], tag.toList⟩, '>' :: s) :=
    readName?_tag h (endsName_cons (by decide) _)
  have hclose : readName? (tag.toList ++ '>' :: rest) = some (⟨[], tag.toList⟩, '>' :: rest) :=
    readName?_tag h (endsName_cons (by decide) _)
  have hslash : dropStart? ['<', '/'] ('<' :: '/' :: (tag.toList ++ '>' :: rest)) =
      some (tag.toList ++ '>' :: rest) := rfl
  have hend : dropStart? ['>'] (skipSpace ('>' :: rest)) = some rest := rfl
  rw [readElement, hopen]
  simp only [liftM_some, pure_bind, readAttributes_close, enterScope?_start hd, expandTag?_start,
    String.ofList_toList, hcontent]
  cases ok with
  | false => rfl
  | true =>
    simp only [if_true, pure_bind, hslash, liftM_some, hclose, hend]

end Element

/-! ### Whole elements -/

mutual

/-- The characters of an element `depth` levels deep. -/
def Element.chars (depth : Nat) : Element → List Char
  | .mk tag text children =>
    let close := '<' :: '/' :: (tag.toList ++ ['>'])
    if children.isEmpty then
      if text.isEmpty then '<' :: (tag.toList ++ " />".toList)
      else '<' :: (tag.toList ++ '>' :: (text.toList.flatMap writeChar ++ close))
    else '<' :: (tag.toList ++ '>' :: (childrenChars (depth + 1) children ++
      (lineBreak depth ++ close)))

/-- The characters of elements, each on a line of its own. -/
def childrenChars (depth : Nat) : List Element → List Char
  | [] => []
  | e :: es => lineBreak depth ++ (e.chars depth ++ childrenChars depth es)

end

/-- The characters of a text are written one by one. -/
theorem flatMap_writeLetter_letters (s : List Char) :
    (letters s).flatMap writeLetter = letters (s.flatMap writeChar) := by
  induction s with
  | nil => rfl
  | cons c s ih => rw [letters_cons, List.flatMap_cons, List.flatMap_cons, letters_append, ih]; rfl

/-- A string is empty if its letters are. -/
theorem isEmpty_ofString (s : String) : (ofString s).isEmpty = s.isEmpty := by
  rw [Bool.eq_iff_iff, List.isEmpty_iff, String.isEmpty_iff]
  exact ofString_inj (t := "")

mutual

/-- **Written elements.**  An element of strings is written in characters. -/
theorem writeAt_eq_letters (depth : Nat) (e : Element) :
    e.writeAt depth = letters (e.chars depth) := by
  obtain ⟨tag, text, children⟩ := e
  have hchildren := writeChildren_eq_letters (depth + 1) children
  rw [Element.writeAt, Element.chars]
  simp only [spelling_string, isEmpty_ofString]
  split
  · split
    · simp only [bracketed, ofString, ← letters_append]
      rfl
    · simp only [bracketed, ofString, flatMap_writeLetter_letters, ← letters_append]
      congr 1
      simp
  · simp only [bracketed, ofString, hchildren, ← letters_append]
    congr 1
    simp

/-- So are the elements in it. -/
theorem writeChildren_eq_letters (depth : Nat) (es : List Element) :
    writeChildren depth es = letters (childrenChars depth es) := by
  cases es with
  | nil => rfl
  | cons e es =>
    rw [writeChildren, writeAt_eq_letters depth e, writeChildren_eq_letters depth es, childrenChars,
      letters_append, letters_append, List.append_assoc]

end

/-- Wherever the element is written, what is read behind the opening bracket of its text is the
    element, if it is clean. -/
def ReadsBack (e : Element) : Prop :=
  ∀ {d : Doctype}, d.rules = [] → ∀ (opened : List (List Char)) (depth fuel : Nat)
    (rest : List Char), (e.chars depth).length ≤ fuel →
      readElement d opened .start fuel ((e.chars depth).tail ++ rest) =
        if e.clean then pure (e.reread depth, rest) else failure

/-- An element with nothing in it has one tag. -/
theorem chars_empty (tag : String) (depth : Nat) :
    (Element.mk tag "" []).chars depth = '<' :: (tag.toList ++ " />".toList) := rfl

/-- An element with a text has it between its tags. -/
theorem chars_text (tag : String) (depth : Nat) {text : String} (h : text ≠ "") :
    (Element.mk tag text []).chars depth = '<' :: (tag.toList ++ '>' ::
      (text.toList.flatMap writeChar ++ '<' :: '/' :: (tag.toList ++ ['>']))) := by
  have hne : text.isEmpty = false := by simpa using h
  rw [Element.chars, if_pos List.isEmpty_nil, hne, if_neg Bool.false_ne_true]

/-- An element with elements in it has them between its tags. -/
theorem chars_children (tag : String) (depth : Nat) (text : String) (e : Element)
    (es : List Element) :
    (Element.mk tag text (e :: es)).chars depth = '<' :: (tag.toList ++ '>' ::
      (childrenChars (depth + 1) (e :: es) ++
        (lineBreak depth ++ '<' :: '/' :: (tag.toList ++ ['>'])))) := by
  rw [Element.chars, List.isEmpty_cons, if_neg Bool.false_ne_true]

/-- The text of an element begins with its tag. -/
theorem Tagged.chars_eq_cons {e : Element} (h : Tagged e) (depth : Nat) :
    ∃ c s, e.chars depth = '<' :: c :: s ∧ isNameStart c = true := by
  cases h with
  | @mk tag text children htag h =>
    obtain ⟨c, s, ht, hc, -⟩ := htag.eq_cons
    rw [Element.chars]
    split
    · split <;>
      · rw [ht]
        exact ⟨c, _, rfl, hc⟩
    · rw [ht]
      exact ⟨c, _, rfl, hc⟩

/-- Behind an opening bracket and the start of a name the reader goes on with an element. -/
theorem readContent_child {d : Doctype} {opened : List (List Char)} {scope : Scope} (fuel : Nat)
    {c : Char} (h : isNameStart c = true) (s : List Char) :
    readContent d opened scope (fuel + 1) ('<' :: c :: s) = (do
      let (e, r) ← readElement d opened scope fuel (c :: s)
      let ((text, children), rest) ← readContent d opened scope fuel r
      return ((text, e :: children), rest)) := by
  have hne (m : Char) (hm : isNameStart m = false) : ∀ r, c :: s = m :: r → False := by
    intro r heq
    rw [(List.cons.inj heq).1, hm] at h
    cases h
  -- All other markup begins with a mark that no name begins with.
  have hslash := hne '/' (by decide)
  have hmark := hne '!' (by decide)
  have hquestion := hne '?' (by decide)
  rw [readContent]
  · exact hslash
  · exact fun r => hmark _
  · exact hquestion
  · exact hmark

/-! ### Elements in an element -/

/-- White space is written as it is. -/
theorem isOrdinary_of_mem_lineBreak {depth : Nat} {c : Char} (h : c ∈ lineBreak depth) :
    isOrdinary c = true := by
  rcases List.mem_cons.1 h with rfl | h
  · rfl
  · rw [(List.mem_replicate.1 h).2]
    rfl

/-- White space may stand in a document. -/
theorem isChar_lineBreak (depth : Nat) : (lineBreak depth).all isChar = true := by
  rw [lineBreak, List.all_cons, List.all_replicate]
  split <;> rfl

/-- A line break before markup is kept as text. -/
theorem readContent_lineBreak {d : Doctype} {opened : List (List Char)} {scope : Scope}
    (depth fuel : Nat) (s : List Char) :
    readContent d opened scope (fuel + 1) (lineBreak depth ++ '<' :: s) =
      prepend (lineBreak depth) <$> readContent d opened scope fuel ('<' :: s) := by
  have hends : EndsRun ('<' :: s) := by
    intro c hc
    cases hc
    rfl
  have hne : lineBreak depth ≠ [] := List.cons_ne_nil _ _
  rw [readContent_run hne (fun c hc => isOrdinary_of_mem_lineBreak hc) hends, isChar_lineBreak,
    if_pos rfl]

/-- A line break is not empty. -/
theorem length_lineBreak_pos (depth : Nat) : 0 < (lineBreak depth).length := Nat.succ_pos _

/-- **Elements in an element.**  They are read up to its end tag if all of them are clean, with the
    white space between them. -/
theorem readContent_children {d : Doctype} (hd : d.rules = []) (opened : List (List Char))
    (depth : Nat) {es : List Element} (h : ∀ e ∈ es, Tagged e ∧ ReadsBack e) (fuel : Nat)
    (rest : List Char)
    (hfuel : (childrenChars (depth + 1) es ++ lineBreak depth).length < fuel) :
    readContent d opened .start fuel
        (childrenChars (depth + 1) es ++ (lineBreak depth ++ '<' :: '/' :: rest)) =
      if cleanAll es then pure ((spacing depth es, rereadAll (depth + 1) es), '<' :: '/' :: rest)
      else failure := by
  have hpos := length_lineBreak_pos depth
  -- By induction on the elements: each takes a step for its line break and one for itself.
  induction es generalizing fuel with
  | nil =>
    rw [childrenChars, List.nil_append] at hfuel ⊢
    obtain ⟨fuel, rfl⟩ : ∃ f, fuel = f + 2 := ⟨fuel - 2, by omega⟩
    rw [readContent_lineBreak, readContent_close]
    simp only [map_pure, prepend, List.append_nil, cleanAll, if_true, spacing, rereadAll]
  | cons e es ih =>
    have htagged := (h e List.mem_cons_self).1
    obtain ⟨c, s, hs, hc⟩ := htagged.chars_eq_cons (depth + 1)
    have hbreak := length_lineBreak_pos (depth + 1)
    have hlength := congrArg List.length hs
    rw [List.length_cons, List.length_cons] at hlength
    rw [childrenChars, List.append_assoc, List.append_assoc, List.length_append,
      List.length_append] at hfuel
    obtain ⟨fuel, rfl⟩ : ∃ f, fuel = f + 2 := ⟨fuel - 2, by omega⟩
    have helement := (h e List.mem_cons_self).2 hd opened (depth + 1) fuel
      (childrenChars (depth + 1) es ++ (lineBreak depth ++ '<' :: '/' :: rest)) (by omega)
    have hrest := ih (fun e' he' => h e' (List.mem_cons_of_mem e he')) fuel (by omega)
    rw [hs, List.tail_cons, List.cons_append] at helement
    rw [childrenChars, List.append_assoc, List.append_assoc, hs, List.cons_append,
      List.cons_append, readContent_lineBreak, readContent_child fuel hc, helement]
    cases hclean : e.clean with
    | false =>
      simp only [cleanAll, hclean, Bool.false_and, Bool.false_eq_true, if_false, failure_bind,
        map_failure]
    | true =>
      simp only [if_true, pure_bind, hrest, cleanAll, hclean, Bool.true_and]
      cases cleanAll es with
      | false => rfl
      | true =>
        simp only [if_true, pure_bind, map_pure, prepend, spacing, rereadAll]

/-- **Elements are read back.**  An element is read from its text if it is clean; the reader stops
    at one that is not. -/
theorem Tagged.readsBack {e : Element} (h : Tagged e) : ReadsBack e := by
  -- By induction on what makes the tags names: it tells the elements in the element apart.
  induction h with
  | @mk tag text children htag hchildren ih =>
    intro d hd opened depth fuel rest hfuel
    cases children with
    | nil =>
      by_cases hne : text = ""
      · subst hne
        have hclean : (Element.mk tag "" []).clean = true := rfl
        have hlength : (" />".toList).length = 3 := rfl
        rw [chars_empty, List.length_cons, List.length_append, hlength] at hfuel
        obtain ⟨fuel, rfl⟩ : ∃ f, fuel = f + 2 := ⟨fuel - 2, by omega⟩
        rw [hclean, if_pos rfl]
        exact readElement_empty hd htag fuel rest
      · rw [chars_text tag depth hne] at hfuel ⊢
        simp only [List.length_cons, List.length_append] at hfuel
        obtain ⟨fuel, rfl⟩ : ∃ f, fuel = f + 2 := ⟨fuel - 2, by omega⟩
        have hcontent := @readContent_text d opened .start text.toList (tag.toList ++ '>' :: rest)
          (fuel + 1) (by omega)
        have helement := readElement_of_content hd htag hcontent
        simpa [Element.clean, Element.reread] using helement
    | cons e es =>
      rw [chars_children] at hfuel ⊢
      simp only [List.length_cons, List.length_append] at hfuel
      obtain ⟨fuel, rfl⟩ : ∃ f, fuel = f + 2 := ⟨fuel - 2, by omega⟩
      have hcontent := readContent_children hd opened depth
        (fun c hc => ⟨hchildren c hc, ih c hc⟩) (fuel + 1) (tag.toList ++ '>' :: rest)
        (by rw [List.length_append]; omega)
      have helement := readElement_of_content hd htag hcontent
      simpa [Element.clean, Element.reread] using helement

end LineCensus.Xml
