import LineCensus.Proofs.Xml.Elements

namespace LineCensus.Xml

open Text

/-!
# Documents read back

A document is read with every kind of line end as a line feed, so its texts are, too.

* `Element.unified` — the element with the line ends of its texts unified.
* `Tagged.unifyNewlines_chars` — the lines of a written element are those of its texts.
* `readDocument_write`, `parse?_document` — the root of a document is read back if it is clean, and
  the document is refused otherwise.
-/

/-! ### Line ends -/

mutual

/-- The element with all line ends in its texts as line feeds. -/
def Element.unified : Element → Element
  | .mk tag text children =>
    .mk tag (String.ofList (unifyNewlines text.toList)) (unifiedAll children)

/-- The elements with all line ends in their texts as line feeds. -/
def unifiedAll : List Element → List Element
  | [] => []
  | e :: es => e.unified :: unifiedAll es

end

/-- A reference has no line end in it. -/
theorem not_mem_writeChar {c : Char} (h : c ≠ '\r') : '\r' ∉ writeChar c := by
  by_cases hc : isOrdinary c = true
  · rw [writeChar_of_isOrdinary hc, List.mem_singleton]
    exact Ne.symm h
  · rcases eq_of_isOrdinary_eq_false (by simpa using hc) with rfl | rfl | rfl <;> decide

/-- A written text begins with a line feed only if the text does. -/
theorem head?_flatMap_writeChar {s : List Char} (h : ∀ t, s = '\n' :: t → False) :
    (s.flatMap writeChar).head? ≠ some '\n' := by
  cases s with
  | nil =>
    intro heq
    cases heq
  | cons c s =>
    have hc : c ≠ '\n' := by
      rintro rfl
      exact h s rfl
    rw [List.flatMap_cons]
    by_cases hord : isOrdinary c = true
    · rw [writeChar_of_isOrdinary hord, List.singleton_append, List.head?_cons]
      exact fun heq => hc (Option.some.inj heq)
    · rcases eq_of_isOrdinary_eq_false (by simpa using hord) with rfl | rfl | rfl <;>
        · intro heq
          cases heq

/-- Writing a text and unifying its line ends may change places. -/
theorem unifyNewlines_flatMap_writeChar (t : List Char) :
    unifyNewlines (t.flatMap writeChar) = (unifyNewlines t).flatMap writeChar := by
  -- Neither character of a line end is written as a reference, and no reference begins with one.
  fun_induction unifyNewlines t with
  | case1 => rfl
  | case2 s ih => exact congrArg ('\n' :: ·) ih
  | case3 s hs ih =>
    have hreturn : writeChar '\r' = ['\r'] := rfl
    rw [List.flatMap_cons, hreturn, List.singleton_append,
      unifyNewlines_return (head?_flatMap_writeChar hs), ih]
    rfl
  | case4 c s _ hc ih =>
    rw [List.flatMap_cons, unifyNewlines_append_of_not_mem (not_mem_writeChar hc), ih,
      List.flatMap_cons]

/-- No tag has a line end in it. -/
theorem IsTag.not_mem {tag : String} (h : IsTag tag) : '\r' ∉ tag.toList := by
  obtain ⟨c, s, ht, -, hall⟩ := h.eq_cons
  rw [ht]
  intro hmem
  exact absurd (hall _ hmem) (by decide)

/-- White space between elements has no carriage returns. -/
theorem not_mem_lineBreak (depth : Nat) : '\r' ∉ lineBreak depth := by
  rw [lineBreak, List.mem_cons, List.mem_replicate, not_or]
  exact ⟨by decide, fun h => absurd h.2 (by decide)⟩

/-- The lines of the elements in an element are those of each. -/
theorem unifyNewlines_childrenChars {es : List Element}
    (h : ∀ e ∈ es, ∀ depth s, unifyNewlines (e.chars depth ++ s) =
      e.unified.chars depth ++ unifyNewlines s) (depth : Nat) (s : List Char) :
    unifyNewlines (childrenChars depth es ++ s) =
      childrenChars depth (unifiedAll es) ++ unifyNewlines s := by
  induction es with
  | nil => rfl
  | cons e es ih =>
    have hrest := ih fun e' he' => h e' (List.mem_cons_of_mem e he')
    simp only [childrenChars, unifiedAll, List.append_assoc,
      unifyNewlines_append_of_not_mem (not_mem_lineBreak depth), h e List.mem_cons_self, hrest]

/-- **Line ends.**  The lines of a written element are those of its texts. -/
theorem Tagged.unifyNewlines_chars {e : Element} (h : Tagged e) (depth : Nat) (s : List Char) :
    unifyNewlines (e.chars depth ++ s) = e.unified.chars depth ++ unifyNewlines s := by
  induction h generalizing depth s with
  | @mk tag text children htag _ ih =>
    -- Nothing but the texts has a carriage return in it.
    have hmark {c : Char} (hc : c ≠ '\r' := by decide) (t : List Char) :
        unifyNewlines (c :: t) = c :: unifyNewlines t := unifyNewlines_cons hc t
    have hname := unifyNewlines_append_of_not_mem htag.not_mem
    have hclose (t : List Char) : unifyNewlines ('<' :: '/' :: (tag.toList ++ '>' :: t)) =
        '<' :: '/' :: (tag.toList ++ '>' :: unifyNewlines t) := by
      rw [hmark, hmark, hname, hmark]
    cases children with
    | nil =>
      by_cases hempty : text = ""
      · subst hempty
        have hslash : '\r' ∉ " />".toList := by decide
        have hnone : String.ofList (unifyNewlines "".toList) = "" := rfl
        rw [Element.unified, hnone, unifiedAll, chars_empty, List.cons_append,
          List.append_assoc, hmark, hname, unifyNewlines_append_of_not_mem hslash]
        simp only [List.cons_append, List.append_assoc]
      · have hunified : String.ofList (unifyNewlines text.toList) ≠ "" := by
          rw [ne_eq, String.ofList_eq_empty_iff, ← List.isEmpty_iff, isEmpty_unifyNewlines]
          simpa using hempty
        rw [Element.unified, unifiedAll, chars_text tag depth hempty,
          chars_text tag depth hunified]
        have hend : ('<' :: '/' :: (tag.toList ++ '>' :: s)).head? ≠ some '\n' := by
          intro heq
          cases heq
        simp only [List.cons_append, List.append_assoc, List.nil_append]
        rw [hmark, hname, hmark, unifyNewlines_append _ hend, hclose,
          unifyNewlines_flatMap_writeChar, String.toList_ofList]
    | cons e es =>
      rw [Element.unified, unifiedAll, chars_children, chars_children]
      simp only [List.cons_append, List.append_assoc, List.nil_append]
      rw [hmark, hname, hmark, unifyNewlines_childrenChars ih,
        unifyNewlines_append_of_not_mem (not_mem_lineBreak depth), hclose, unifiedAll]

/-- The elements are unified one by one. -/
theorem unifiedAll_eq_map (es : List Element) : unifiedAll es = es.map Element.unified := by
  induction es with
  | nil => rfl
  | cons e es ih => rw [unifiedAll, ih, List.map_cons]

/-- Their tags stay as they are. -/
theorem Tagged.unified {e : Element} (h : Tagged e) : Tagged e.unified := by
  induction h with
  | mk htag _ ih =>
    rw [Element.unified, unifiedAll_eq_map]
    exact .mk htag (List.forall_mem_map.2 ih)

/-! ### Documents -/

/-- What stands behind the declaration of a document. -/
theorem skipDeclaration?_declaration (s : List Char) :
    skipDeclaration? (declaration.toList ++ s) = some (false, '\n' :: s) := rfl

/-- A document with a declaration has no mark of order. -/
theorem decoded?_declaration (s : List Char) :
    decoded? (declaration.toList ++ s) = some (declaration.toList ++ s) := rfl

/-- No token stands between the declaration and the root. -/
theorem readTokens?_root {c : Char} (h : isNameStart c = true) (fuel : Nat) (s : List Char) :
    readTokens? (fuel + 1) ('\n' :: '<' :: c :: s) = some ([], '<' :: c :: s) := by
  have hspace : skipSpace ('\n' :: '<' :: c :: s) = '<' :: c :: s := rfl
  rw [readTokens?, hspace]
  exact if_pos h

/-- **Documents.**  The root of a document is read back if it is clean. -/
theorem readDocument_write {e : Element} (h : Tagged e) :
    readDocument (declaration.toList ++ (e.chars 0 ++ ['\n'])) =
      if e.clean then pure (e.reread 0) else failure := by
  obtain ⟨c, s, hs, hc⟩ := h.chars_eq_cons 0
  -- Nothing is declared in front of the root, and nothing stands behind it.
  have hprolog : readProlog { standalone := false } [] = pure { standalone := false } := rfl
  have hlength : (e.chars 0).length ≤
      4 * (declaration.toList ++ '<' :: c :: (s ++ ['\n'])).length + 8 := by
    rw [hs, List.length_append]
    simp only [List.length_cons, List.length_append]
    omega
  have hroot := h.readsBack (d := { standalone := false }) rfl [] 0 _ ['\n'] hlength
  rw [hs, List.tail_cons, List.cons_append] at hroot
  rw [hs, List.cons_append, List.cons_append, readDocument]
  simp only [skipDeclaration?_declaration, liftM_some, pure_bind, readTokens?_root hc, hprolog,
    List.drop_one, List.tail_cons, hroot]
  cases e.clean with
  | false => rfl
  | true => rfl

/-- **Documents are read back.**  The root of a written document is read back, with all line ends
    as line feeds, if it is clean; the document is refused otherwise. -/
theorem parse?_document {e : Element} (h : Tagged e) :
    parse? (declaration.toList ++ (e.chars 0 ++ ['\n'])) =
      if e.unified.clean then some (e.unified.reread 0) else none := by
  have hdeclaration : '\r' ∉ declaration.toList := by decide
  have hlines : unifyNewlines (declaration.toList ++ (e.chars 0 ++ ['\n'])) =
      declaration.toList ++ (e.unified.chars 0 ++ ['\n']) := by
    rw [unifyNewlines_append_of_not_mem hdeclaration, h.unifyNewlines_chars]
    rfl
  rw [parse?, decoded?_declaration]
  simp only [Option.bind_eq_bind, Option.bind_some, hlines, readDocument_write h.unified]
  cases e.unified.clean with
  | false => rfl
  | true => rfl

end LineCensus.Xml
