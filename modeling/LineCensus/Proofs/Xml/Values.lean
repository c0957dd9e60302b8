import LineCensus.Proofs.Xml.Documents
import LineCensus.Proofs.Xml.Texts
import LineCensus.Proofs.Table
import LineCensus.Proofs.Value

namespace LineCensus.Xml

open Text

/-!
# Values of documents read back

* `Fits` — values that a document can hold: every list has a tag for its items, and every table has
  distinct keys that are names.
* `settleValue` — a value as it is read back, `printable` whether it is read back at all.
* `writeAt_ofValue_spelled`, `parse?_write_ofValue` — the document of a value that fits, and what is
  read from it.
* `mem_writeAt_ofValue` — a surrogate in a text is in the document.
-/

/-! ### Values -/

mutual

/-- The value that is read for a value: numbers are texts there. -/
def settleValue : Value Letters → Value Letters
  | .text s => .text (settle s)
  | .int n => .text (ofString (intNumeral n))
  | .list items => .list (settleItems items)
  | .table entries => .table (settleEntries entries)
  | _ => .text []

/-- The items that are read for the items of a list. -/
def settleItems : List (Value Letters) → List (Value Letters)
  | [] => []
  | v :: vs => settleValue v :: settleItems vs

/-- The entries that are read for the entries of a table. -/
def settleEntries : List (Letters × Value Letters) → List (Letters × Value Letters)
  | [] => []
  | (key, v) :: es => (key, settleValue v) :: settleEntries es

end

mutual

/-- All texts in the value may stand in a document. -/
def printable : Value Letters → Bool
  | .text s => isPrintable s
  | .list items => printableItems items
  | .table entries => printableEntries entries
  | _ => true

/-- All texts in the values may stand in a document. -/
def printableItems : List (Value Letters) → Bool
  | [] => true
  | v :: vs => printable v && printableItems vs

/-- All texts in the entries may stand in a document. -/
def printableEntries : List (Letters × Value Letters) → Bool
  | [] => true
  | (_, v) :: es => printable v && printableEntries es

end

/-- A value that a document can hold under a tag, with `room` levels of elements for what is in it:
    a list stands in a container, a text, a number and a table do not. -/
inductive Fits (containers : Containers) : Nat → String → Value → Prop where
  | text {room : Nat} {tag : String} (htag : IsTag tag) (hplain : containers.has tag = false)
      (s : String) : Fits containers room tag (.text s)
  | int {room : Nat} {tag : String} (htag : IsTag tag) (hplain : containers.has tag = false)
      (n : Int) : Fits containers room tag (.int n)
  | list {room : Nat} {tag item : String} {items : List Value} (htag : IsTag tag)
      (hitem : containers.get? tag = some item) (h : ∀ v ∈ items, Fits containers room item v) :
      Fits containers (room + 1) tag (.list items)
  | table {room : Nat} {tag : String} {entries : List (String × Value)} (htag : IsTag tag)
      (hplain : containers.has tag = false) (hne : entries ≠ [])
      (hkeys : (entries.map (·.1)).Nodup) (h : ∀ e ∈ entries, Fits containers room e.1 e.2) :
      Fits containers (room + 1) tag (.table entries)

/-! ### Parts of values and elements -/

section Parts

variable (containers : Containers)

/-- The elements of items are those of each. -/
theorem ofItems_eq_map (tag : String) (items : List Value) :
    ofItems containers tag items = items.map (Element.ofValue containers tag) := by
  induction items with
  | nil => rfl
  | cons v vs ih => rw [ofItems, ih, List.map_cons]

/-- The elements of entries are those of each. -/
theorem ofEntries_eq_map (entries : List (String × Value)) :
    ofEntries containers entries = entries.map fun e => Element.ofValue containers e.1 e.2 := by
  induction entries with
  | nil => rfl
  | cons e es ih => rw [ofEntries, ih, List.map_cons]

/-- The items of elements are the values of each. -/
theorem toItems_eq_map (es : List Element) :
    toItems containers es = es.map (Element.toValue containers) := by
  induction es with
  | nil => rfl
  | cons e es ih => rw [toItems, ih, List.map_cons]

/-- The entries of elements are the values of each under their tags. -/
theorem toEntries_eq_map (es : List Element) :
    toEntries containers es = es.map fun e => (e.tag, e.toValue containers) := by
  induction es with
  | nil => rfl
  | cons e es ih => rw [toEntries, ih, List.map_cons]

/-- The elements in an element are read one by one. -/
theorem rereadAll_eq_map (depth : Nat) (es : List Element) :
    rereadAll depth es = es.map (Element.reread depth) := by
  induction es with
  | nil => rfl
  | cons e es ih => rw [rereadAll, ih, List.map_cons]

/-- The items of a list are settled one by one. -/
theorem settleItems_eq_map (items : List (Value Letters)) :
    settleItems items = items.map settleValue := by
  induction items with
  | nil => rfl
  | cons v vs ih => rw [settleItems, ih, List.map_cons]

/-- The entries of a table are settled one by one. -/
theorem settleEntries_eq_map (entries : List (Letters × Value Letters)) :
    settleEntries entries = entries.map fun e => (e.1, settleValue e.2) := by
  induction entries with
  | nil => rfl
  | cons e es ih => rw [settleEntries, ih, List.map_cons]

/-- Elements are clean if each of them is. -/
theorem cleanAll_eq_all (es : List Element) : cleanAll es = es.all Element.clean := by
  induction es with
  | nil => rfl
  | cons e es ih => rw [cleanAll, ih, List.all_cons]

/-- Items are printable if each of them is. -/
theorem printableItems_eq_all (items : List (Value Letters)) :
    printableItems items = items.all printable := by
  induction items with
  | nil => rfl
  | cons v vs ih => rw [printableItems, ih, List.all_cons]

/-- Entries are printable if each of them is. -/
theorem printableEntries_eq_all (entries : List (Letters × Value Letters)) :
    printableEntries entries = entries.all fun e => printable e.2 := by
  induction entries with
  | nil => rfl
  | cons e es ih => rw [printableEntries, ih, List.all_cons]

/-- Elements go as deep as the deepest of them. -/
theorem depthOfAll_le {es : List Element} {n : Nat} (h : ∀ e ∈ es, e.depth ≤ n) :
    depthOfAll es ≤ n := by
  induction es with
  | nil => exact Nat.zero_le n
  | cons e es ih =>
    obtain ⟨he, hes⟩ := List.forall_mem_cons.1 h
    exact Nat.max_le.2 ⟨he, ih hes⟩

end Parts

/-! ### Elements of values -/

variable {containers : Containers}

/-- An element is read under its tag. -/
theorem tag_reread (e : Element) (depth : Nat) : (e.unified.reread depth).tag = e.tag := by
  obtain ⟨tag, text, children⟩ := e
  cases children <;> rfl

/-- The element of a value has the tag it is given. -/
theorem tag_ofValue (tag : String) (v : Value) : (Element.ofValue containers tag v).tag = tag := by
  cases v <;> rfl

/-- The elements in an element are read as they would be read alone. -/
theorem depth_reread (tag text : String) (children : List Element) (depth : Nat) :
    ((Element.mk tag text children).reread depth).depth =
      depthOfAll (rereadAll (depth + 1) children) + 1 := by
  cases children <;> rfl

/-- What stands in a container is a list. -/
theorem toValue_reread_container {tag : String} (h : containers.has tag = true)
    (text : String) (children : List Element) (depth : Nat) :
    ((Element.mk tag text children).reread depth).toValue containers =
      .list (toItems containers (rereadAll (depth + 1) children)) := by
  cases children with
  | nil => exact if_pos h
  | cons e es => exact if_pos h

/-- Elements in any other one are a table. -/
theorem toValue_reread_table {tag : String} (h : containers.has tag = false)
    (text : String) {children : List Element} (hne : children ≠ []) (depth : Nat) :
    ((Element.mk tag text children).reread depth).toValue containers =
      .table (Table.ofList (toEntries containers (rereadAll (depth + 1) children))) := by
  obtain ⟨e, es, rfl⟩ := List.exists_cons_of_ne_nil hne
  rw [Element.reread, List.isEmpty_cons, if_neg Bool.false_ne_true, Element.toValue, h,
    if_neg Bool.false_ne_true, rereadAll, List.isEmpty_cons, if_neg Bool.false_ne_true]

/-- Where there are none, it is a text. -/
theorem toValue_reread_text {tag : String} (h : containers.has tag = false) (text : String)
    (depth : Nat) :
    ((Element.mk tag text []).reread depth).toValue containers =
      .text (String.ofList (trim text.toList)) := by
  rw [Element.reread, List.isEmpty_nil, if_pos rfl, Element.toValue, h,
    if_neg Bool.false_ne_true, List.isEmpty_nil, if_pos rfl]

/-- An element without a text is clean if those in it are. -/
theorem clean_mk (tag : String) (children : List Element) :
    (Element.mk tag "" children).clean = cleanAll children := by
  cases children <;> rfl

namespace Fits

variable {room : Nat} {tag : String} {v : Value}

/-- The tags of a value that fits are names. -/
theorem tagged (h : Fits containers room tag v) : Tagged (Element.ofValue containers tag v) := by
  induction h with
  | text htag hplain s => exact .mk htag (List.forall_mem_nil _)
  | int htag hplain n => exact .mk htag (List.forall_mem_nil _)
  | list htag hitem _ ih =>
    rw [Element.ofValue, hitem, ofItems_eq_map]
    exact .mk htag (List.forall_mem_map.2 ih)
  | table htag _ _ _ _ ih =>
    rw [Element.ofValue, ofEntries_eq_map]
    exact .mk htag (List.forall_mem_map.2 ih)

/-- An element that is read takes no more levels than there is room for. -/
theorem depth_le (h : Fits containers room tag v) (depth : Nat) :
    ((Element.ofValue containers tag v).unified.reread depth).depth ≤ room + 1 := by
  induction h generalizing depth with
  | text htag hplain s => exact Nat.le_add_left 1 _
  | int htag hplain n => exact Nat.le_add_left 1 _
  | list htag hitem _ ih =>
    rw [Element.ofValue, hitem, ofItems_eq_map, Element.unified, depth_reread,
      unifiedAll_eq_map, rereadAll_eq_map, List.map_map, List.map_map]
    refine Nat.succ_le_succ (depthOfAll_le (List.forall_mem_map.2 ?_))
    exact fun v hv => ih v hv (depth + 1)
  | table htag _ _ _ _ ih =>
    rw [Element.ofValue, ofEntries_eq_map, Element.unified, depth_reread,
      unifiedAll_eq_map, rereadAll_eq_map, List.map_map, List.map_map]
    refine Nat.succ_le_succ (depthOfAll_le (List.forall_mem_map.2 ?_))
    exact fun e he => ih e he (depth + 1)

/-- **Values are read back**, with their texts settled. -/
theorem spelled_toValue (h : Fits containers room tag v) (depth : Nat) :
    (((Element.ofValue containers tag v).unified.reread depth).toValue containers).spelled =
      settleValue v.spelled := by
  induction h generalizing depth with
  | text htag hplain s =>
    rw [Element.ofValue, Element.unified, unifiedAll, toValue_reread_text hplain,
      String.toList_ofList, Value.spelled, ofString_ofList, ← settle_letters]
    rfl
  | int htag hplain n =>
    have hsettle := settle_of_isSolid (s := showInt n) fun c hc => isSolid_of_mem_showInt hc
    rw [settle_letters] at hsettle
    have hnumeral : (Spelled.ofString (intNumeral n) : String).toList = showInt n :=
      String.toList_ofList
    rw [Element.ofValue, Element.unified, unifiedAll, toValue_reread_text hplain,
      hnumeral, String.toList_ofList, Value.spelled]
    exact congrArg Value.text
      ((ofString_ofList _).trans (hsettle.trans (ofString_ofList _).symm))
  | list htag hitem _ ih =>
    rw [Element.ofValue, hitem, Option.getD_some, ofItems_eq_map, Element.unified,
      toValue_reread_container (Table.has_of_get? hitem), unifiedAll_eq_map,
      rereadAll_eq_map, toItems_eq_map, Value.spelled, Value.spelled, settleValue,
      spelledItems_eq_map, spelledItems_eq_map, settleItems_eq_map]
    simp only [List.map_map]
    refine congrArg Value.list (List.map_congr_left fun v hv => ?_)
    exact ih v hv (depth + 1)
  | @table room tag entries htag hplain hne hkeys _ ih =>
    -- No key comes twice, so every entry that is read stays where it was written.
    have hchildren : unifiedAll (ofEntries containers entries) ≠ [] := by
      rw [unifiedAll_eq_map, ofEntries_eq_map]
      simpa using hne
    have hread : toEntries containers
        (rereadAll (depth + 1) (unifiedAll (ofEntries containers entries))) =
          entries.map fun e => (e.1, ((Element.ofValue containers e.1 e.2).unified.reread
            (depth + 1)).toValue containers) := by
      rw [unifiedAll_eq_map, ofEntries_eq_map, rereadAll_eq_map, toEntries_eq_map]
      simp only [List.map_map]
      refine List.map_congr_left fun e _ => ?_
      exact Prod.ext ((tag_reread _ _).trans (tag_ofValue e.1 e.2)) rfl
    have hdistinct : ((entries.map fun e => (e.1, ((Element.ofValue containers e.1 e.2).unified.reread
        (depth + 1)).toValue containers)).map (·.1)).Nodup := by
      rw [List.map_map]
      exact hkeys
    rw [Element.ofValue, Element.unified, toValue_reread_table hplain _ hchildren, hread,
      Table.ofList_of_nodup hdistinct, Value.spelled, Value.spelled, settleValue,
      spelledEntries_eq_map, spelledEntries_eq_map, settleEntries_eq_map]
    simp only [List.map_map]
    refine congrArg Value.table (List.map_congr_left fun e he => ?_)
    exact Prod.ext rfl (ih e he (depth + 1))

/-- A value is read back if all its texts may stand in a document. -/
theorem clean_eq (h : Fits containers room tag v) :
    (Element.ofValue containers tag v).unified.clean = printable v.spelled := by
  induction h with
  | text htag hplain s =>
    show (String.ofList (unifyNewlines s.toList)).toList.all isChar = isPrintable (letters s.toList)
    rw [String.toList_ofList, all_isChar_unifyNewlines, isPrintable_letters]
  | int htag hplain n =>
    show (String.ofList (unifyNewlines (intNumeral n).toList)).toList.all isChar = true
    rw [String.toList_ofList, all_isChar_unifyNewlines, ← isPrintable_letters, intNumeral,
      String.toList_ofList]
    exact isPrintable_of_isSolid fun c hc => isSolid_of_mem_showInt hc
  | list htag hitem _ ih =>
    have hnone : String.ofList (unifyNewlines "".toList) = "" := rfl
    rw [Element.ofValue, hitem, Option.getD_some, ofItems_eq_map, Element.unified, ofString_string,
      hnone, unifiedAll_eq_map, clean_mk, Value.spelled, printable, cleanAll_eq_all,
      spelledItems_eq_map, printableItems_eq_all, Bool.eq_iff_iff]
    simp only [List.all_eq_true, List.forall_mem_map]
    exact forall₂_congr fun v hv => by rw [ih v hv]
  | table htag _ _ _ _ ih =>
    have hnone : String.ofList (unifyNewlines "".toList) = "" := rfl
    rw [Element.ofValue, ofEntries_eq_map, Element.unified, ofString_string, hnone,
      unifiedAll_eq_map, clean_mk, Value.spelled, printable, cleanAll_eq_all,
      spelledEntries_eq_map, printableEntries_eq_all, Bool.eq_iff_iff]
    simp only [List.all_eq_true, List.forall_mem_map]
    exact forall₂_congr fun e he => by rw [ih e he]

end Fits

/-! ### Documents -/

section Written

variable {spelled : Containers Letters}

/-- The tags of `spelled` are those of `containers` as letters. -/
def Spells (spelled : Containers Letters) (containers : Containers) : Prop :=
  ∀ tag, spelled.get? (ofString tag) = (containers.get? tag).map ofString

/-- An element is written in the letters of its strings. -/
theorem writeAt_mk (tag text : String) {es : List (Element Letters)} {fs : List Element}
    (hempty : es.isEmpty = fs.isEmpty) {depth : Nat}
    (h : writeChildren (depth + 1) es = writeChildren (depth + 1) fs) :
    (Element.mk (ofString tag) (ofString text) es).writeAt depth =
      (Element.mk tag text fs).writeAt depth := by
  rw [Element.writeAt, Element.writeAt, hempty, h]
  rfl

mutual

/-- **Letters and strings.**  A value has the same document whether its texts are strings or
    letters. -/
theorem writeAt_ofValue_spelled (hc : Spells spelled containers) (depth : Nat)
    (tag : String) (v : Value) :
    (Element.ofValue spelled (ofString tag) v.spelled).writeAt depth =
      (Element.ofValue containers tag v).writeAt depth := by
  cases v with
  | list items =>
    have hitem : (spelled.get? (ofString tag)).getD (ofString "") =
        ofString ((containers.get? tag).getD "") := by
      rw [hc, Option.getD_map]
    rw [Value.spelled, Element.ofValue, Element.ofValue, ofString_letters, hitem, ofString_string]
    refine writeAt_mk tag "" ?_ (writeChildren_ofItems_spelled hc (depth + 1) _ items)
    cases items <;> rfl
  | table entries =>
    rw [Value.spelled, Element.ofValue, Element.ofValue, ofString_letters, ofString_string]
    refine writeAt_mk tag "" ?_ (writeChildren_ofEntries_spelled hc (depth + 1) entries)
    cases entries <;> rfl
  | _ => rfl

/-- So have the items of a list. -/
theorem writeChildren_ofItems_spelled (hc : Spells spelled containers) (depth : Nat)
    (tag : String) (items : List Value) :
    writeChildren depth (ofItems spelled (ofString tag) (spelledItems items)) =
      writeChildren depth (ofItems containers tag items) := by
  cases items with
  | nil => rfl
  | cons v vs =>
    rw [spelledItems, ofItems, ofItems, writeChildren, writeChildren,
      writeAt_ofValue_spelled hc depth tag v, writeChildren_ofItems_spelled hc depth tag vs]

/-- So have the entries of a table. -/
theorem writeChildren_ofEntries_spelled (hc : Spells spelled containers) (depth : Nat)
    (entries : List (String × Value)) :
    writeChildren depth (ofEntries spelled (spelledEntries entries)) =
      writeChildren depth (ofEntries containers entries) := by
  cases entries with
  | nil => rfl
  | cons e es =>
    obtain ⟨key, v⟩ := e
    rw [spelledEntries, ofEntries, ofEntries, writeChildren, writeChildren,
      writeAt_ofValue_spelled hc depth key v, writeChildren_ofEntries_spelled hc depth es]

end

/-- **Documents of values are read back.**  What is read for a value that fits is the value with its
    texts settled, if they are printable; the document is refused otherwise. -/
theorem parse?_write_ofValue (hc : Spells spelled containers) {room : Nat} {tag : String}
    {v : Value}
    (h : Fits containers room tag v) :
    ∃ document root, (Element.ofValue spelled (ofString tag) v.spelled).write = letters document ∧
      root.tag = tag ∧ root.depth ≤ room + 1 ∧
      (root.toValue containers).spelled = settleValue v.spelled ∧
      parse? document = if printable v.spelled then some root else none := by
  refine ⟨declaration.toList ++ ((Element.ofValue containers tag v).chars 0 ++ ['\n']),
    (Element.ofValue containers tag v).unified.reread 0, ?_, ?_, h.depth_le 0, h.spelled_toValue 0, ?_⟩
  · rw [Element.write, writeAt_ofValue_spelled hc, writeAt_eq_letters, letters_append, letters_append,
      List.append_assoc]
    rfl
  · rw [tag_reread, tag_ofValue]
  · rw [parse?_document h.tagged, h.clean_eq]

end Written

/-! ### Surrogates -/

section Surrogates

variable {spelled : Containers Letters} {n : Fin 2048}

/-- A surrogate is written as it is. -/
theorem mem_flatMap_writeLetter {s : Letters} (h : Letter.surrogate n ∈ s) :
    Letter.surrogate n ∈ s.flatMap writeLetter :=
  List.mem_flatMap.2 ⟨_, h, List.mem_singleton_self _⟩

/-- A surrogate in a tag, in the text of an element or in the elements in it is in its document. -/
theorem mem_writeAt_mk {tag text : Letters} {es : List (Element Letters)} {depth : Nat}
    (h : Letter.surrogate n ∈ tag ∨ (es = [] ∧ Letter.surrogate n ∈ text) ∨
      Letter.surrogate n ∈ writeChildren (depth + 1) es) :
    Letter.surrogate n ∈ (Element.mk tag text es).writeAt depth := by
  rw [Element.writeAt]
  simp only [spelling_letters, bracketed]
  rcases h with htag | ⟨rfl, htext⟩ | hes
  · split
    · split <;> simp [htag]
    · simp [htag]
  · rw [if_pos List.isEmpty_nil,
      if_neg fun hempty => List.ne_nil_of_mem htext (List.isEmpty_iff.1 hempty)]
    simp [mem_flatMap_writeLetter htext]
  · cases es with
    | nil => cases hes
    | cons e es =>
      rw [List.isEmpty_cons, if_neg Bool.false_ne_true]
      simp [hes]

/-- The name of an entry is the tag of its element. -/
theorem mem_writeAt_tag {tag : Letters} (h : Letter.surrogate n ∈ tag) (v : Value Letters)
    (depth : Nat) : Letter.surrogate n ∈ (Element.ofValue spelled tag v).writeAt depth := by
  cases v <;> exact mem_writeAt_mk (.inl h)

mutual

/-- **Surrogates.**  A surrogate in a text is in the document of the value. -/
theorem mem_writeAt_ofValue {v : Value Letters} {s : Letters} (hs : s ∈ v.texts)
    (h : Letter.surrogate n ∈ s) (tag : Letters) (depth : Nat) :
    Letter.surrogate n ∈ (Element.ofValue spelled tag v).writeAt depth := by
  cases v with
  | text t =>
    obtain rfl := List.mem_singleton.1 hs
    exact mem_writeAt_mk (.inr (.inl ⟨rfl, h⟩))
  | list items =>
    exact mem_writeAt_mk (.inr (.inr (mem_writeChildren_ofItems hs h _ (depth + 1))))
  | table entries =>
    exact mem_writeAt_mk (.inr (.inr (mem_writeChildren_ofEntries hs h (depth + 1))))
  | _ => cases hs

/-- So it is in those of the items of a list. -/
theorem mem_writeChildren_ofItems {items : List (Value Letters)} {s : Letters}
    (hs : s ∈ textsOfItems items) (h : Letter.surrogate n ∈ s) (tag : Letters) (depth : Nat) :
    Letter.surrogate n ∈ writeChildren depth (ofItems spelled tag items) := by
  cases items with
  | nil => cases hs
  | cons v vs =>
    rw [ofItems, writeChildren, List.mem_append, List.mem_append]
    rcases List.mem_append.1 hs with hv | hvs
    · exact .inl (.inr (mem_writeAt_ofValue hv h tag depth))
    · exact .inr (mem_writeChildren_ofItems hvs h tag depth)

/-- So it is in those of the entries of a table, names and all. -/
theorem mem_writeChildren_ofEntries {entries : List (Letters × Value Letters)} {s : Letters}
    (hs : s ∈ textsOfEntries entries) (h : Letter.surrogate n ∈ s) (depth : Nat) :
    Letter.surrogate n ∈ writeChildren depth (ofEntries spelled entries) := by
  cases entries with
  | nil => cases hs
  | cons e es =>
    obtain ⟨key, v⟩ := e
    rw [ofEntries, writeChildren, List.mem_append, List.mem_append]
    rcases List.mem_cons.1 hs with rfl | hrest
    · exact .inl (.inr (mem_writeAt_tag h v depth))
    · rcases List.mem_append.1 hrest with hv | hes
      · exact .inl (.inr (mem_writeAt_ofValue hv h key depth))
      · exact .inr (mem_writeChildren_ofEntries hes h depth)

end

end Surrogates

end LineCensus.Xml
