import LineCensus.Value
import LineCensus.Proofs.Text.Letter

namespace LineCensus

open Text

/-!
# Values of strings and of letters

* `spelledItems_eq_map`, `spelledEntries_eq_map` — what is in a value, with its texts as letters.
* `Value.texts` — the texts and the names in a value.
* `Value.plain` — the value with its texts as strings.
* `Value.spelled_plain` — it is the same value if no text in it has a surrogate.
-/

/-- The items of a list are spelled one by one. -/
theorem spelledItems_eq_map (items : List Value) :
    spelledItems items = items.map Value.spelled := by
  induction items with
  | nil => rfl
  | cons v vs ih => rw [spelledItems, ih, List.map_cons]

/-- The entries of a table are spelled one by one. -/
theorem spelledEntries_eq_map (entries : List (String × Value)) :
    spelledEntries entries = entries.map fun e => (ofString e.1, e.2.spelled) := by
  induction entries with
  | nil => rfl
  | cons e es ih => rw [spelledEntries, ih, List.map_cons]

mutual

/-- The texts in a value, and the names of the entries in it. -/
def Value.texts : Value Letters → List Letters
  | .text s => [s]
  | .list items => textsOfItems items
  | .table entries => textsOfEntries entries
  | _ => []

/-- The texts in some items. -/
def textsOfItems : List (Value Letters) → List Letters
  | [] => []
  | v :: vs => v.texts ++ textsOfItems vs

/-- The texts in some entries, and their names. -/
def textsOfEntries : List (Letters × Value Letters) → List Letters
  | [] => []
  | (name, v) :: es => name :: (v.texts ++ textsOfEntries es)

end

/-- The texts in a list are those of its items. -/
theorem textsOfItems_eq_flatMap (items : List (Value Letters)) :
    textsOfItems items = items.flatMap Value.texts := by
  induction items with
  | nil => rfl
  | cons v vs ih => rw [textsOfItems, ih, List.flatMap_cons]

/-- The texts in a table are those of its entries. -/
theorem textsOfEntries_eq_flatMap (entries : List (Letters × Value Letters)) :
    textsOfEntries entries = entries.flatMap fun e => e.1 :: e.2.texts := by
  induction entries with
  | nil => rfl
  | cons e es ih => rw [textsOfEntries, ih, List.flatMap_cons, List.cons_append]

/-- A text as a string; of a text with surrogates nothing is left. -/
def stringOf (s : Letters) : String := (string? s).getD ""

@[simp] theorem stringOf_ofString (s : String) : stringOf (ofString s) = s := by
  have h : string? (ofString s) = some s := string?_ofString s
  rw [stringOf, h, Option.getD_some]

mutual

/-- The value with its texts as strings. -/
def Value.plain : Value Letters → Value
  | .null => .null
  | .bool b => .bool b
  | .int n => .int n
  | .float x => .float x
  | .text s => .text (stringOf s)
  | .calendar => .calendar
  | .list items => .list (plainItems items)
  | .table entries => .table (plainEntries entries)

/-- The items with their texts as strings. -/
def plainItems : List (Value Letters) → List Value
  | [] => []
  | v :: vs => v.plain :: plainItems vs

/-- The entries with their names and texts as strings. -/
def plainEntries : List (Letters × Value Letters) → List (String × Value)
  | [] => []
  | (name, v) :: es => (stringOf name, v.plain) :: plainEntries es

end

/-- The items of a list are made plain one by one. -/
theorem plainItems_eq_map (items : List (Value Letters)) :
    plainItems items = items.map Value.plain := by
  induction items with
  | nil => rfl
  | cons v vs ih => rw [plainItems, ih, List.map_cons]

/-- The entries of a table are made plain one by one. -/
theorem plainEntries_eq_map (entries : List (Letters × Value Letters)) :
    plainEntries entries = entries.map fun e => (stringOf e.1, e.2.plain) := by
  induction entries with
  | nil => rfl
  | cons e es ih => rw [plainEntries, ih, List.map_cons]

mutual

/-- **Values of strings.**  A value is spelled in letters as it was if its texts are strings. -/
theorem Value.spelled_plain {v : Value Letters} (h : ∀ s ∈ v.texts, ∃ t, s = ofString t) :
    v.plain.spelled = v := by
  cases v with
  | text s =>
    obtain ⟨t, rfl⟩ := h s List.mem_cons_self
    rw [Value.plain, stringOf_ofString, Value.spelled]
  | list items => exact congrArg Value.list (spelledItems_plainItems h)
  | table entries => exact congrArg Value.table (spelledEntries_plainEntries h)
  | _ => rfl

/-- So are the items of a list. -/
theorem spelledItems_plainItems {items : List (Value Letters)}
    (h : ∀ s ∈ textsOfItems items, ∃ t, s = ofString t) :
    spelledItems (plainItems items) = items := by
  cases items with
  | nil => rfl
  | cons v vs =>
    obtain ⟨hv, hvs⟩ := List.forall_mem_append.1 h
    rw [plainItems, spelledItems, Value.spelled_plain hv, spelledItems_plainItems hvs]

/-- So are the entries of a table. -/
theorem spelledEntries_plainEntries {entries : List (Letters × Value Letters)}
    (h : ∀ s ∈ textsOfEntries entries, ∃ t, s = ofString t) :
    spelledEntries (plainEntries entries) = entries := by
  cases entries with
  | nil => rfl
  | cons e es =>
    obtain ⟨name, v⟩ := e
    obtain ⟨⟨t, rfl⟩, hrest⟩ := List.forall_mem_cons.1 h
    obtain ⟨hv, hes⟩ := List.forall_mem_append.1 hrest
    rw [plainEntries, spelledEntries, stringOf_ofString, Value.spelled_plain hv,
      spelledEntries_plainEntries hes]

end

end LineCensus
