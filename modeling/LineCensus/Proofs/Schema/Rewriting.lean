import LineCensus.Proofs.Schema.Fields
import Mathlib.Data.List.Lattice
import Mathlib.Data.List.Pairwise

namespace LineCensus.Schema

open Text

/-!
# Documents written in other ways

Tables are lists of entries, and nothing that is read from them depends on the order:

* `DistinctKeys` — no table of the value has a key twice.
* `Reordered` — the same value with the entries of tables in another order, at any depth.
* `Shape` — what is known of the keys of a document: which of them are spellings of one field.
* `Rewritten` — a document with entries in another order, with keys that mean nothing, or with other
  spellings of its fields.
* `renamed` — what is read, with the keys in its issues under other names.  An issue is reported
  under the spelling that a document uses, so those of two spellings are compared by the name that
  both stand for; if every key stands for itself, they are compared as they are.
* `Respects` — a way to read that does not see the difference: `respects_list`, `respects_record`
  and `renamed_field` for the parts of a document.
-/

/-- No table has a key twice. -/
inductive DistinctKeys : Value Letters → Prop where
  | null : DistinctKeys .null
  | bool (b : Bool) : DistinctKeys (.bool b)
  | int (n : Int) : DistinctKeys (.int n)
  | float (x : Float) : DistinctKeys (.float x)
  | text (s : Letters) : DistinctKeys (.text s)
  | calendar : DistinctKeys .calendar
  | list {items : List (Value Letters)} (h : ∀ v ∈ items, DistinctKeys v) :
      DistinctKeys (.list items)
  | table {entries : List (Letters × Value Letters)} (hkeys : (entries.map (·.1)).Nodup)
      (h : ∀ e ∈ entries, DistinctKeys e.2) : DistinctKeys (.table entries)

/-- The same value with the entries of its tables in another order. -/
inductive Reordered : Value Letters → Value Letters → Prop where
  | refl (v : Value Letters) : Reordered v v
  | trans {u v w : Value Letters} (huv : Reordered u v) (hvw : Reordered v w) : Reordered u w
  -- One table; the two cases below reach those inside lists and tables.
  | entries {es fs : List (Letters × Value Letters)} (h : es.Perm fs) :
      Reordered (.table es) (.table fs)
  | item {vs ws : List (Value Letters)} {v w : Value Letters} (h : Reordered v w) :
      Reordered (.list (vs ++ v :: ws)) (.list (vs ++ w :: ws))
  | entry {es fs : List (Letters × Value Letters)} {key : Letters} {v w : Value Letters}
      (h : Reordered v w) :
      Reordered (.table (es ++ (key, v) :: fs)) (.table (es ++ (key, w) :: fs))

/-- What is known of a document: nothing, that it is a list of documents, or that it is a table with
    certain fields, each of which has one or several spellings. -/
inductive Shape where
  | plain
  | items (shape : Shape)
  | record (fields : List (List String × Shape))

namespace Shape

/-- What is known of an item. -/
def item : Shape → Shape
  | .items s => s
  | _ => .plain

/-- What is known of the value of a key. -/
def entry (key : Letters) : Shape → Shape
  | .record fields =>
    ((fields.find? fun f => (f.1.map ofString).contains key).map (·.2)).getD .plain
  | _ => .plain

end Shape

/-- The same document with entries in another order, with more or fewer keys that mean nothing, and
    with other spellings, by the same name, of fields that are spelled in one way only. -/
inductive Rewritten (name : String → String) : Shape → Value Letters → Value Letters → Prop where
  | refl (s : Shape) (v : Value Letters) : Rewritten name s v v
  | symm {s : Shape} {v w : Value Letters} (h : Rewritten name s v w) : Rewritten name s w v
  | trans {s : Shape} {u v w : Value Letters} (huv : Rewritten name s u v)
      (hvw : Rewritten name s v w) :
      Rewritten name s u w
  | entries {s : Shape} {es fs : List (Letters × Value Letters)} (h : es.Perm fs) :
      Rewritten name s (.table es) (.table fs)
  | item {s : Shape} {vs ws : List (Value Letters)} {v w : Value Letters}
      (h : Rewritten name s.item v w) :
      Rewritten name s (.list (vs ++ v :: ws)) (.list (vs ++ w :: ws))
  | entry {s : Shape} {es fs : List (Letters × Value Letters)} {key : Letters} {v w : Value Letters}
      (h : Rewritten name (s.entry key) v w) :
      Rewritten name s (.table (es ++ (key, v) :: fs)) (.table (es ++ (key, w) :: fs))
  -- A key that is no spelling of any field.
  | unknown {fields : List (List String × Shape)} {es : List (Letters × Value Letters)} {key : Letters}
      {v : Value Letters} (hkey : ∀ f ∈ fields, key ∉ f.1.map ofString) (hnew : key ∉ es.map (·.1))
      (hv : DistinctKeys v) : Rewritten name (.record fields) (.table es) (.table (es ++ [(key, v)]))
  -- A field that is there under one spelling, and under no other one.
  | respell {fields : List (List String × Shape)} {f : List String × Shape}
      {es fs : List (Letters × Value Letters)} {key key' : String} {v : Value Letters} (hf : f ∈ fields)
      (hkey : key ∈ f.1) (hkey' : key' ∈ f.1) (hname : name key = name key')
      (honly : ∀ k ∈ f.1, ofString k ∉ (es ++ fs).map (·.1)) :
      Rewritten name (.record fields) (.table (es ++ (ofString key, v) :: fs))
        (.table (es ++ (ofString key', v) :: fs))

variable {α β : Type} {name : String → String} {s : Shape} {v w : Value Letters}

/-- Another order is another way to write any document. -/
theorem Reordered.rewritten (h : Reordered v w) (s : Shape) : Rewritten name s v w := by
  induction h generalizing s with
  | refl v => exact .refl s v
  | trans _ _ ihuv ihvw => exact (ihuv s).trans (ihvw s)
  | entries h => exact .entries h
  | item _ ih => exact .item (ih s.item)
  | entry _ ih => exact .entry (ih (s.entry _))

/-! ### Distinct keys -/

/-- A list repeats no key if its items repeat none. -/
theorem distinctKeys_list_iff {items : List (Value Letters)} :
    DistinctKeys (.list items) ↔ ∀ v ∈ items, DistinctKeys v := by
  refine ⟨fun h => ?_, .list⟩
  cases h with
  | list h => exact h

/-- A table repeats no key if it has none twice and its values repeat none. -/
theorem distinctKeys_table_iff {entries : List (Letters × Value Letters)} :
    DistinctKeys (.table entries) ↔
      (entries.map (·.1)).Nodup ∧ ∀ e ∈ entries, DistinctKeys e.2 := by
  refine ⟨fun h => ?_, fun h => .table h.1 h.2⟩
  cases h with
  | table hkeys h => exact ⟨hkeys, h⟩

/-- Keys stay distinct, however a document is written. -/
theorem Rewritten.distinctKeys_iff (h : Rewritten name s v w) : DistinctKeys v ↔ DistinctKeys w := by
  induction h with
  | refl s v => rfl
  | symm _ ih => exact ih.symm
  | trans _ _ ihuv ihvw => exact ihuv.trans ihvw
  | entries h =>
    rw [distinctKeys_table_iff, distinctKeys_table_iff, (h.map _).nodup_iff]
    simp only [h.mem_iff]
  | item _ ih => simp only [distinctKeys_list_iff, List.forall_mem_append, List.forall_mem_cons, ih]
  | entry _ ih =>
    simp only [distinctKeys_table_iff, List.map_append, List.map_cons, List.forall_mem_append,
      List.forall_mem_cons, ih]
  | @unknown fields es key v hkey hnew hv =>
    rw [distinctKeys_table_iff, distinctKeys_table_iff, List.map_append, List.map_singleton,
      List.nodup_append_comm, List.singleton_append, List.nodup_cons, List.forall_mem_append,
      List.forall_mem_singleton]
    exact and_congr (and_iff_right hnew).symm (and_iff_left hv).symm
  | @respell fields f es fs key key' v hf hkey hkey' _ honly =>
    simp only [distinctKeys_table_iff, List.map_append, List.map_cons, List.forall_mem_append,
      List.forall_mem_cons, List.nodup_middle, List.nodup_cons]
    rw [← List.map_append]
    simp only [honly key hkey, honly key' hkey']

/-- A table stays a table. -/
theorem Rewritten.exists_table_iff (h : Rewritten name s v w) :
    (∃ t, v = .table t) ↔ ∃ u, w = .table u := by
  induction h with
  | refl s v => rfl
  | symm _ ih => exact ih.symm
  | trans _ _ ihuv ihvw => exact ihuv.trans ihvw
  | item => simp
  | entries => simp
  | entry => simp
  | unknown => simp
  | respell => simp

/-! ### Issues under other names -/

/-- A step under another name. -/
def Step.rename (name : String → String) : Step → Step
  | .key k => .key (name k)
  | .index n => .index n

/-- An issue with the keys on the way to it under other names. -/
def Issue.rename (name : String → String) (i : Issue) : Issue :=
  { i with place := i.place.map (Step.rename name) }

/-- What is read, with the keys in its issues under other names. -/
def renamed (name : String → String) (x : Checked α) : Checked α :=
  x.mapError (List.map (Issue.rename name))

/-- With the same names an issue is the same. -/
theorem issue_rename_id (i : Issue) : i.rename id = i := by
  have hstep : Step.rename id = id := by
    funext step
    cases step <;> rfl
  rw [Issue.rename, hstep, List.map_id]

/-- Names are changed in the issues, not in the value. -/
theorem renamed_map (f : α → β) (x : Checked α) :
    renamed name (x.map f) = (renamed name x).map f := by
  cases x <;> rfl

/-- They are changed in the issues of both halves of a pair. -/
theorem renamed_both (x : Checked α) (y : Checked β) :
    renamed name (both x y) = both (renamed name x) (renamed name y) := by
  cases x <;> cases y <;> simp [renamed, both, Except.mapError]

/-- What is made of a value is the same if the value, or the reasons why there is none, are. -/
theorem renamed_bind {x y : Checked α} {f : α → Checked β} (h : renamed name x = renamed name y) :
    renamed name (x >>= f) = renamed name (y >>= f) := by
  cases x with
  | ok a =>
    cases y with
    | ok b =>
      cases h
      rfl
    | error issues => cases h
  | error issues =>
    cases y with
    | ok b => cases h
    | error issues' => exact congrArg Except.error (Except.error.inj h)

/-- The step into a part is renamed with the steps inside it. -/
theorem renamed_within (step : Step) (x : Checked α) :
    renamed name (within step x) = within (step.rename name) (renamed name x) := by
  cases x with
  | ok a => rfl
  | error issues => simp [renamed, within, Except.mapError, Issue.rename, Function.comp_def]

/-! ### Reading -/

/-- Documents that are written in different ways are read alike. -/
def Respects (name : String → String) (s : Shape) (read : Value Letters → Checked α) : Prop :=
  ∀ v w, Rewritten name s v w → DistinctKeys v → renamed name (read v) = renamed name (read w)

/-- What is only read where there is no list and no table is read alike. -/
theorem respects_scalar {read : Value Letters → Checked α} {noList noTable : Complaint}
    (hlist : ∀ vs, read (.list vs) = refuse noList)
    (htable : ∀ es, read (.table es) = refuse noTable) : Respects name s read := by
  intro v w h hv
  clear hv
  induction h with
  | refl s v => rfl
  | symm _ ih => exact ih.symm
  | trans _ _ ihuv ihvw => exact ihuv.trans ihvw
  | entries => rw [htable, htable]
  | item => rw [hlist, hlist]
  | entry => rw [htable, htable]
  | unknown => rw [htable, htable]
  | respell => rw [htable, htable]

/-- Items that are read alike up to names may stand for each other in a list. -/
theorem renamed_eachFrom {read : Value Letters → Checked α}
    (h : renamed name (read v) = renamed name (read w)) (n : Nat) (vs ws : List (Value Letters)) :
    renamed name (eachFrom read n (vs ++ v :: ws)) =
      renamed name (eachFrom read n (vs ++ w :: ws)) := by
  induction vs generalizing n with
  | nil =>
    rw [List.nil_append, List.nil_append, eachFrom, eachFrom, renamed_map, renamed_map,
      renamed_both, renamed_both, renamed_within, renamed_within, h]
  | cons u vs ih =>
    rw [List.cons_append, List.cons_append, eachFrom, eachFrom, renamed_map, renamed_map,
      renamed_both, renamed_both, ih]

/-- **Lists.**  They are read alike if their items are. -/
theorem respects_list {read : Value Letters → Checked α} (hread : Respects name s read) :
    Respects name (.items s) (list read) := by
  -- Induction on the rewriting.  What is read in the end is compared, so one step is enough.
  intro v w h
  generalize hitems : Shape.items s = shape at h
  induction h with
  | refl s v => exact fun _ => rfl
  | symm h ih => exact fun hw => (ih hitems (h.distinctKeys_iff.2 hw)).symm
  | trans huv _ ihuv ihvw =>
    intro hu
    exact (ihuv hitems hu).trans (ihvw hitems (huv.distinctKeys_iff.1 hu))
  | entries => exact fun _ => rfl
  | @item shape vs ws v w h ih =>
    subst hitems
    intro hdistinct
    have hv : DistinctKeys v := distinctKeys_list_iff.1 hdistinct v (by simp)
    exact renamed_eachFrom (hread v w h hv) 0 vs ws
  | entry => exact fun _ => rfl
  | unknown => cases hitems
  | respell => cases hitems

/-! ### Fields -/

/-- Both tables have the field, under spellings of one name and written in two ways, or neither has
    it. -/
def SameField (name : String → String) (t u : Table (Value Letters) Letters)
    (f : List String × Shape) : Prop :=
  Option.Rel (fun d e => name d.1 = name e.1 ∧ Rewritten name f.2 d.2 e.2)
    (firstOf? t f.1) (firstOf? u f.1)

variable {f : List String × Shape} {t u : Table (Value Letters) Letters} {keys : List String}

/-- A value is rewritten to itself, and so is an absent one. -/
theorem rel_refl (v? : Option (Value Letters)) : Option.Rel (Rewritten name s) v? v? := by
  cases v? with
  | none => exact .none
  | some v => exact .some (.refl s v)

/-- The first of the keys that has a value is the first in both tables. -/
theorem sameField_of_rel
    (h : ∀ key ∈ f.1, Option.Rel (Rewritten name f.2) (t.get? key) (u.get? key)) :
    SameField name t u f := by
  obtain ⟨keys, s⟩ := f
  rw [SameField]
  dsimp only at h ⊢
  -- The first key that one of the tables has, the other one has too.
  induction keys with
  | nil => exact .none
  | cons key keys ih =>
    rw [List.forall_mem_cons] at h
    rw [firstOf?, firstOf?]
    cases ht : t.get? key with
    | none =>
      cases hu : u.get? key with
      | none => exact ih h.2
      | some w =>
        rw [ht, hu] at h
        cases h.1
    | some v =>
      cases hu : u.get? key with
      | none =>
        rw [ht, hu] at h
        cases h.1
      | some w =>
        rw [ht, hu] at h
        cases h.1 with
        | some hrewritten => exact .some ⟨rfl, hrewritten⟩

/-- A field that is the same in two tables is in neither, or it is in both under keys that have one
    name. -/
theorem SameField.cases_eq (h : SameField name t u f) :
    firstOf? t f.1 = none ∧ firstOf? u f.1 = none ∨
      ∃ d e, firstOf? t f.1 = some d ∧ firstOf? u f.1 = some e ∧ name d.1 = name e.1 ∧
        Rewritten name f.2 d.2 e.2 := by
  rw [SameField] at h
  cases ht : firstOf? t f.1 with
  | none =>
    cases hu : firstOf? u f.1 with
    | none => exact .inl ⟨rfl, rfl⟩
    | some e =>
      rw [ht, hu] at h
      cases h
  | some d =>
    cases hu : firstOf? u f.1 with
    | none =>
      rw [ht, hu] at h
      cases h
    | some e =>
      rw [ht, hu] at h
      cases h with
      | some hrewritten => exact .inr ⟨d, e, rfl, rfl, hrewritten⟩

/-- What is read under two spellings of a field is read alike. -/
theorem renamed_within_key {read : Value Letters → Checked α} (hread : Respects name s read)
    (ht : DistinctKeys (.table t)) {d e : String × Value Letters} (hd : (ofString d.1, d.2) ∈ t)
    (hname : name d.1 = name e.1) (h : Rewritten name s d.2 e.2) :
    renamed name (within (.key d.1) (read d.2)) = renamed name (within (.key e.1) (read e.2)) := by
  rw [renamed_within, renamed_within, hread _ _ h ((distinctKeys_table_iff.1 ht).2 _ hd),
    Step.rename, Step.rename, hname]

/-- A field is read alike in both tables. -/
theorem renamed_field {read : Value Letters → Checked α} (hread : Respects name f.2 read)
    (ht : DistinctKeys (.table t)) (h : SameField name t u f) :
    renamed name (field t f.1 read) = renamed name (field u f.1 read) := by
  rw [field, field]
  rcases h.cases_eq with ⟨hnone, hnone'⟩ | ⟨d, e, hd, he, hname, hrewritten⟩
  · rw [hnone, hnone']
  · rw [hd, he]
    exact renamed_within_key hread ht (mem_of_firstOf? hd) hname hrewritten

/-- A field with a default is read alike in both tables. -/
theorem renamed_fieldOr {read : Value Letters → Checked α} (hread : Respects name f.2 read)
    (ht : DistinctKeys (.table t)) (h : SameField name t u f) (default : α) :
    renamed name (fieldOr t f.1 default read) = renamed name (fieldOr u f.1 default read) := by
  rw [fieldOr, fieldOr]
  rcases h.cases_eq with ⟨hnone, hnone'⟩ | ⟨d, e, hd, he, hname, hrewritten⟩
  · rw [hnone, hnone']
  · rw [hd, he]
    exact renamed_within_key hread ht (mem_of_firstOf? hd) hname hrewritten

/-! ### Records -/

section Record

variable {fields : List (List String × Shape)} (hkeys : (fields.flatMap (·.1)).Nodup)
include hkeys

/-- No key is a spelling of two fields. -/
theorem eq_of_mem_keys {g : List String × Shape} (hf : f ∈ fields) (hg : g ∈ fields) {key : String}
    (hkf : key ∈ f.1) (hkg : key ∈ g.1) : f = g := by
  by_contra hne
  have : Std.Symm (Function.onFun List.Disjoint fun f : List String × Shape => f.1) :=
    ⟨fun _ _ h => List.Disjoint.symm h⟩
  exact (List.nodup_flatMap.1 hkeys).2.forall hf hg hne hkf hkg

/-- A key with a meaning has the shape of its field. -/
theorem entry_of_mem_keys (hf : f ∈ fields) {key : String} (hkey : key ∈ f.1) :
    (Shape.record fields).entry key = f.2 := by
  have hmem (g : List String × Shape) :
      (g.1.map ofString).contains (ofString key) = true ↔ key ∈ g.1 := by
    rw [List.contains_iff_mem, List.mem_map_of_injective ofString_injective]
  have hsome : (fields.find? fun f => (f.1.map ofString).contains (ofString key)).isSome = true :=
    List.find?_isSome.2 ⟨f, hf, (hmem f).2 hkey⟩
  obtain ⟨g, hg⟩ := Option.isSome_iff_exists.1 hsome
  have hfound := List.find?_some hg
  have hkg : key ∈ g.1 := (hmem g).1 hfound
  have heq := eq_of_mem_keys hkeys hf (List.mem_of_find?_eq_some hg) hkey hkg
  rw [Shape.entry, hg, heq]
  rfl

/-- The value of a key is written in another way. -/
theorem sameField_entry {es fs : List (Letters × Value Letters)} {key : Letters}
    (h : Rewritten name ((Shape.record fields).entry key) v w)
    (hdistinct : DistinctKeys (.table (es ++ (key, v) :: fs))) (hf : f ∈ fields) :
    SameField name (es ++ (key, v) :: fs) (es ++ (key, w) :: fs) f := by
  have hkey : key ∉ es.map (·.1) := by
    have hnodup := (distinctKeys_table_iff.1 hdistinct).1
    simp only [List.map_append, List.map_cons, List.nodup_middle, List.nodup_cons,
      List.mem_append, not_or] at hnodup
    exact hnodup.1.1
  refine sameField_of_rel fun k hk => ?_
  rw [Table.get?_middle hkey, Table.get?_middle hkey]
  by_cases heq : ofString k = key
  · rw [if_pos heq, if_pos heq]
    rw [← heq, entry_of_mem_keys hkeys hf hk] at h
    exact .some h
  · rw [if_neg heq, if_neg heq]
    exact rel_refl _

omit hkeys in
/-- A field that is spelled in one way only is found under that spelling. -/
theorem firstOf?_of_only {keys : List String} {key : String} (hkey : key ∈ keys)
    (h : ∀ k ∈ keys, t.get? k = if k = key then some v else none) :
    firstOf? t keys = some (key, v) := by
  induction keys with
  | nil => cases hkey
  | cons k keys ih =>
    rw [List.forall_mem_cons] at h
    rw [firstOf?, ofString_letters, h.1]
    by_cases heq : k = key
    · rw [if_pos heq, heq]
    · rw [if_neg heq]
      exact ih ((List.mem_cons.1 hkey).resolve_left (Ne.symm heq)) h.2

/-- A field is spelled in another way. -/
theorem sameField_respell {g : List String × Shape} {es fs : List (Letters × Value Letters)}
    {key key' : String} (hf : f ∈ fields) (hkey : key ∈ f.1) (hkey' : key' ∈ f.1)
    (hname : name key = name key') (honly : ∀ k ∈ f.1, ofString k ∉ (es ++ fs).map (·.1))
    (hg : g ∈ fields) :
    SameField name (es ++ (ofString key, v) :: fs) (es ++ (ofString key', v) :: fs) g := by
  have hnew (k : String) (hk : k ∈ f.1) : ofString k ∉ es.map (·.1) := fun hmem =>
    honly k hk (List.map_append ▸ List.mem_append_left _ hmem)
  have hget (j k : String) (hj : j ∈ f.1) : Table.get? (es ++ (ofString j, v) :: fs) (ofString k) =
      if k = j then some v else Table.get? (es ++ fs) (ofString k) := by
    rw [Table.get?_middle (hnew j hj) fs (ofString k) v]
    simp only [ofString_inj]
  by_cases heq : g = f
  · subst heq
    have hfirst (j : String) (hj : j ∈ g.1) :
        firstOf? (es ++ (ofString j, v) :: fs) g.1 = some (j, v) := by
      refine firstOf?_of_only hj fun k hk => ?_
      rw [hget j k hj, Table.get?_eq_none_iff.2 (honly k hk)]
    rw [SameField, hfirst key hkey, hfirst key' hkey']
    exact .some ⟨hname, .refl _ v⟩
  · -- Neither spelling is one of another field.
    refine sameField_of_rel fun k hk => ?_
    have hother (j : String) (hj : j ∈ f.1) : k ≠ j := fun hkj =>
      heq (eq_of_mem_keys hkeys hg hf hk (hkj ▸ hj))
    rw [hget key k hkey, hget key' k hkey', if_neg (hother key hkey), if_neg (hother key' hkey')]
    exact rel_refl _

/-- **Records.**  They are read alike if they are where the fields are the same; no key may be a
    spelling of two fields. -/
theorem respects_record {read : Table (Value Letters) Letters → Checked α} (kind : String)
    (hread : ∀ t u, DistinctKeys (.table t) → (∀ f ∈ fields, SameField name t u f) →
      renamed name (read t) = renamed name (read u)) :
    Respects name (.record fields) (record kind read) := by
  -- As for lists; each step leaves every field the same.
  intro v w h
  generalize hrecord : Shape.record fields = shape at h
  induction h with
  | refl s v => exact fun _ => rfl
  | symm h ih => exact fun hw => (ih hrecord (h.distinctKeys_iff.2 hw)).symm
  | trans huv _ ihuv ihvw =>
    intro hu
    exact (ihuv hrecord hu).trans (ihvw hrecord (huv.distinctKeys_iff.1 hu))
  | @entries shape es fs h =>
    intro hes
    refine hread es fs hes fun f _ => sameField_of_rel fun key _ => ?_
    rw [Table.get?_of_perm (distinctKeys_table_iff.1 hes).1 h]
    exact rel_refl _
  | item => exact fun _ => rfl
  | @entry shape es fs key v w h ih =>
    subst hrecord
    exact fun hes => hread _ _ hes fun f hf => sameField_entry hkeys h hes hf
  | @unknown fields' es key v hkey hnew hv =>
    cases hrecord
    refine fun hes => hread _ _ hes fun f hf => sameField_of_rel fun k hk => ?_
    have hne : ofString k ≠ key := fun heq => hkey f hf (heq ▸ List.mem_map_of_mem hk)
    rw [Table.get?_append, Table.get?_singleton, if_neg hne, Option.or_none]
    exact rel_refl _
  | respell hf hkey hkey' hname honly =>
    cases hrecord
    exact fun hes => hread _ _ hes fun g hg => sameField_respell hkeys hf hkey hkey' hname honly hg

end Record

end LineCensus.Schema
