import LineCensus.Config.Reading
import LineCensus.Proofs.Registry.Replacement
import LineCensus.Proofs.Schema.Fields

namespace LineCensus

open Text Schema

/-!
# Configured languages and their names

A language of a configuration stands under a key, which need not be its name.  It is found under
the key all the same:

* `Registry.NamesUnshared` — no later definition goes by a name of a definition; then none displaces
  it, and it holds all its names.
* `Language.gives_names` — the name and the aliases of a language that is read from a table.
* `Config.gives_keyedValue` — a table that has been given its key is read as a language that goes by it.
* `Config.found_under_key` — a configured language in the registry, behind the built-in ones.
-/

/-! ### Definitions whose names are not shared -/

namespace Registry

variable {ls qs : List Language} {d : Language} {i : Nat}

/-- No definition behind place `i` goes by a name of `d`. -/
def NamesUnshared (ls : List Language) (i : Nat) (d : Language) : Prop :=
  ∀ j e, i < j → ls[j]? = some e → ∀ key, GoesBy key d → ¬ GoesBy key e

theorem goesBy_alias {name : String} (h : name ∈ d.aliases) : GoesBy (lowercase name) d := by
  rw [GoesBy, Language.lookupNames, mem_dedup]
  exact List.mem_map_of_mem (List.mem_cons_of_mem d.name h)

/-- A definition that displaces another one shares a name with it, for it goes by its own. -/
theorem NamesUnshared.not_displaced (h : NamesUnshared ls i d) (hd : ls[i]? = some d) :
    ¬ Displaced ls i := by
  rintro ⟨j, hij, d', e, hd', he, hgoes, -⟩
  obtain rfl : d = d' := Option.some.inj (hd.symm.trans hd')
  exact h j e hij he _ hgoes (goesBy_name e)

theorem NamesUnshared.holds (h : NamesUnshared ls i d) (hd : ls[i]? = some d)
    {p : Language → Prop} (hp : p d) (hlater : ∀ j e, i < j → ls[j]? = some e → ¬ p e) :
    Holds p ls ⟨i, d⟩ :=
  ⟨⟨hd, hp, hlater⟩, h.not_displaced hd⟩

/-- What holds of all definitions behind a place still does with others in front of the list. -/
theorem forall_later_append {P : Language → Prop} (h : ∀ j e, i < j → qs[j]? = some e → P e) :
    ∀ j e, ls.length + i < j → (ls ++ qs)[j]? = some e → P e := by
  intro j e hj he
  rw [List.getElem?_append_right (by omega)] at he
  exact h (j - ls.length) e (by omega) he

/-- **Unshared, found.**  A definition whose names no later one shares is found under all of them,
    and under the extensions that no later one claims, whatever the definitions in front of it. -/
theorem NamesUnshared.found (h : NamesUnshared qs i d) (hd : qs[i]? = some d)
    (ls : List Language) :
    (∀ name, GoesBy (lowercase name) d →
      (build (ls ++ qs)).get? name = some ⟨ls.length + i, d⟩) ∧
    ∀ ext, Claims ext d → (∀ j e, i < j → qs[j]? = some e → ¬ Claims ext e) →
      (build (ls ++ qs)).extensions.get? ext = some ⟨ls.length + i, d⟩ := by
  have hreflects := reflects_build (ls ++ qs)
  have hplace : (ls ++ qs)[ls.length + i]? = some d := by
    rw [List.getElem?_append_right (by omega), Nat.add_sub_cancel_left, hd]
  have hbehind : NamesUnshared (ls ++ qs) (ls.length + i) d := forall_later_append h
  refine ⟨fun name hname => ?_, fun ext hext hlater => ?_⟩
  · apply (hreflects.get?_names _ _).2
    exact hbehind.holds hplace hname fun j e hj he => hbehind j e hj he _ hname
  · apply (hreflects.get?_extensions _ _).2
    exact hbehind.holds hplace hext (forall_later_append hlater)

end Registry

/-! ### Languages from tables -/

namespace Language

/-- The name and the aliases are those of the table. -/
theorem gives_names (t : Table Value) : Gives (read t) fun c => Gives c fun l =>
    (∃ hne, field t ["name"] nonEmptyText = .ok ⟨l.name, hne⟩) ∧
      fieldOr t ["aliases"] [] (list text) = .ok l.aliases := by
  rw [read]
  refine Gives.bind (Gives.trivial _) fun extensions _ => ?_
  refine Gives.bind (Gives.trivial _) fun blocks _ => ?_
  rintro c hc l hl
  obtain rfl := Except.ok.inj hc
  split at hl
  · cases hl
  · next name aliases exts lineComments blockComments nested mark hfields =>
    have hparts := (Gives.self _).both ((Gives.self _).both (Gives.trivial _)) _ hfields
    obtain ⟨hname, haliases, -⟩ := hparts
    rw [ofFields] at hl
    split_ifs at hl
    · cases hl
      exact ⟨⟨name.2, hname⟩, haliases⟩
    · cases hl
    · cases hl

end Language

/-! ### The key of a table among its names -/

namespace Config

variable {key : String} {d : Language}

theorem nonEmptyText_eq_ok {v : Value} {s : { s : String // s ≠ "" }}
    (h : nonEmptyText v = .ok s) : v.text? = some s.1 := by
  rw [nonEmptyText] at h
  cases v with
  | text s' =>
    have hplain : plainText (.text s') = .ok s' := by
      have hs : string? s' = some s' := string?_ofString s'
      rw [plainText, hs]
    rw [hplain] at h
    dsimp only at h
    split_ifs at h
    · cases h
    · cases h
      rfl
  | _ => cases h

/-- The language goes by the key that it stands under. -/
def Keyed (e : String × Language) : Prop := Registry.GoesBy (lowercase e.1) e.2

/-- Every item that can be read is among what is read. -/
theorem gives_eachFrom_mem {α β : Type} (read : α → Checked β) (as : List α) (n : Nat) :
    Gives (eachFrom read n as) fun bs => ∀ a ∈ as, ∀ b, read a = .ok b → b ∈ bs := by
  induction as generalizing n with
  | nil => exact fun bs _ a ha => absurd ha List.not_mem_nil
  | cons a as ih =>
    have hhead := (Gives.self (read a)).within (.index n)
    refine ((hhead.both (ih (n + 1))).imp fun p hp => ?_).map
    rw [List.forall_mem_cons]
    refine ⟨fun b hb => ?_, fun a' ha' b hb => List.mem_cons_of_mem _ (hp.2 a' ha' b hb)⟩
    rw [hp.1, Except.ok.injEq] at hb
    exact hb ▸ List.mem_cons_self

/-- Unless the key is the name, it ends up among the aliases. -/
theorem gives_keyedAliases {name : Value} {n : String} (hname : name.text? = some n)
    (aliases : List Value) : Gives (keyedAliases key name aliases) fun items =>
      lowercase key = lowercase n ∨ ∃ v ∈ items, v.text? = some key := by
  intro items hitems
  rw [keyedAliases, hname] at hitems
  obtain rfl := Except.ok.inj hitems
  by_cases hsame : lowercase key = lowercase n
  · exact .inl hsame
  · by_cases hlisted : aliases.any (isText key) = true
    · obtain ⟨v, hv, htext⟩ := List.any_eq_true.1 hlisted
      refine .inr ⟨v, ?_, by simpa [isText] using htext⟩
      simpa [hlisted] using hv
    · refine .inr ⟨.text key, ?_, rfl⟩
      simp [hsame, hlisted]

/-- A table with a name and with its key among the aliases is read as a language that goes by the
    key. -/
theorem gives_insert (key : String) (t : Table Value) (name : Value) (aliases : List Value) :
    Gives (do
      let items ← keyedAliases key name aliases
      return (t.insert "name" name).insert "aliases" (.list items)) fun keyedTable =>
    Gives (Language.read keyedTable) fun c => Gives c (Registry.GoesBy (lowercase key)) := by
  refine Gives.bind (Gives.self _) fun items hitems => ?_
  intro keyedTable htable
  obtain rfl := Except.ok.inj htable
  refine (Language.gives_names _).imp fun c hc => hc.imp fun l hl => ?_
  obtain ⟨⟨hne, hname⟩, haliases⟩ := hl
  -- The values under the two keys of the new table are what the name and the aliases are read from.
  rw [field, firstOf?_of_get? (by rw [ofString_string, Table.get?_insert, if_neg (by decide),
    Table.get?_insert, if_pos rfl])] at hname
  rw [fieldOr, firstOf?_of_get? (by rw [ofString_string, Table.get?_insert, if_pos rfl])]
    at haliases
  have hletters := nonEmptyText_eq_ok ((Gives.self _).within _ _ hname)
  have hread : each text items = .ok l.aliases := (Gives.self _).within _ _ haliases
  rcases gives_keyedAliases hletters aliases items hitems with hsame | ⟨v, hv, hkey⟩
  · exact hsame ▸ Registry.goesBy_name l
  · have htext : text v = .ok key := by rw [text, hkey]
    exact Registry.goesBy_alias (gives_eachFrom_mem text items 0 _ hread v hv key htext)

/-- **The key is a name.**  Whatever stands under a key, if it is read as a language when it has been
    given the key, the language goes by the key. -/
theorem gives_keyedValue (key : String) (v : Value) : Gives (keyedValue key v) fun keyed =>
    Gives (Language.ofValue keyed) fun c => Gives c (Registry.GoesBy (lowercase key)) := by
  cases v with
  | table t =>
    refine Gives.map ?_
    rw [keyed]
    cases Table.get? t "aliases" with
    | none => exact gives_insert key t _ []
    | some v => exact Gives.bind (Gives.trivial _) fun aliases _ => gives_insert key t _ aliases
  | _ =>
    intro v' hv' c hc l hl
    obtain rfl := Except.ok.inj hv'
    obtain rfl := Except.ok.inj hc
    cases hl

theorem gives_readLanguages (v : Value) :
    Gives (readLanguages v) fun c => Gives c fun languages => ∀ e ∈ languages, Keyed e := by
  cases v with
  | table t =>
    rw [readLanguages]
    -- First each key is given to its value, then the values are read one by one.
    refine Gives.bind (P := fun keyed => ∀ e ∈ keyed, Gives (Language.ofValue e.2) fun c =>
      Gives c (Registry.GoesBy (lowercase e.1))) ?_ fun keyed hkeyed => ?_
    · exact Gives.mapM fun e _ => (gives_keyedValue e.1 e.2).map
    · refine Gives.bind (P := fun cs => ∀ c ∈ cs, Gives c Keyed) ?_ fun cs hcs => ?_
      · refine Gives.mapM fun e he => Gives.map ((hkeyed e he).imp fun c hc => ?_)
        have hentry : Gives (c.map fun l => (e.1, l)) Keyed := Gives.map hc
        exact hentry.within (.key e.1)
      · intro c hc
        obtain rfl := Except.ok.inj hc
        exact Gives.gather hcs
  | _ =>
    intro c hc languages hlanguages
    obtain rfl := Except.ok.inj hc
    cases hlanguages

theorem gives_languagesField (t : Table Value) :
    Gives (Language.misusable t ["languages"] [] readLanguages) fun c =>
      Gives c fun languages => ∀ e ∈ languages, Keyed e := by
  rw [Language.misusable]
  split
  · next key v _ =>
    exact Gives.map ((gives_readLanguages v).imp fun c hc => hc.within (.key key))
  · intro c hc languages hlanguages
    obtain rfl := Except.ok.inj hc
    obtain rfl := Except.ok.inj hlanguages
    exact List.forall_mem_nil _

/-- Every language of a configuration goes by its key. -/
theorem gives_ofValue (v : Value) :
    Gives (ofValue v) fun c => Gives c fun config => ∀ e ∈ config.languages, Keyed e := by
  cases v with
  | table t =>
    rw [ofValue, read]
    refine Gives.bind (gives_languagesField t) fun languages hlanguages => ?_
    intro c hc
    obtain rfl := Except.ok.inj hc
    refine Gives.map (Gives.imp (Gives.both (Gives.trivial _) (Gives.both (Gives.trivial _)
      (Gives.both hlanguages (Gives.trivial _)))) fun p hp => ?_)
    exact hp.2.2.1
  | _ =>
    intro c hc config hconfig
    obtain rfl := Except.ok.inj hc
    cases hconfig

/-- **Found under its key.**  A language of a configuration goes by its key.  If no later language
    of the configuration shares a name with it, then in the registry of all languages, behind the
    built-in ones, it is found under the key, under its name and under its aliases; and each of its
    extensions that no later language claims is its own, however the extension is written. -/
theorem found_under_key {v : Value} {c : Config} (h : ofValue v = .ok (.ok c)) {i : Nat}
    (hd : c.languages[i]? = some (key, d)) :
    lowercase key ∈ d.lookupNames ∧
    (Registry.NamesUnshared c.definitions i d →
      (∀ name ∈ key :: d.name :: d.aliases, (Registry.withBuiltins c.definitions).get? name =
        some ⟨builtinLanguages.length + i, d⟩) ∧
      ∀ ext ∈ d.extensions, (∀ j e, i < j → c.definitions[j]? = some e → ext ∉ e.extensions) →
        (Registry.withBuiltins c.definitions).extensions.get? ext =
          some ⟨builtinLanguages.length + i, d⟩ ∧
        ∀ written, normalizeExtension written = ext →
          (Registry.withBuiltins c.definitions).forExtension? written =
            some ⟨builtinLanguages.length + i, d⟩) := by
  have hkeyed : ∀ e ∈ c.languages, Keyed e := gives_ofValue v (.ok c) h c rfl
  have hkey : Registry.GoesBy (lowercase key) d := hkeyed (key, d) (List.mem_of_getElem? hd)
  refine ⟨hkey, fun hunshared => ?_⟩
  have hplace : c.definitions[i]? = some d := by
    rw [definitions, List.getElem?_map, hd]
    rfl
  obtain ⟨hnames, hextensions⟩ := hunshared.found hplace builtinLanguages
  rw [Registry.withBuiltins]
  constructor
  · simp only [List.forall_mem_cons]
    exact ⟨hnames key hkey, hnames d.name (Registry.goesBy_name d),
      fun name hname => hnames name (Registry.goesBy_alias hname)⟩
  · intro ext hext hlater
    have howner := hextensions ext hext hlater
    refine ⟨howner, fun written hwritten => ?_⟩
    rw [Registry.forExtension?, hwritten]
    exact howner

/-- `found_under_key` for a table `header` that redefines `C`, in front of a table that takes an
    extension from `Rust`. -/
theorem found_under_key_header :
    let header : Language := { name := "C", aliases := ["header"], extensions := ["h"] }
    let oxide : Language := { name := "oxide", extensions := ["rs"] }
    let document : Value := .table [("languages", .table
      [("header", .table [("name", .text "C"), ("extensions", .list [.text ".H"])]),
       ("oxide", .table [("extensions", .text "rs")])])]
    let c : Config := { standard with languages := [("header", header), ("oxide", oxide)] }
    ofValue document = .ok (.ok c) ∧
      (Registry.withBuiltins c.definitions).get? "header" = some ⟨15, header⟩ ∧
      (Registry.withBuiltins c.definitions).get? "C" = some ⟨15, header⟩ ∧
      (Registry.withBuiltins c.definitions).forExtension? ".H" = some ⟨15, header⟩ := by
  intro header oxide document c
  have hread : ofValue document = .ok (.ok c) := by decide +kernel
  -- Behind the first definition there is only the other one.
  have hbehind {j : Nat} {e : Language} (hj : 0 < j) (he : c.definitions[j]? = some e) :
      e = oxide := by
    obtain rfl : j = 1 := by
      have hlength : j < 2 := Registry.lt_length_of_getElem? he
      omega
    exact (Option.some.inj he).symm
  have hunshared : Registry.NamesUnshared c.definitions 0 header := by
    have hapart : ∀ name ∈ header.lookupNames, name ∉ oxide.lookupNames := by decide +kernel
    intro j e hj he name hname
    rw [hbehind hj he]
    exact hapart name hname
  have hentry : c.languages[0]? = some ("header", header) := rfl
  obtain ⟨-, hfound⟩ := found_under_key hread hentry
  obtain ⟨hnames, hextensions⟩ := hfound hunshared
  have hext : "h" ∈ header.extensions := List.mem_singleton_self "h"
  have hfree : ∀ j e, 0 < j → c.definitions[j]? = some e → "h" ∉ e.extensions := by
    intro j e hj he
    rw [hbehind hj he]
    decide
  refine ⟨hread, hnames "header" (by simp), hnames "C" (by simp [header]), ?_⟩
  exact (hextensions "h" hext hfree).2 ".H" (by decide +kernel)

end Config

end LineCensus
