import LineCensus.Proofs.Path
import LineCensus.Proofs.Registry.Listing

namespace LineCensus.Registry

open Text

/-!
# Overrides of single paths

An override whose key has a slash is meant for one path.  It is kept under the normal form of its
key, and the language of a path is looked for under its own normal form and under its extension:

* `literal?` — the language that overrides give a normal path.
* `resolve_literal` — to a path that is not named, such overrides make a difference only if a key
  is a spelling of its extension, as `./rs` is; none is if the keys name files in directories.
-/

variable {r : Registry} {pairs : List (String × String)} {path : String}

/-- The language of the last override whose key is a spelling of the path `norm`. -/
def literal? (pairs : List (String × String)) (norm : String) : Option String :=
  Table.get? (pairs.map fun e => (Path.normalize e.1, e.2)).reverse norm

theorem literal?_eq_none_iff {norm : String} :
    literal? pairs norm = none ↔ ∀ e ∈ pairs, Path.normalize e.1 ≠ norm := by
  rw [literal?, Table.get?_eq_none_iff, List.map_reverse, List.mem_reverse, List.map_map,
    List.mem_map]
  simp only [Function.comp_apply, not_exists, not_and, ne_eq]

/-- No key is a spelling of the empty text. -/
theorem literal?_empty (pairs : List (String × String)) : literal? pairs "" = none :=
  literal?_eq_none_iff.2 fun e _ => Path.normalize_ne_empty e.1

/-- Overrides with slashes in their keys are found under normal paths only. -/
theorem get?_normalize_eq_literal? (hslash : ∀ e ∈ pairs, '/' ∈ e.1.toList) (key : String) :
    Table.get? (Overrides.normalize pairs) key = literal? pairs key := by
  have hadd (o : Overrides) (e : String × String) (he : e ∈ pairs) :
      Overrides.add o e.1 e.2 = Table.insert o (Path.normalize e.1) e.2 := by
    rw [Overrides.add, if_pos (List.contains_iff_mem.2 (hslash e he))]
  rw [Overrides.normalize, List.foldl_ext _ _ _ hadd, literal?]
  have hfound := Table.get?_foldl_insert [] (pairs.map fun e => (Path.normalize e.1, e.2)) key
  rw [List.foldl_map] at hfound
  exact hfound.trans Option.or_none

/-- Of overrides that do not name a path, only one of its extension can apply to it. -/
theorem overrideFor?_of_get?_eq_none {o : Overrides} (hpath : o.get? (Path.normalize path) = none)
    (hempty : o.get? "" = none) :
    overrideFor? o path = (o.get? (Path.extension (Path.normalize path))).map
      (Path.extension (Path.normalize path), ·) := by
  rw [overrideFor?, List.findSome?_cons, hpath, List.findSome?_singleton]
  by_cases hext : Path.extension (Path.normalize path) = ""
  · rw [hext, hempty]
    simp
  · simp [hext]

theorem resolve_of_get?_eq_none (r : Registry) {o : Overrides}
    (hpath : o.get? (Path.normalize path) = none) (hempty : o.get? "" = none) :
    r.resolve path o =
      match o.get? (Path.extension (Path.normalize path)) with
      | none => r.resolve path []
      | some language =>
        match r.get? language with
        | some c => .ok (some c)
        | none => .error ⟨Path.extension (Path.normalize path), language⟩ := by
  rw [resolve, overrideFor?_of_get?_eq_none hpath hempty]
  cases o.get? (Path.extension (Path.normalize path)) with
  | none => exact (resolve_nil r path).symm
  | some language => rfl

/-- **Overrides of single paths.**  Overrides whose keys have slashes make no difference to a path
    that no key names, unless a key is a spelling of its extension; the last such override applies
    to the path as if it named the extension.  There is no such key if all of them name files in
    directories, and without overrides there is a language or none, but never a fault. -/
theorem resolve_literal (r : Registry) (hslash : ∀ e ∈ pairs, '/' ∈ e.1.toList)
    (hother : ∀ e ∈ pairs, Path.normalize e.1 ≠ Path.normalize path) :
    (r.resolve path (Overrides.normalize pairs) =
      match literal? pairs (Path.extension (Path.normalize path)) with
      | none => r.resolve path []
      | some language =>
        match r.get? language with
        | some c => .ok (some c)
        | none => .error ⟨Path.extension (Path.normalize path), language⟩) ∧
    ((∀ e ∈ pairs, '/' ∈ (Path.normalize e.1).toList) →
      r.resolve path (Overrides.normalize pairs) = r.resolve path []) ∧
    ∃ c, r.resolve path [] = .ok c := by
  have hget := get?_normalize_eq_literal? hslash
  have hresolve := resolve_of_get?_eq_none r
    ((hget _).trans (literal?_eq_none_iff.2 hother)) ((hget "").trans (literal?_empty pairs))
  rw [hget] at hresolve
  refine ⟨hresolve, fun hdirectories => ?_, _, resolve_nil r path⟩
  have hnone : literal? pairs (Path.extension (Path.normalize path)) = none :=
    literal?_eq_none_iff.2 fun e he hext =>
      Path.slash_not_mem_extension _ (hext ▸ hdirectories e he)
  rw [hresolve, hnone]

/-- `resolve_literal` for overrides of a file beside the path, of one above it and of one elsewhere,
    the last in an unknown language. -/
theorem resolve_literal_elsewhere :
    let rust : Language := { name := "Rust", extensions := ["rs"] }
    let r := build [rust, { name := "C", extensions := ["c"] }]
    let pairs := [("src/./old.rs", "C"), ("./src/lib/../../rs/main.rs", "C"), ("/rs", "Klingon")]
    (∀ e ∈ pairs, '/' ∈ e.1.toList) ∧
      (∀ e ∈ pairs, Path.normalize e.1 ≠ Path.normalize "src/main.rs") ∧
        r.resolve "src/main.rs" (Overrides.normalize pairs) = .ok (some ⟨0, rust⟩) := by
  intro rust r pairs
  have hslash : ∀ e ∈ pairs, '/' ∈ e.1.toList := by decide +kernel
  have hother : ∀ e ∈ pairs, Path.normalize e.1 ≠ Path.normalize "src/main.rs" := by decide +kernel
  refine ⟨hslash, hother, ?_⟩
  rw [(resolve_literal r hslash hother).2.1 (by decide +kernel)]
  decide +kernel

/-- **A path that overrides an extension.**  The key `./rs` has a slash, and its normal form is an
    extension: the override applies to other files, and may even fail on them. -/
theorem resolve_not_literal :
    let rust : Language := { name := "Rust", extensions := ["rs"] }
    let c : Language := { name := "C", extensions := ["c"] }
    let r := build [rust, c]
    '/' ∈ "./rs".toList ∧ Path.normalize "./rs" ≠ Path.normalize "src/main.rs" ∧
      r.resolve "src/main.rs" [] = .ok (some ⟨0, rust⟩) ∧
      r.resolve "src/main.rs" (Overrides.normalize [("./rs", "C")]) = .ok (some ⟨1, c⟩) ∧
      r.resolve "src/main.rs" (Overrides.normalize [("./rs", "Klingon")]) =
        .error ⟨"rs", "Klingon"⟩ := by
  decide +kernel

end LineCensus.Registry
