import LineCensus.Path
import LineCensus.Table
import LineCensus.Text.Quoted

namespace LineCensus

open Text

/-!
# Language overrides

* `Override.parse` — an override `extension=language` of a command line.
* `Overrides.normalize` — overrides by literal path and by extension.  A key with a slash is a
  path only; any other key is both.
-/

/-- The message for a text that is no override. -/
def Override.problem (spec : String) : String :=
  "Invalid override " ++ quoted spec ++ ". Use: ext=language"

/-- The key and the language of an override: two texts that are not blank, with one equals sign
    between them. -/
def Override.parse (spec : String) : Except String (String × String) :=
  match splitAtChar '=' spec.toList with
  | [key, language] =>
    if allBlank key || allBlank language then .error (Override.problem spec)
    else .ok (String.ofList (trim key), String.ofList (trim language))
  | _ => .error (Override.problem spec)

/-- Languages by path and by extension. -/
abbrev Overrides := Table String

/-- Adds one override to the normalized ones. -/
def Overrides.add (o : Overrides) (key language : String) : Overrides :=
  let o := Table.insert o (Path.normalize key) language
  if key.toList.contains '/' then o else Table.insertNew o (normalizeExtension key) language

/-- The overrides with their keys normalized. -/
def Overrides.normalize (pairs : List (String × String)) : Overrides :=
  pairs.foldl (fun o e => Overrides.add o e.1 e.2) []

end LineCensus
