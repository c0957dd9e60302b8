import LineCensus.Xml.Token

namespace LineCensus.Xml

open Text

/-!
# Declarations of a document type

* `entityText?` — the text of an entity from the literal that declares it.
* `skipModel?` — what an element may hold, which is checked and not kept.
* `readEntity?`, `readAttributes` — declarations of entities and of attributes.
* `readDoctype` — what the tokens before the root declare.

Parameter entities are never read.  A reference to one leaves part of the declarations unknown, and
unless the document stands alone the rest of them is not heeded.
-/

/-- The text of a declared entity: references to characters are replaced at once, other references
    where the entity is used. -/
def entityText? : Nat → List Char → Option (List Char)
  | 0, _ => none
  | _, [] => some []
  | fuel + 1, c :: s =>
    if c = '%' then none
    else if c = '&' then
      match readReference? s with
      | none => none
      | some (.char c, r) =>
        if s.head? = some '#' then (entityText? fuel r).map (c :: ·)
        else (entityText? fuel r).map (('&' :: s.take (s.length - r.length)) ++ ·)
      | some (.entity _, r) =>
        (entityText? fuel r).map (('&' :: s.take (s.length - r.length)) ++ ·)
    else (entityText? fuel s).map (c :: ·)

/-- A character of a public identifier. -/
def isPublicChar (c : Char) : Bool := c.isAlphanum || " \n-'()+,./:=?;!*#@$_%".toList.contains c

/-- The tokens behind an identifier of something outside the document.  A notation needs no system
    identifier beside a public one. -/
def skipExternal? (notation? : Bool) : List Token → Option (List Token)
  | t :: .literal first :: ts =>
    if t = .plain "SYSTEM" then some ts
    else if t = .plain "PUBLIC" && first.all isPublicChar then
      match ts with
      | .literal _ :: ts => some ts
      | ts => if notation? then some ts else none
    else none
  | _ => none

/-- The tokens behind the end of a declaration. -/
def skipClose? : List Token → Option (List Token)
  | .close :: ts => some ts
  | _ => none

/-! ### Entities and notations -/

/-- The tokens behind the declaration of an entity, and what is declared then. -/
def readEntity? (d : Doctype) : List Token → Option (Doctype × List Token)
  | .percent :: .name ⟨[], _⟩ :: ts =>
    match ts with
    | .literal value :: ts => do
      if !d.halted then
        let _ ← entityText? (value.length + 1) value
      return (d, ← skipClose? ts)
    | ts => do return (d, ← skipClose? (← skipExternal? false ts))
  | .name ⟨[], name⟩ :: ts =>
    match ts with
    | .literal value :: ts => do
      let text ← if d.halted then some [] else entityText? (value.length + 1) value
      return (d.addEntity name (.text text), ← skipClose? ts)
    | ts => do
      let ts ← skipExternal? false ts
      let ts := match ts with
        | t :: .name ⟨[], _⟩ :: r => if t = .plain "NDATA" then r else ts
        | ts => ts
      return (d.addEntity name .outside, ← skipClose? ts)
  | _ => none

/-- The tokens behind the declaration of a notation. -/
def skipNotation? : List Token → Option (List Token)
  | .name ⟨[], _⟩ :: ts => do skipClose? (← skipExternal? true ts)
  | _ => none

/-! ### Elements -/

/-- The names of text and elements in any order, behind the mark of the text. -/
def skipMixed? (named : Bool) : List Token → Option (List Token)
  | .closeRound sign :: ts =>
    if sign = some '*' || (sign = none && !named) then some ts else none
  | .bar :: .name _ :: ts => skipMixed? true ts
  | _ => none

/-- What stands between the members of a group, if anything does yet. -/
abbrev Divider := Option Token

mutual

/-- The tokens behind a member of the innermost of the open groups and all that follows in them. -/
def skipMember? (groups : List Divider) : List Token → Option (List Token)
  | .openRound :: ts => skipMember? (none :: groups) ts
  | .name _ :: ts => skipDivider? groups ts
  | .counted :: ts => skipDivider? groups ts
  | _ => none

/-- The tokens behind what follows a member.  All dividers of a group are of one kind. -/
def skipDivider? (groups : List Divider) : List Token → Option (List Token)
  | t :: ts =>
    match groups with
    | [] => none
    | divider :: outer =>
      match t with
      | .closeRound _ => if outer.isEmpty then some ts else skipDivider? outer ts
      | .comma => if divider = some .bar then none else skipMember? (some .comma :: outer) ts
      | .bar => if divider = some .comma then none else skipMember? (some .bar :: outer) ts
      | _ => none
  | [] => none

end

/-- The tokens behind the declaration of what an element may hold. -/
def skipModel? : List Token → Option (List Token)
  | .name _ :: ts =>
    match ts with
    | .openRound :: .hash word :: ts =>
      if word = "PCDATA".toList then do skipClose? (← skipMixed? false ts) else none
    | .openRound :: ts => do skipClose? (← skipMember? [none] ts)
    | t :: ts => if t = .plain "EMPTY" || t = .plain "ANY" then skipClose? ts else none
    | [] => none
  | _ => none

/-! ### Attributes -/

/-- The types of attributes whose values are lists of tokens. -/
def tokenTypes : List String :=
  ["ID", "IDREF", "IDREFS", "ENTITY", "ENTITIES", "NMTOKEN", "NMTOKENS"]

/-- The tokens behind a choice of words in brackets, each of which passes the test. -/
def skipChoice? (p : Token → Bool) : List Token → Option (List Token)
  | t :: .closeRound none :: ts => if p t then some ts else none
  | t :: .bar :: ts => if p t then skipChoice? p ts else none
  | _ => none

/-- A name without a colon. -/
def isPlainName : Token → Bool
  | .name n => n.space.isEmpty
  | _ => false

/-- A name or a word. -/
def isWord : Token → Bool
  | .name _ | .word => true
  | _ => false

/-- The type of an attribute: whether its values are lists of tokens. -/
def readType? : List Token → Option (Bool × List Token)
  | .openRound :: ts => (skipChoice? isWord ts).map (true, ·)
  | .name ⟨[], t⟩ :: ts =>
    if t = "CDATA".toList then some (false, ts)
    else if tokenTypes.any (·.toList == t) then some (true, ts)
    else if t = "NOTATION".toList then
      match ts with
      | .openRound :: ts => (skipChoice? isPlainName ts).map (true, ·)
      | _ => none
    else none
  | _ => none

/-- The default of an attribute as it is written, if it has one. -/
def readDefault? : List Token → Option (Option (List Char) × List Token)
  | .literal value :: ts => some (some value, ts)
  | .hash word :: ts =>
    if word = "IMPLIED".toList || word = "REQUIRED".toList then some (none, ts)
    else if word = "FIXED".toList then
      match ts with
      | .literal value :: ts => some (some value, ts)
      | _ => none
    else none
  | _ => none

/-- Reads the attributes of an element up to the end of their declaration. -/
def readAttributeRules (element : Name) :
    Nat → Doctype → List Token → Reading (Doctype × List Token)
  | 0, _, _ => failure
  | _ + 1, d, .close :: ts => return (d, ts)
  | fuel + 1, d, .name key :: ts => do
    let (tokens, ts) ← readType? ts
    let (written, ts) ← readDefault? ts
    let value ← match written with
      | some s => if d.halted then pure none else some <$> attributeValue d tokens s
      | none => pure none
    readAttributeRules element fuel (d.addRule ⟨element, key, tokens, value⟩) ts
  | _ + 1, _, _ => failure

/-! ### The document type -/

/-- A parameter entity is referred to. -/
def Doctype.missParameter (d : Doctype) : Doctype :=
  { d with partly := true, halted := !d.standalone }

/-- Reads declarations up to the closing bracket of the document type. -/
def readDeclarations : Nat → Doctype → List Token → Reading (Doctype × List Token)
  | 0, _, _ => failure
  | fuel + 1, d, t :: ts =>
    match t with
    | .closeSquare => return (d, ts)
    | .remark => readDeclarations fuel d ts
    | .parameter => readDeclarations fuel d.missParameter ts
    | .declare keyword =>
      if keyword = "ENTITY".toList then do
        let (d, ts) ← readEntity? d ts
        readDeclarations fuel d ts
      else if keyword = "ATTLIST".toList then
        match ts with
        | .name element :: ts => do
          let (d, ts) ← readAttributeRules element (ts.length + 1) d ts
          readDeclarations fuel d ts
        | _ => failure
      else if keyword = "ELEMENT".toList then do readDeclarations fuel d (← skipModel? ts)
      else if keyword = "NOTATION".toList then do readDeclarations fuel d (← skipNotation? ts)
      else failure
    | _ => failure
  | _ + 1, _, [] => failure

/-- Reads a document type behind its keyword. -/
def readDoctype (d : Doctype) : List Token → Reading (Doctype × List Token)
  | .name _ :: ts => do
    let (d, ts) := match skipExternal? false ts with
      | some r => ({ d with partly := true }, r)
      | none => (d, ts)
    match ts with
    | .openSquare :: ts => do
      let (d, ts) ← readDeclarations (ts.length + 1) d ts
      return (d, ← skipClose? ts)
    | ts => return (d, ← skipClose? ts)
  | _ => failure

/-- What the tokens before the root declare: there is one document type at most. -/
def readProlog (d : Doctype) (ts : List Token) : Reading Doctype :=
  match ts.dropWhile (· == .remark) with
  | [] => return d
  | .declare keyword :: ts => do
    if keyword != "DOCTYPE".toList then failure
    let (d, ts) ← readDoctype d ts
    if ts.all (· == .remark) then return d else failure
  | _ => failure

end LineCensus.Xml
