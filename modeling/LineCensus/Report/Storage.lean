import LineCensus.Report.Sheet
import LineCensus.Json.Parser
import LineCensus.Xml.Parser

namespace LineCensus

open Text

/-!
# Storing reports and comparisons

* `Format` — JSON, CSV or XML, and `Format.ofName?` the format of a name.
* `Report.dump`, `Comparison.dump?` — the text of a report and of a comparison.
* `Malformation` — why a stored text gives no report.
* `Report.load` — the report of a stored text.  JSON and XML keep every field; a sheet is as old as
  the moment at which it is read.
-/

/-- A format of stored reports. -/
inductive Format where
  | json
  | csv
  | xml
  deriving DecidableEq, Repr

/-- The name of a format. -/
def Format.name : Format → String
  | .json => "json"
  | .csv => "csv"
  | .xml => "xml"

/-- The formats. -/
def Format.all : List Format := [.json, .csv, .xml]

/-- The format with a name. -/
def Format.ofName? (name : String) : Option Format := Format.all.find? fun f => f.name == name

/-- The tags of a report that hold lists, as texts of any kind. -/
def reportContainers {τ : Type} [Spelled τ] : Xml.Containers τ :=
  [(Spelled.ofString "files", Spelled.ofString "file"),
   (Spelled.ofString "languages", Spelled.ofString "language"),
   (Spelled.ofString "unsupportedFiles", Spelled.ofString "unsupportedFile")]

/-- The tags of a comparison that hold lists. -/
def comparisonContainers : Xml.Containers Letters :=
  [("language_deltas", "language_delta"), ("new_files", "path"), ("removed_files", "path"),
   ("modified_files", "file")]

/-- The text of a report. -/
def Report.dump (format : Format) (r : Report) : Letters :=
  match format with
  | .json => Json.write .report r.toValue ++ [.char '\n']
  | .csv => Csv.write r.sheet
  | .xml => (Xml.Element.ofValue reportContainers (ofString "report") r.toValue).write

/-- The text of a comparison.  There is none in JSON if it has surrogates. -/
def Comparison.dump? (format : Format) (c : Comparison) : Option Letters :=
  match format with
  | .json => (chars? (Json.write .comparison c.toValue)).map fun s => letters s ++ [.char '\n']
  | .csv => some (Csv.write c.sheet)
  | .xml => some (Xml.Element.ofValue comparisonContainers (ofString "comparison") c.toValue).write

/-! ### Loading -/

/-- Why a stored text is no report.  `surrogates` says that there are some in the text of an XML
    document, which is read as bytes. -/
inductive Malformation where
  | encoding (flaw : IllFormed) (bytes : List UInt8)
  | json (text : Letters) (fault : Json.Fault)
  | xml
  | surrogates
  | rootElement (tag : String)
  | document (r : Report.Refusal)
  | sheet (f : SheetFault)
  | excess (e : Excess)

/-- The bytes at fault, in words. -/
def flawText (flaw : IllFormed) (bytes : List UInt8) : String :=
  let place :=
    if flaw.stop = flaw.start + 1 then
      "byte 0x" ++ String.ofList (showHex 2 ((bytes.drop flaw.start).headD 0).toNat) ++
        " in position " ++ numeral flaw.start
    else "bytes in position " ++ numeral flaw.start ++ "-" ++ numeral (flaw.stop - 1)
  "'utf-8' codec can't decode " ++ place ++ ": " ++ flaw.flaw.text

/-- The path of an issue, or the whole report. -/
def fieldOf (i : Schema.Issue) : String := if i.place.isEmpty then "report" else i.path

/-- A number of a line in front of a text. -/
def onLine (line : Nat) (text : Letters) : Letters :=
  ofString ("line " ++ numeral line ++ ": ") ++ text

/-- The field that is at fault. -/
def Malformation.field : Malformation → String
  | .encoding _ _ => "encoding"
  | .json _ _ => "json"
  | .xml | .surrogates => "xml"
  | .rootElement _ => "report"
  | .document .notTable => "report"
  | .document (.issue i) => fieldOf i
  | .document (.defect d) => d.field
  | .sheet (.missingColumn name) => name
  | .sheet (.unknownKind _ _) => "kind"
  | .sheet (.issue _ i) => fieldOf i
  | .sheet .strayReturn => "csv"
  | .excess _ => "report"

/-- What is at fault. -/
def Malformation.text : Malformation → Letters
  | .encoding flaw bytes => flawText flaw bytes
  | .json text fault => fault.message text
  | .xml => "<syntax error>"
  | .surrogates => "surrogates not allowed"
  | .rootElement tag => ofString ("root element is <" ++ tag ++ ">, expected <report>")
  | .document .notTable => "top-level value must be an object"
  | .document (.issue i) => i.complaint.text
  | .document (.defect d) => d.text
  | .sheet (.missingColumn _) => "missing CSV column"
  | .sheet (.unknownKind line kind) =>
    onLine line (ofString "unknown row kind " ++ (kind.map quotedLetters).getD (ofString "None"))
  | .sheet (.issue line i) => onLine line i.complaint.text
  | .sheet .strayReturn => "new-line character seen in unquoted field"
  | .excess e => e.text

/-- A malformation in words. -/
def Malformation.message (m : Malformation) : Letters :=
  ofString ("Malformed report (" ++ m.field ++ "): ") ++ m.text

/-- A fault of a JSON text as a malformation. -/
def Malformation.ofJson (text : Letters) (fault : Json.Fault) : Malformation :=
  match fault.problem with
  | .excess e => .excess e
  | _ => .json text fault

/-- What one level of elements weighs. -/
def elementWeight : Nat := 2

/-- The report of an element. -/
def Report.ofElement (root : Xml.Element) : Except Malformation Report :=
  if root.tag ≠ "report" then .error (.rootElement root.tag)
  else if maxNesting < elementWeight * root.depth then .error (.excess .nesting)
  else (Report.ofValue (root.toValue reportContainers).spelled).mapError .document

/-- The report of an XML document, which is read as bytes. -/
def Report.ofXml (text : Letters) : Except Malformation Report :=
  match chars? text with
  | none => .error .surrogates
  | some s =>
    match Xml.parse? s with
    | none => .error .xml
    | some root => Report.ofElement root

/-- The report of a text in one of the formats. -/
def Report.load (format : Format) (now : Moment) (text : Letters) : Except Malformation Report :=
  match format with
  | .json =>
    match Json.parse text with
    | .error fault => .error (.ofJson text fault)
    | .ok v => (Report.ofValue v).mapError .document
  | .xml => Report.ofXml text
  | .csv => (Report.ofSheet text now).mapError .sheet

/-- The text of a stored file: UTF-8, every kind of line end as a line feed. -/
def storedText (bytes : List UInt8) : Except Malformation String :=
  match decodeUtf8 bytes with
  | .ok s => .ok (String.ofList (unifyNewlines s))
  | .error flaw => .error (.encoding flaw bytes)

end LineCensus
