import LineCensus.Moment.Reading
import LineCensus.Text.Letter
import LineCensus.Text.Search

namespace LineCensus.Schema

open Text

/-!
# Issues with a document

* `Step`, `Issue` — where a document departs from its schema, and how.
* `Complaint` — the kinds of issue, with their short names and their words.
* `Checked` — a value, or all issues that stand in its way in the order of the fields.
-/

/-- A step into a document: to the value of a key, or to an item of a list. -/
inductive Step where
  | key (name : String)
  | index (n : Nat)
  deriving DecidableEq, Repr

/-- A step as it stands in a path. -/
def Step.text : Step → String
  | .key name => name
  | .index n => numeral n

/-- What is wrong with a value. -/
inductive Complaint where
  | missing
  | notText
  | emptyText
  | illFormedText
  | notVersion
  | notInteger
  | notIntegerText
  | fraction
  | notFinite
  | tooLarge
  | below (bound : Int)
  | notBool
  | notBoolText
  | notList
  | notTable
  | notRecord (name : String)
  | notMoment (problem : Moment.Problem)
  | notOneOf (choices : String)
  | rule (text : Letters)
  | unknownKey
  deriving DecidableEq

/-- The short name of a complaint. -/
def Complaint.tag : Complaint → String
  | .missing => "missing"
  | .notText => "string_type"
  | .emptyText => "string_too_short"
  | .illFormedText => "string_unicode"
  | .notVersion => "string_pattern_mismatch"
  | .notInteger => "int_type"
  | .notIntegerText => "int_parsing"
  | .fraction => "int_from_float"
  | .notFinite => "finite_number"
  | .tooLarge => "int_parsing_size"
  | .below _ => "greater_than_equal"
  | .notBool => "bool_type"
  | .notBoolText => "bool_parsing"
  | .notList => "tuple_type"
  | .notTable => "dict_type"
  | .notRecord _ => "model_type"
  | .notMoment .wrongType => "datetime_type"
  | .notMoment _ => "datetime_from_date_parsing"
  | .notOneOf _ => "literal_error"
  | .rule _ => "value_error"
  | .unknownKey => "extra_forbidden"

/-- A complaint in words. -/
def Complaint.text : Complaint → Letters
  | .missing => "Field required"
  | .notText => "Input should be a valid string"
  | .emptyText => "String should have at least 1 character"
  | .illFormedText => "Input should be a valid string, unable to parse raw data as a unicode string"
  | .notVersion => "String should match pattern '^\\d+\\.\\d+$'"
  | .notInteger => "Input should be a valid integer"
  | .notIntegerText => "Input should be a valid integer, unable to parse string as an integer"
  | .fraction => "Input should be a valid integer, got a number with a fractional part"
  | .notFinite => "Input should be a finite number"
  | .tooLarge => "Unable to parse input string as an integer, exceeded maximum size"
  | .below bound => "Input should be greater than or equal to " ++ intNumeral bound
  | .notBool => "Input should be a valid boolean"
  | .notBoolText => "Input should be a valid boolean, unable to interpret input"
  | .notList => "Input should be a valid tuple"
  | .notTable => "Input should be a valid dictionary"
  | .notRecord name => "Input should be a valid dictionary or instance of " ++ name
  | .notMoment problem => problem.text
  | .notOneOf choices => "Input should be " ++ choices
  | .rule text => ofString "Value error, " ++ replaceSurrogates text
  | .unknownKey => "Extra inputs are not permitted"

/-- A complaint and the place of the value it is about. -/
structure Issue where
  place : List Step
  complaint : Complaint
  deriving DecidableEq

/-- The place as a path with dots. -/
def Issue.path (i : Issue) : String := joinWith "." (i.place.map Step.text)

/-- A value, or the issues that stand in its way. -/
abbrev Checked (α : Type) := Except (List Issue) α

/-- A single issue with the value at hand. -/
def refuse {α : Type} (c : Complaint) : Checked α := .error [⟨[], c⟩]

/-- The issues of a part, as issues of the whole. -/
def within {α : Type} (step : Step) : Checked α → Checked α
  | .ok a => .ok a
  | .error issues => .error (issues.map fun i => { i with place := step :: i.place })

/-- Both values, or the issues of both. -/
def both {α β : Type} : Checked α → Checked β → Checked (α × β)
  | .ok a, .ok b => .ok (a, b)
  | .ok _, .error e => .error e
  | .error d, .ok _ => .error d
  | .error d, .error e => .error (d ++ e)

/-- Every item read, or the issues of all of them. -/
def eachFrom {α β : Type} (read : α → Checked β) (n : Nat) : List α → Checked (List β)
  | [] => .ok []
  | a :: as =>
    (both (within (.index n) (read a)) (eachFrom read (n + 1) as)).map fun p => p.1 :: p.2

/-- Every item of a list read, or the issues of all of them. -/
def each {α β : Type} (read : α → Checked β) (items : List α) : Checked (List β) :=
  eachFrom read 0 items

/-- All values, or the issues of all of them. -/
def gather {α : Type} : List (Checked α) → Checked (List α)
  | [] => .ok []
  | c :: cs => (both c (gather cs)).map fun p => p.1 :: p.2

end LineCensus.Schema
