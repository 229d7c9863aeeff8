import LayeredEnv.Json.Basic

/-!
# Values of a TOML document

A table remembers how it came to be, because that decides what may be added to it later: a table
written in braces is closed, one that a header or a dotted key only passed through is open.
-/

namespace LayeredEnv.Toml

/-- How a table came to be. -/
inductive TableKind
  /-- Written in braces. -/
  | inline
  /-- Opened by a header of its own; the document itself is such a table. -/
  | header
  /-- Passed through by a longer header. -/
  | implied
  /-- Passed through by a dotted key. -/
  | dotted
  deriving DecidableEq, Repr

/-- A value. -/
inductive Value
  | string (s : String)
  | integer (n : Int)
  | float (x : Binary64)
  /-- An infinity or no number at all. -/
  | notFinite
  | boolean (b : Bool)
  /-- A date, a time or both, in its normal form. -/
  | moment (text : String)
  | array (items : List Value)
  | table (kind : TableKind) (entries : List (String × Value))
  /-- The tables of a repeated header; each lists its entries. -/
  | tables (elements : List (List (String × Value)))
  deriving Inhabited

/-- The entries of a table by key. -/
abbrev Entries := List (String × Value)

/-- The name under which a date or a time stands in a JSON object of its own. -/
def momentKey : String := "$__toml_private_datetime"

namespace Value

mutual

/-- The value as JSON: what is not finite becomes null, and a date or a time an object. -/
def toJson : Value → Json
  | .string s => .string s
  | .integer n => .int n
  | .float x => .float x
  | .notFinite => .null
  | .boolean b => .bool b
  | .moment text => .fields [(momentKey, .string text)]
  | .array items => .array (itemsToJson items)
  | .table _ entries => .ofFields (entriesToJson entries)
  | .tables elements => .array (elementsToJson elements)

/-- Values as JSON. -/
def itemsToJson : List Value → List Json
  | [] => []
  | item :: items => toJson item :: itemsToJson items

/-- Entries as JSON. -/
def entriesToJson : List (String × Value) → List (String × Json)
  | [] => []
  | (key, value) :: entries => (key, toJson value) :: entriesToJson entries

/-- The tables of a repeated header as JSON. -/
def elementsToJson : List (List (String × Value)) → List Json
  | [] => []
  | entries :: elements => .ofFields (entriesToJson entries) :: elementsToJson elements

end

end Value

end LayeredEnv.Toml
