import LayeredEnv.Json.Text
import LayeredEnv.Text.Quoted
import LayeredEnv.Requirement.Basic

/-!
# Schemas

A schema looks at the resolved values as a whole and replaces them, or refuses them.  A record
schema reads the values into a type and writes them back: keys that the type does not have are
dropped and defaults are filled in.  Reading walks the values in key order, and the first one of a
wrong type is the error; only then is a missing field looked for, in the order of declaration.
-/

namespace LayeredEnv

/-- Why a schema refuses the values. -/
inductive SchemaError
  | missingField (name : String)
  /-- A value of another type than the one expected. -/
  | wrongType (found : Json) (expected : String)
  /-- An integer that the expected type does not hold. -/
  | outOfRange (found : Int) (expected : String)
  /-- The written record is no map. -/
  | notAMap (written : Json)
  /-- A reason of the caller's own. -/
  | refused (reason : String)
  deriving Repr

namespace SchemaError

/-- How a value is named in an error. -/
def describe : Json → String
  | .null => "null"
  | .bool b => "boolean `" ++ (if b then "true" else "false") ++ "`"
  | .int n => "integer `" ++ String.ofList (Numeral.ofInt n) ++ "`"
  | .float x => "floating point `" ++ String.ofList (NumberLayout.json.render x) ++ "`"
  | .string s => "string " ++ Text.quoted s
  | .array _ => "sequence"
  | .fields _ => "map"

/-- The words for an error. -/
def message : SchemaError → String
  | missingField name => "missing field `" ++ name ++ "`"
  | wrongType found expected => "invalid type: " ++ describe found ++ ", expected " ++ expected
  | outOfRange found expected =>
    "invalid value: integer `" ++ String.ofList (Numeral.ofInt found) ++ "`, expected " ++ expected
  | notAMap written => "schema must serialize to a map, got " ++ written.compactText
  | refused reason => reason

end SchemaError

/-- Replaces the resolved values or refuses them. -/
abbrev Schema := Values → Except SchemaError Values

/-! ### Fields of records -/

/-- A field of a record: its key, how its value is read, and what it is when the key is absent. -/
structure Field (α : Type) where
  name : String
  decode : Json → Except SchemaError α
  absent? : Option α

namespace Field

/-- Reads the field. -/
def read (f : Field α) (values : Values) : Except SchemaError α :=
  match values.get? f.name with
  | some v => f.decode v
  | none =>
    match f.absent? with
    | some a => .ok a
    | none => .error (.missingField f.name)

/-- The error of a value for the field, if it has one. -/
def fault? (f : Field α) (v : Json) : Option SchemaError :=
  match f.decode v with
  | .ok _ => none
  | .error e => some e

end Field

/-- What the search for the first error has to know of a field. -/
structure FieldRule where
  name : String
  fault? : Json → Option SchemaError
  required : Bool

/-- The rule of a field. -/
def Field.rule (f : Field α) : FieldRule :=
  ⟨f.name, f.fault?, f.absent?.isNone⟩

namespace FieldRule

/-- The first value, in key order, that has the wrong type for its field. -/
def firstFault? (rules : List FieldRule) (values : Values) : Option SchemaError :=
  values.entries.findSome? fun p =>
    (rules.find? fun r => r.name == p.1).bind fun r => r.fault? p.2

/-- The first required field, in the order of declaration, that is absent. -/
def firstMissing? (rules : List FieldRule) (values : Values) : Option SchemaError :=
  (rules.find? fun r => r.required && !values.contains r.name).map fun r => .missingField r.name

/-- The error that reading a record with these fields ends in, if it does. -/
def check (rules : List FieldRule) (values : Values) : Except SchemaError Unit :=
  match firstFault? rules values with
  | some e => .error e
  | none =>
    match firstMissing? rules values with
    | some e => .error e
    | none => .ok ()

end FieldRule

/-! ### Types of fields -/

namespace Field

/-- Reads a string. -/
def decodeString : Json → Except SchemaError String
  | .string s => .ok s
  | v => .error (.wrongType v "a string")

/-- Reads a string or null. -/
def decodeStringOrNull : Json → Except SchemaError (Option String)
  | .null => .ok none
  | v => (decodeString v).map some

/-- Reads an integer of sixteen bits. -/
def decodeWord16 : Json → Except SchemaError UInt16
  | .int n =>
    if 0 ≤ n ∧ n < 65536 then .ok (UInt16.ofNat n.toNat) else .error (.outOfRange n "u16")
  | v => .error (.wrongType v "u16")

/-- Reads a boolean. -/
def decodeBool : Json → Except SchemaError Bool
  | .bool b => .ok b
  | v => .error (.wrongType v "a boolean")

end Field

/-! ### Record types -/

/-- A type that values can be read into and written from. -/
structure RecordType (α : Type) where
  read : Values → Except SchemaError α
  write : α → Json

namespace RecordType

/-- The schema that reads the values into the type and writes them back. -/
def schema (type : RecordType α) : Schema := fun values =>
  match type.read values with
  | .error e => .error e
  | .ok a =>
    match type.write a with
    | .fields entries => .ok (KeyMap.ofList entries)
    | v => .error (.notAMap v)

end RecordType

/-- Where a service listens. -/
structure ServiceSettings where
  host : String
  listenPort : UInt16
  debug : Bool
  deriving DecidableEq, Repr

namespace ServiceSettings

/-- The field `HOST`. -/
def hostField : Field String := ⟨"HOST", Field.decodeString, none⟩

/-- The field `PORT`. -/
def listenPortField : Field UInt16 := ⟨"PORT", Field.decodeWord16, none⟩

/-- The field `DEBUG`. -/
def debugField : Field Bool := ⟨"DEBUG", Field.decodeBool, some false⟩

/-- Reads the settings. -/
def read (values : Values) : Except SchemaError ServiceSettings := do
  FieldRule.check [hostField.rule, listenPortField.rule, debugField.rule] values
  return ⟨← hostField.read values, ← listenPortField.read values, ← debugField.read values⟩

/-- Writes the settings. -/
def write (s : ServiceSettings) : Json :=
  .ofFields [("HOST", .string s.host), ("PORT", .int s.listenPort.toNat), ("DEBUG", .bool s.debug)]

/-- The type of the settings. -/
def type : RecordType ServiceSettings := ⟨read, write⟩

end ServiceSettings

/-- How an application is run. -/
structure AppSettings where
  host : String
  workers : String
  note : Option String
  deriving DecidableEq, Repr

namespace AppSettings

/-- The field `HOST`. -/
def hostField : Field String := ⟨"HOST", Field.decodeString, none⟩

/-- The field `WORKERS`. -/
def workersField : Field String := ⟨"WORKERS", Field.decodeString, some "4"⟩

/-- The field `NOTE`. -/
def noteField : Field (Option String) := ⟨"NOTE", Field.decodeStringOrNull, some none⟩

/-- Reads the settings. -/
def read (values : Values) : Except SchemaError AppSettings := do
  FieldRule.check [hostField.rule, workersField.rule, noteField.rule] values
  return ⟨← hostField.read values, ← workersField.read values, ← noteField.read values⟩

/-- Writes the settings; a note that is absent is written as null. -/
def write (s : AppSettings) : Json :=
  .ofFields [("HOST", .string s.host), ("WORKERS", .string s.workers),
    ("NOTE", match s.note with | some text => .string text | none => .null)]

/-- The type of the settings. -/
def type : RecordType AppSettings := ⟨read, write⟩

end AppSettings

/-- A host alone, written as a bare string. -/
structure HostName where
  host : String
  deriving DecidableEq, Repr

namespace HostName

/-- The field `HOST`. -/
def hostField : Field String := ⟨"HOST", Field.decodeString, none⟩

/-- Reads the host. -/
def read (values : Values) : Except SchemaError HostName := do
  FieldRule.check [hostField.rule] values
  return ⟨← hostField.read values⟩

/-- The type of the host. -/
def type : RecordType HostName := ⟨read, fun h => .string h.host⟩

end HostName

/-- A map all of whose values are strings. -/
structure StringMap where
  strings : KeyMap String

namespace StringMap

/-- Reads strings, entry by entry in key order. -/
def readEntries : List (String × Json) → Except SchemaError (List (String × String))
  | [] => .ok []
  | (key, v) :: rest => do
    let s ← Field.decodeString v
    return (key, s) :: (← readEntries rest)

/-- Reads the map. -/
def read (values : Values) : Except SchemaError StringMap :=
  (readEntries values.entries).map fun entries => ⟨KeyMap.ofList entries⟩

/-- Writes the map. -/
def write (m : StringMap) : Json :=
  .object (m.strings.map .string)

/-- The type of maps of strings. -/
def type : RecordType StringMap := ⟨read, write⟩

end StringMap

/-! ### Schemas without a type -/

namespace Schema

/-- Drops everything. -/
def clear : Schema := fun _ => .ok .empty

/-- Refuses values with a key. -/
def reject (key : String) : Schema := fun values =>
  if values.contains key then .error (.refused (key ++ " is not allowed")) else .ok values

/-- Adds entries, in place of those that have their keys. -/
def insertAll (added : Values) : Schema := fun values =>
  .ok (added.entries.foldl (fun m p => m.insert p.1 p.2) values)

end Schema

end LayeredEnv
