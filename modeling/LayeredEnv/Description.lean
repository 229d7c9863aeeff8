import LayeredEnv.Request

/-!
# Descriptions on one line

How requirements, values and requests show in a log: every record by its name and fields, every
text quoted.
-/

namespace LayeredEnv

/-- Descriptions with a comma between neighbours. -/
def commaSeparated (parts : List String) : String :=
  ", ".intercalate parts

/-- A list of descriptions in brackets. -/
def describeList (parts : List String) : String :=
  "[" ++ commaSeparated parts ++ "]"

/-- Named descriptions in braces. -/
def describeMap (parts : List (String × String)) : String :=
  "\x7b" ++ commaSeparated (parts.map fun p => Text.quoted p.1 ++ ": " ++ p.2) ++ "\x7d"

/-- A record by its name and fields. -/
def describeRecord (name : String) (fields : List (String × String)) : String :=
  name ++ " \x7b " ++ commaSeparated (fields.map fun p => p.1 ++ ": " ++ p.2) ++ " \x7d"

/-- A truth value. -/
def describeBool (b : Bool) : String :=
  if b then "true" else "false"

/-- A text that may be absent. -/
def describeOptional : Option String → String
  | none => "None"
  | some s => "Some(" ++ Text.quoted s ++ ")"

namespace Json

mutual

/-- The description of a value. -/
def describe : Json → String
  | .null => "Null"
  | .bool b => "Bool(" ++ describeBool b ++ ")"
  | .int n => "Number(" ++ (Json.int n).compactText ++ ")"
  | .float x => "Number(" ++ (Json.float x).compactText ++ ")"
  | .string s => "String(" ++ Text.quoted s ++ ")"
  | .array items => "Array " ++ describeList (describeItems items)
  | .fields entries => "Object " ++ describeMap (describeEntries entries)

/-- The descriptions of values. -/
def describeItems : List Json → List String
  | [] => []
  | item :: items => describe item :: describeItems items

/-- The descriptions of fields, by name. -/
def describeEntries : List (String × Json) → List (String × String)
  | [] => []
  | (name, value) :: entries => (name, describe value) :: describeEntries entries

end

end Json

namespace Requirement

mutual

/-- The description of a requirement; of a check only the label shows. -/
def describe : Requirement → String
  | .key k => "Key(" ++ Text.quoted k ++ ")"
  | .equals k text =>
    describeRecord "Equals" [("key", Text.quoted k), ("value", Text.quoted text)]
  | .all parts => "All(" ++ describeList (describeParts parts) ++ ")"
  | .any parts => "Any(" ++ describeList (describeParts parts) ++ ")"
  | .predicate label _ => "Predicate \x7b label: " ++ describeOptional label ++ ", .. \x7d"

/-- The descriptions of requirements. -/
def describeParts : List Requirement → List String
  | [] => []
  | part :: parts => describe part :: describeParts parts

end

end Requirement

/-- The description of a side. -/
def Side.describe : Side → String
  | before => "Prefix"
  | after => "Suffix"

/-- The description of a scheme of names. -/
def NameScheme.describe (s : NameScheme) : String :=
  describeRecord "NamingConvention"
    [("local", s.localSide.describe), ("mode", s.nameSide.describe)]

/-- The description of a precedence. -/
def ModePrecedence.describe : ModePrecedence → String
  | environment => "Environment"
  | files => "Files"

/-- The description of a request; of the schema only whether there is one shows, of conversions
only their keys. -/
def Request.describe (r : Request) : String :=
  describeRecord "ResolveOptions"
    [("base_path", Text.quoted r.directory.text),
      ("required", describeList (r.required.map Requirement.describe)),
      ("schema", describeBool r.schema.isSome),
      ("force", describeBool r.force),
      ("naming", r.scheme.describe),
      ("mode_key", Text.quoted r.modeKey),
      ("mode_precedence", r.precedence.describe),
      ("mode", describeOptional r.mode),
      ("include_environment", describeBool r.useEnvironment),
      ("transforms", describeList (r.conversions.keys.map Text.quoted)),
      ("defaults", describeMap (Json.describeEntries r.defaults.entries))]

end LayeredEnv
