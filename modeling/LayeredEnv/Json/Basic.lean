import LayeredEnv.KeyMap
import LayeredEnv.Number.Binary64

/-!
# JSON values

Integers and binary numbers are different values, so `1` and `1.0` are told apart.  The fields of
an object stand in key order; `Json.object` puts them there.
-/

namespace LayeredEnv

/-- A JSON value. -/
inductive Json
  | null
  | bool (b : Bool)
  | int (n : Int)
  | float (x : Binary64)
  | string (s : String)
  | array (items : List Json)
  | fields (entries : List (String × Json))
  deriving Inhabited, Repr

namespace Json

/-- The object of a map. -/
def object (m : KeyMap Json) : Json :=
  .fields m.entries

/-- The object of a list of fields, the last one of each name. -/
def ofFields (entries : List (String × Json)) : Json :=
  object (KeyMap.ofList entries)

/-- The text of a string value. -/
def string? : Json → Option String
  | .string s => some s
  | _ => none

/-- The value of a field; values that are no object have none. -/
def field? : Json → String → Option Json
  | .fields entries, name => KeyMap.find? name entries
  | _, _ => none

end Json

end LayeredEnv
