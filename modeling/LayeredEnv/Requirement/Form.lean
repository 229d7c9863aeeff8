import LayeredEnv.Requirement.Basic

/-!
# The written form of requirements

A requirement without checks is written as a value: a string is a key, an object with the strings
`key` and `value` an equality, an object with a list `and` or `or` a combination.  An object that
fits several forms is read as the first that fits in this order, parts included, and fields that a
form does not name do not matter.
-/

namespace LayeredEnv

namespace Requirement

/-- Reads the fields of a written equality. -/
def equalsOfFields? (entries : List (String × Json)) : Option Requirement := do
  let k ← (← KeyMap.find? "key" entries).string?
  let text ← (← KeyMap.find? "value" entries).string?
  some (.equals k text)

mutual

/-- Reads a written requirement. -/
def ofForm? : Json → Option Requirement
  | .string k => some (.key k)
  | .fields entries =>
    match equalsOfFields? entries with
    | some r => some r
    | none =>
      match partsOfField? "and" entries with
      | some parts => some (.all parts)
      | none => (partsOfField? "or" entries).map .any
  | _ => none

/-- Reads the list in a field as written requirements. -/
def partsOfField? (name : String) : List (String × Json) → Option (List Requirement)
  | [] => none
  | (k, value) :: rest =>
    if k = name then
      match value with
      | .array items => ofForms? items
      | _ => none
    else partsOfField? name rest

/-- Reads a list of written requirements. -/
def ofForms? : List Json → Option (List Requirement)
  | [] => some []
  | item :: items =>
    match ofForm? item with
    | none => none
    | some part => (ofForms? items).map (part :: ·)

end

end Requirement

end LayeredEnv
