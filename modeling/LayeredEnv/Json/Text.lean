import LayeredEnv.Json.Basic
import LayeredEnv.Number.Shortest

/-!
# The text of JSON values

Two ways to write a value: compact, without a blank outside of strings, and pretty, a line for
every element.  Strings escape the quote, the backslash and the characters below U+0020 and leave
all others as they are.

`Json.display` is how a value appears in an environment: a string without quotes, nothing for
null, and compact text for everything else.
-/

namespace LayeredEnv

namespace Json

/-- A character inside a quoted string. -/
def escapeChar (c : Char) : List Char :=
  if c == '"' then ['\\', '"']
  else if c == '\\' then ['\\', '\\']
  else if c == '\x08' then ['\\', 'b']
  else if c == '\x0c' then ['\\', 'f']
  else if c == '\n' then ['\\', 'n']
  else if c == '\r' then ['\\', 'r']
  else if c == '\t' then ['\\', 't']
  else if c.toNat < 0x20 then '\\' :: 'u' :: Numeral.hexPadded 4 c.toNat
  else [c]

/-- A string in quotes. -/
def quote (s : String) : List Char :=
  '"' :: s.toList.flatMap escapeChar ++ ['"']

/-- The text of a value that has no parts. -/
def atomText : Json → List Char
  | .null => ['n', 'u', 'l', 'l']
  | .bool true => ['t', 'r', 'u', 'e']
  | .bool false => ['f', 'a', 'l', 's', 'e']
  | .int n => Numeral.ofInt n
  | .float x => NumberLayout.json.render x
  | .string s => quote s
  | .array _ => ['[', ']']
  | .fields _ => ['\x7b', '\x7d']

/-! ### Compact text -/

mutual

/-- The compact text of a value. -/
def compact : Json → List Char
  | .array (item :: items) => '[' :: compact item ++ compactItems items ++ [']']
  | .fields ((name, value) :: entries) =>
    '\x7b' :: quote name ++ ':' :: compact value ++ compactFields entries ++ ['\x7d']
  | atom => atomText atom

/-- The further items of an array, a comma before each. -/
def compactItems : List Json → List Char
  | [] => []
  | item :: items => ',' :: compact item ++ compactItems items

/-- The further fields of an object, a comma before each. -/
def compactFields : List (String × Json) → List Char
  | [] => []
  | (name, value) :: entries =>
    ',' :: quote name ++ ':' :: compact value ++ compactFields entries

end

/-- The compact text as a string. -/
def compactText (v : Json) : String :=
  String.ofList (compact v)

/-- The text of a value in an environment. -/
def display : Json → String
  | .null => ""
  | .string s => s
  | v => compactText v

/-- The text that a value is compared by: a string itself, and compact text for everything else. -/
def comparedText : Json → String
  | .string s => s
  | v => compactText v

/-! ### Pretty text -/

/-- The start of a line at a depth of nesting. -/
def newLine (depth : Nat) : List Char :=
  '\n' :: List.replicate (2 * depth) ' '

mutual

/-- The pretty text of a value inside `depth` others. -/
def pretty (depth : Nat) : Json → List Char
  | .array (item :: items) =>
    '[' :: newLine (depth + 1) ++ pretty (depth + 1) item ++ prettyItems (depth + 1) items ++
      newLine depth ++ [']']
  | .fields ((name, value) :: entries) =>
    '\x7b' :: newLine (depth + 1) ++ quote name ++ ':' :: ' ' :: pretty (depth + 1) value ++
      prettyFields (depth + 1) entries ++ newLine depth ++ ['\x7d']
  | atom => atomText atom

/-- The further items of an array, a comma and a new line before each. -/
def prettyItems (depth : Nat) : List Json → List Char
  | [] => []
  | item :: items => ',' :: newLine depth ++ pretty depth item ++ prettyItems depth items

/-- The further fields of an object, a comma and a new line before each. -/
def prettyFields (depth : Nat) : List (String × Json) → List Char
  | [] => []
  | (name, value) :: entries =>
    ',' :: newLine depth ++ quote name ++ ':' :: ' ' :: pretty depth value ++
      prettyFields depth entries

end

/-- The pretty text as a string. -/
def prettyText (v : Json) : String :=
  String.ofList (pretty 0 v)

end Json

end LayeredEnv
