import LayeredEnv.Request
import LayeredEnv.Requirement.Form
import LayeredEnv.Toml.Document

/-!
# Project files

A project file presets parts of a request.  It is a TOML document with a few known fields, all of
them optional; an unknown field or a value of the wrong type makes it malformed.  A well-formed
file is then checked: every key that it names has to be a key name, and the first that is not, in
the order mode key, defaults, requirements, is the fault.
-/

namespace LayeredEnv

/-- What a project file presets. -/
structure ProjectFile where
  localSide : Option Side := none
  nameSide : Option Side := none
  modeKey : Option String := none
  precedence : Option ModePrecedence := none
  useEnvironment : Option Bool := none
  required : List Requirement := []
  defaults : Values := .empty

namespace ProjectFile

/-! ### Reading the fields -/

/-- The fields that a project file may have. -/
def fieldNames : List String :=
  ["local-naming", "mode-naming", "mode-key", "mode-precedence", "include-environment", "required",
    "defaults"]

/-- One of a few fixed words: a string, or a table with the word as its only key and nothing
under it. -/
def word? : Json → Option String
  | .string s => some s
  | .fields [(s, .array [])] => some s
  | .fields [(s, .fields [])] => some s
  | _ => none

/-- Reads a side. -/
def side? (v : Json) : Option Side :=
  match word? v with
  | some "prefix" => some .before
  | some "suffix" => some .after
  | _ => none

/-- Reads a precedence. -/
def precedence? (v : Json) : Option ModePrecedence :=
  match word? v with
  | some "environment" => some .environment
  | some "files" => some .files
  | _ => none

/-- Reads a truth value. -/
def bool? : Json → Option Bool
  | .bool b => some b
  | _ => none

/-- Reads a list of requirements. -/
def required? : Json → Option (List Requirement)
  | .array items => Requirement.ofForms? items
  | _ => none

/-- Reads defaults. -/
def defaults? : Json → Option Values
  | .fields entries => some (KeyMap.ofList entries)
  | _ => none

/-- Reads a field that may be absent: `some none` if it is, `none` if it is malformed. -/
def optional? (entries : List (String × Json)) (name : String) (read? : Json → Option α) :
    Option (Option α) :=
  match KeyMap.find? name entries with
  | none => some none
  | some v => (read? v).map some

/-- Reads the fields of a document. -/
def ofFields? (entries : List (String × Json)) : Option ProjectFile := do
  if entries.all fun p => fieldNames.contains p.1 then
    let localSide ← optional? entries "local-naming" side?
    let nameSide ← optional? entries "mode-naming" side?
    let modeKey ← optional? entries "mode-key" Json.string?
    let precedence ← optional? entries "mode-precedence" precedence?
    let useEnvironment ← optional? entries "include-environment" bool?
    let required ← optional? entries "required" required?
    let defaults ← optional? entries "defaults" defaults?
    return ⟨localSide, nameSide, modeKey, precedence, useEnvironment, required.getD [],
      defaults.getD .empty⟩
  else none

/-! ### Checking key names -/

/-- Whether a character may begin a key name. -/
def isKeyStart (c : Char) : Bool :=
  c.isAlpha || c == '_'

/-- Whether a character may stand in a key name. -/
def isKeyChar (c : Char) : Bool :=
  isKeyStart c || c.isDigit || c == '.' || c == '-'

/-- Whether a text is a key name. -/
def isKeyName (key : String) : Bool :=
  match key.toList with
  | [] => false
  | c :: rest => isKeyStart c && rest.all isKeyChar

mutual

/-- The keys at the leaves of a requirement, left to right. -/
def keysOf : Requirement → List String
  | .key k => [k]
  | .equals k _ => [k]
  | .all parts => keysOfParts parts
  | .any parts => keysOfParts parts
  | .predicate _ _ => []

/-- The keys at the leaves of requirements. -/
def keysOfParts : List Requirement → List String
  | [] => []
  | part :: parts => keysOf part ++ keysOfParts parts

end

/-- Every key that the file names, with its field, in the order in which keys are checked. -/
def namedKeys (p : ProjectFile) : List (String × String) :=
  p.modeKey.toList.map (fun key => ("mode-key", key)) ++
    p.defaults.keys.map (fun key => ("defaults", key)) ++
    (keysOfParts p.required).map fun key => ("required", key)

/-- The file itself if all of its keys are key names. -/
def check (p : ProjectFile) : Except Fault ProjectFile :=
  match p.namedKeys.find? fun named => !isKeyName named.2 with
  | some (field, key) => .error (.badKeyName field key)
  | none => .ok p

/-! ### Reading files -/

/-- The name under which a directory's project file is looked for. -/
def fileName : String := "envcascade.toml"

/-- Reads a project file from its text; the path is that of the file, for faults. -/
def ofText (path : Path) (text : List Char) : Except Fault ProjectFile :=
  match (Toml.read? text).bind ofFields? with
  | none => .error (.malformedProjectFile path)
  | some p => p.check

/-- Reads a project file. -/
def load (tree : FileTree) (path : Path) : Except Fault ProjectFile :=
  match tree.read path with
  | .error e => .error (.unreadableProjectFile path e)
  | .ok bytes =>
    match Utf8.text? bytes with
    | none => .error (.unreadableProjectFile path .notText)
    | some text => ofText path text

/-- Reads the project file of a directory, if it has one, together with its path. -/
def find (tree : FileTree) (directory : Path) : Except Fault (Option (Path × ProjectFile)) :=
  let path := directory.join fileName
  if tree.isFile path then (load tree path).map fun p => some (path, p) else .ok none

/-! ### Presetting requests -/

/-- The request with what the file presets.  Its requirements come after those of the request, and
its defaults are for keys without a default. -/
def apply (p : ProjectFile) (r : Request) : Request :=
  { r with
    scheme := ⟨p.localSide.getD r.scheme.localSide, p.nameSide.getD r.scheme.nameSide⟩
    modeKey := p.modeKey.getD r.modeKey
    precedence := p.precedence.getD r.precedence
    useEnvironment := p.useEnvironment.getD r.useEnvironment
    required := r.required ++ p.required
    defaults := p.defaults.entries.foldl (fun m d => m.insertIfNew d.1 d.2) r.defaults }

end ProjectFile

end LayeredEnv
