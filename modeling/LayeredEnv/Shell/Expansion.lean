import LayeredEnv.Shell.Arithmetic
import LayeredEnv.Shell.Pattern
import LayeredEnv.Shell.Process

/-!
# From words to fields

What stands in a word is put in, which gives atoms: characters that know whether they are quoted and
whether a field may end at them.  Atoms are cut into fields, and a field that is a pattern becomes
the names of the files that it matches.  Running a script for its output is not decided here: a
`Capture` says how.

This is part of `Shell.launch`, the launcher of the runnable program, and of nothing else: what is
stated of requests, commands and actions holds for every launcher.
-/

namespace LayeredEnv.Shell

/-- Runs a script for what it writes. -/
abbrev Capture := Process → Script → Process × String

/-- A computation over a running shell that may fail with a complaint, which ends the shell. -/
abbrev Expanding (α : Type) := ExceptT String (StateM Process) α

/-- A piece of a word after everything was put in. -/
inductive Atom
  | char (c : Char) (quoted splits : Bool)
  /-- Keeps an empty field from vanishing. -/
  | mark
  /-- The end of a field. -/
  | gap
  deriving DecidableEq, Repr

namespace Atom

/-- The atoms of a text. -/
def ofText (quoted : Bool) (s : String) : List Atom :=
  s.toList.map fun c => .char c quoted (!quoted)

/-- The pattern of atoms that are not cut into fields; a text stands where fields would end. -/
def pattern (joint : String) (atoms : List Atom) : Pattern :=
  atoms.flatMap fun
    | .char c quoted _ => [(c, quoted)]
    | .gap => joint.toList.map fun c => (c, true)
    | .mark => []

/-- The text of atoms that are not cut into fields. -/
def text (joint : String) (atoms : List Atom) : String :=
  String.ofList ((pattern joint atoms).map Prod.fst)

/-! ### Fields -/

/-- What came last before the next atom. -/
inductive Place
  | start
  /-- Inside a field, which is held backwards. -/
  | inside (field : List (Char × Bool))
  /-- After blanks that ended a field. -/
  | afterBlank
  /-- After a separator that is no blank. -/
  | afterMark

/-- The field that ends at a place. -/
def Place.field : Place → List Pattern
  | .inside field => [field.reverse]
  | _ => []

/-- Whether a character is a blank. -/
def isBlank (c : Char) : Bool :=
  c == ' ' || c == '\t' || c == '\n'

/-- Cuts atoms into fields at separators.  Blanks among them count once, and together with another
separator; without that, every separator ends a field. -/
def fieldsFrom (separators : List Char) (place : Place) : List Atom → List Pattern
  | [] => place.field
  | .gap :: rest => place.field ++ fieldsFrom separators .start rest
  | .mark :: rest =>
    match place with
    | .inside field => fieldsFrom separators (.inside field) rest
    | _ => fieldsFrom separators (.inside []) rest
  | .char c quoted splits :: rest =>
    if splits && separators.contains c then
      if isBlank c then
        match place with
        | .inside field => field.reverse :: fieldsFrom separators .afterBlank rest
        | place => fieldsFrom separators place rest
      else
        match place with
        | .inside field => field.reverse :: fieldsFrom separators .afterMark rest
        | .afterBlank => fieldsFrom separators .afterMark rest
        | _ => [] :: fieldsFrom separators .afterMark rest
    else
      match place with
      | .inside field => fieldsFrom separators (.inside ((c, quoted) :: field)) rest
      | _ => fieldsFrom separators (.inside [(c, quoted)]) rest

/-- Cuts atoms into fields. -/
def fields (separators : List Char) (atoms : List Atom) : List Pattern :=
  fieldsFrom separators .start atoms

end Atom

/-! ### Names of files -/

/-- The text of a pattern that is none. -/
def Pattern.text (p : Pattern) : String :=
  String.ofList (p.map Prod.fst)

/-- The pieces of a pattern between slashes. -/
def Pattern.segments : Pattern → List Pattern
  | [] => [[]]
  | (c, quoted) :: rest =>
    match segments rest with
    | [] => [[(c, quoted)]]
    | first :: more => if c == '/' then [] :: first :: more else ((c, quoted) :: first) :: more

/-- Whether a path names anything, possibly a link that leads nowhere. -/
def namesAnything (tree : FileTree) (path : Path) : Bool :=
  match tree.entry path with
  | .ok place => (tree.node? place).isSome && (path.fileName?.isNone || !path.text.endsWith "/" ||
      tree.isDirectory path)
  | .error _ => false

/-- The names in a directory that a pattern matches; a leading dot has to be written. -/
def matchingNames (tree : FileTree) (directory : String) (p : Pattern) : List String :=
  match tree.locate ⟨if directory == "" then "." else directory⟩ with
  | .error _ => []
  | .ok place =>
    ([".", ".."] ++ tree.children place).filter fun name =>
      p.acceptsText name.toList &&
        (!name.startsWith "." || (p.head?.map Prod.fst) = some '.')

/-- The paths that match the pieces of a pattern after a path that ends in a slash. -/
def pathsFrom (tree : FileTree) (start : String) : List Pattern → List String
  | [] => []
  | [last] =>
    if last.isOpen then (matchingNames tree start last).map (start ++ ·)
    else if namesAnything tree ⟨start ++ last.text⟩ then [start ++ last.text]
    else []
  | segment :: rest =>
    if segment.isOpen then
      (matchingNames tree start segment).flatMap fun name =>
        pathsFrom tree (start ++ name ++ "/") rest
    else pathsFrom tree (start ++ segment.text ++ "/") rest

/-- The paths that match a pattern, increasing. -/
def matchingPaths (tree : FileTree) (p : Pattern) : List String :=
  (pathsFrom tree "" p.segments).mergeSort

namespace Process

/-! ### Parameters -/

/-- The values of a parameter, several for all parameters of the shell; `none` if it is not set. -/
def values? (p : Process) (name : String) : Option (List String) :=
  match name with
  | "#" => some [toString p.parameters.length]
  | "?" => some [toString p.status]
  | "$" => some [ownNumber]
  | "!" => (p.jobs.head?).map fun j => [j.1]
  | "-" => some [String.ofList p.options]
  | "LINENO" => some [toString p.line]
  | "@" | "*" => some p.parameters
  | name =>
    let digits := name.toList
    if digits.all Char.isDigit then
      match Numeral.value 10 digits with
      | 0 => some [p.name]
      | n + 1 => (p.parameters[n]?).map ([·])
    else (p.binding? name).map ([·])

/-- The characters at which fields end. -/
def separators (p : Process) : List Char :=
  ((p.binding? "IFS").getD " \t\n").toList

/-- What stands between all parameters when they are one text. -/
def joint (p : Process) : String :=
  match p.separators with
  | c :: _ => String.singleton c
  | [] => ""

/-- The atoms of the values of a parameter. -/
def valueAtoms (p : Process) (name : String) (quoted : Bool) (values : List String) : List Atom :=
  if name == "@" && quoted then
    ((values.map fun s => Atom.mark :: Atom.ofText true s).intersperse [.gap]).flatten
  else if name == "*" && quoted then Atom.ofText true (p.joint.intercalate values)
  else ((values.map (Atom.ofText quoted)).intersperse [.gap]).flatten

/-! ### Home directories -/

/-- The word with the home directory put in for a tilde at its start. -/
def homeAtStart (p : Process) (inSetting : Bool) : Word → Word
  | .char '~' false :: rest =>
    let ends : Piece → Bool
      | .char c false => c == '/' || (inSetting && c == ':')
      | _ => false
    match rest.takeWhile (fun piece => !ends piece), p.binding? "HOME" with
    | [], some home => quotedWord home.toList ++ rest
    | _, _ => .char '~' false :: rest
  | w => w

/-- The word with the home directory put in for every tilde after a colon. -/
def homeAfterColons (p : Process) : Word → Word
  | [] => []
  | .char ':' false :: rest => .char ':' false :: p.homeAtStart true (p.homeAfterColons rest)
  | piece :: rest => piece :: p.homeAfterColons rest

/-- The value of a setting with home directories put in. -/
def homeInSetting (p : Process) (w : Word) : Word :=
  p.homeAtStart true (p.homeAfterColons w)

end Process

namespace Expanding

/-- Sets a variable, unless it can no longer be set. -/
def assign (name value : String) : Expanding Unit := do
  let p ← get
  if p.isLocked name then throw (name ++ ": is read only")
  else set (p.set name value)

/-- The text without line breaks at its end. -/
def dropLastBreaks (s : String) : String :=
  String.ofList (s.toList.reverse.dropWhile (· == '\n')).reverse

/-- The value of an arithmetic expression. -/
def number (text : String) : Expanding Int := do
  let p ← get
  let value? (name : String) : Option String := (p.values? name).map (" ".intercalate ·)
  match Expression.valueOf value? text.toList with
  | .error (.malformed reason) =>
    throw ("arithmetic expression: " ++ reason ++ ": \"" ++ text ++ "\"")
  | .error (.badNumber text) => throw ("Illegal number: " ++ text)
  | .ok (n, settings) =>
    settings.forM fun s => assign s.1 (toString s.2)
    return n

/-- Whether an operator needs a parameter that is set. -/
def needsValue : Operator → Bool
  | .value | .length | .withoutStart _ | .withoutEnd _ => true
  | _ => false

/-- The atoms of a parameter with an operator, where `fill` puts in what stands in the word. -/
def parameter (fill : Bool → Word → Expanding (List Atom)) (name : String) (operator : Operator)
    (word : Word) (quoted : Bool) : Expanding (List Atom) := do
  let p ← get
  let values := p.values? name
  let isAll := name == "@" || name == "*"
  if values.isNone && p.options.contains 'u' && needsValue operator && !isAll then
    throw (name ++ ": parameter not set")
  let text := " ".intercalate (values.getD [])
  let own := p.valueAtoms name quoted (values.getD [])
  let texts := values.map fun texts =>
    if name == "*" && quoted then [p.joint.intercalate texts] else texts
  let missing (emptyToo : Bool) : Bool := values.isNone || (emptyToo && text == "")
  let word := if quoted then word else p.homeAtStart false word
  match operator with
  | .value => return own
  | .length =>
    return Atom.ofText quoted <| toString text.utf8ByteSize
  | .otherwise emptyToo => if missing emptyToo then fill (!quoted) word else return own
  | .instead emptyToo => if missing emptyToo then return [] else fill (!quoted) word
  | .assign emptyToo =>
    if missing emptyToo then
      let value := Atom.text (← get).joint (← fill false word)
      if isName name.toList then assign name value
      else throw (name ++ ": bad variable name")
      return Atom.ofText quoted value
    else return own
  | .demand emptyToo =>
    if missing emptyToo then
      let reason := Atom.text (← get).joint (← fill false word)
      let standard := if emptyToo then "parameter not set or null" else "parameter not set"
      throw (name ++ ": " ++ if word.isEmpty then standard else reason)
    else return own
  | .withoutStart longest =>
    match texts with
    | none => return []
    | some texts =>
      let pattern := Atom.pattern (← get).joint (← fill false word)
      return p.valueAtoms name quoted (pattern.cutStart longest texts)
  | .withoutEnd longest =>
    match texts with
    | none => return []
    | some texts =>
      let pattern := Atom.pattern (← get).joint (← fill false word)
      return p.valueAtoms name quoted (pattern.cutEnd longest texts)
  | .malformed => throw "Bad substitution"

/-- How deep words may stand in words. -/
def depth : Nat := 256

/-- Whether a piece is all parameters in quotes. -/
def isAllQuoted : Piece → Bool
  | .parameter "@" .value _ true => true
  | _ => false

/-- Puts in what stands in a word, in which characters outside quotes end fields if `splits` is
set. -/
def fill (capture : Capture) : (depth : Nat) → (splits : Bool) → Word → Expanding (List Atom)
  | 0, _, _ => return []
  | depth + 1, splits, w => do
    let noParameters := (← get).parameters.isEmpty && w.any isAllQuoted
    let parts ← w.mapM fun
      | .char c quoted => return [Atom.char c quoted (splits && !quoted)]
      | .mark => return if noParameters then [] else [.mark]
      | .parameter name operator word quoted =>
        parameter (fill capture depth) name operator word quoted
      | .output script quoted => do
        let (p, text) := capture (← get) script
        set p
        return Atom.ofText quoted (dropLastBreaks text)
      | .number expression quoted => do
        let atoms ← fill capture depth false expression
        return Atom.ofText quoted (toString (← number (Atom.text (← get).joint atoms)))
    return parts.flatten

/-- The text of a word that is not cut into fields. -/
def text (capture : Capture) (w : Word) : Expanding String := do
  let w := (← get).homeAtStart false w
  return Atom.text (← get).joint (← fill capture depth false w)

/-- The value of a setting. -/
def settingText (capture : Capture) (w : Word) : Expanding String := do
  let w := (← get).homeInSetting w
  return Atom.text (← get).joint (← fill capture depth false w)

/-- The pattern of a word. -/
def pattern (capture : Capture) (w : Word) : Expanding Pattern := do
  let w := (← get).homeAtStart false w
  return Atom.pattern (← get).joint (← fill capture depth false w)

/-- The fields of a word. -/
def fields (capture : Capture) (w : Word) : Expanding (List String) := do
  let w := (← get).homeAtStart false w
  let atoms ← fill capture depth false w
  let p ← get
  return (Atom.fields p.separators atoms).flatMap fun field =>
    if field.isOpen && !p.options.contains 'f' then
      match matchingPaths p.tree field with
      | [] => [field.text]
      | paths => paths
    else [field.text]

end Expanding

end LayeredEnv.Shell
