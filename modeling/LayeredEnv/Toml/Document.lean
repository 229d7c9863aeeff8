import LayeredEnv.Toml.Scalar
import LayeredEnv.Toml.Table

/-!
# Reading TOML documents

A document is read into statements, one a line, and the statements are then carried out.  The
nesting of arrays and tables in braces is limited, and so is the length of dotted keys, which is
what bounds the reading of values and keys; everything else gets shorter with each step.
-/

namespace LayeredEnv.Toml

/-! ### Space and comments -/

/-- What follows a comment, whose mark has been read, up to the end of its line; `none` if a control
character stands in it. -/
def skipComment : List Char → Option (List Char)
  | [] => some []
  | c :: rest =>
    if isPlain c then skipComment rest
    else if isLineBreak c rest then some (c :: rest)
    else none

/-- What follows the end of a line, with a comment before it if there is one. -/
def endLine? (s : List Char) : Option (List Char) := do
  let s := s.dropWhile isGap
  let s ← match s with | '#' :: rest => skipComment rest | s => some s
  match s with
  | [] => some []
  | s => if dropLineBreak s == s then none else some (dropLineBreak s)

theorem length_skipComment_le {s t : List Char} (h : skipComment s = some t) :
    t.length ≤ s.length := by
  induction s with
  | nil => simp_all [skipComment]
  | cons c rest ih =>
    rw [skipComment] at h
    split at h
    · exact Nat.le_succ_of_le (ih h)
    · split at h
      · obtain rfl := Option.some.inj h
        exact Nat.le_refl _
      · simp at h

/-- What follows blanks, line breaks and comments. -/
def skipFiller (s : List Char) : Option (List Char) :=
  match _hs : dropSpace s with
  | '#' :: rest =>
    match _hc : skipComment rest with
    | some after => skipFiller after
    | none => none
  | s => some s
termination_by s.length
decreasing_by
  have h1 := length_dropSpace_le s
  have h2 := length_skipComment_le _hc
  rw [_hs] at h1
  simp at h1
  omega

/-! ### Keys -/

/-- Reads one key: bare or in quotes. -/
def readKey : Reader String
  | '"' :: rest => (readBasic rest).map fun (text, s) => (String.ofList text, s)
  | '\'' :: rest => (readLiteral rest).map fun (text, s) => (String.ofList text, s)
  | s =>
    let (run, rest) := s.span isBareKeyChar
    if run.isEmpty then none else some (String.ofList run, rest)

/-- How deep arrays and tables in braces may be nested, and how many keys a dotted key may have. -/
def nestingLimit : Nat := 80

/-- Reads at most `count` keys with dots between them: all but the last, and the last. -/
def readKeyPath : (count : Nat) → Reader (List String × String)
  | 0, _ => none
  | count + 1, s =>
    match readKey s with
    | none => none
    | some (key, rest) =>
      match rest.dropWhile isGap with
      | '.' :: more =>
        (readKeyPath count (more.dropWhile isGap)).map fun ((path, last), rest) =>
          ((key :: path, last), rest)
      | rest => some (([], key), rest)

/-! ### Values -/

/-- Reads members up to a closing bracket, with commas between them and possibly one at the end. -/
def readMembers (member : Reader α) (close : Char) (s : List Char) :
    Option (List α × List Char) :=
  match skipFiller s with
  | none => none
  | some [] => none
  | some (c :: rest) =>
    if c == close then some ([], rest)
    else
      match member (c :: rest) with
      | none => none
      | some (a, after) =>
        match skipFiller after with
        | some (d :: rest) =>
          if d == close then some ([a], rest)
          else if d == ',' then
            if _h : rest.length < s.length then
              (readMembers member close rest).map fun (more, rest) => (a :: more, rest)
            else none
          else none
        | _ => none
termination_by s.length

/-- Reads a dotted key, an equals sign and a value, where `skip` drops what may stand around the
equals sign. -/
def readPair (skip : List Char → Option (List Char)) (value : Reader Value) :
    Reader (List String × String × Value) := fun s => do
  let ((path, key), s) ← readKeyPath nestingLimit s
  match ← skip s with
  | '=' :: s =>
    let (v, s) ← value (← skip s)
    some ((path, key, v), s)
  | _ => none

/-- What follows blanks, none of which ends the line. -/
def skipGap (s : List Char) : Option (List Char) :=
  some (s.dropWhile isGap)

/-- Reads a value in which arrays and tables are nested at most `depth` deep. -/
def readValue : (depth : Nat) → Reader Value
  | depth, s =>
    match s with
    | '[' :: rest =>
      match depth with
      | 0 => none
      | depth + 1 =>
        (readMembers (readValue depth) ']' rest).map fun (items, s) => (.array items, s)
    | '\x7b' :: rest =>
      match depth with
      | 0 => none
      | depth + 1 => do
        let (pairs, s) ← readMembers (readPair skipFiller (readValue depth)) '\x7d' rest
        return ((← Table.inline? pairs).toValue, s)
    | c :: rest =>
      if c == '"' || c == '\'' then (readString s).map fun (text, s) => (.string text, s)
      else readScalar (c :: rest)
    | [] => none

/-! ### Statements -/

/-- Reads a header after its brackets, up to those that close it. -/
def readHeader (close : List Char) (s : List Char) :
    Option ((List String × String) × List Char) := do
  let (keys, s) ← readKeyPath nestingLimit (s.dropWhile isGap)
  let start := s.take close.length
  if start == close then some (keys, s.drop close.length) else none

/-- Reads a statement without the end of its line. -/
def readStatement : Reader Statement
  | '[' :: '[' :: rest =>
    (readHeader [']', ']'] rest).map fun ((path, key), s) => (.openElement path key, s)
  | '[' :: rest =>
    (readHeader [']'] rest).map fun ((path, key), s) => (.openTable path key, s)
  | s =>
    (readPair skipGap (readValue nestingLimit) s).map fun ((path, key, v), s) =>
      (.assign path key v, s)

/-- Reads the statements of a document, each to the end of its line. -/
def readStatements (s : List Char) : Option (List Statement) :=
  match skipFiller s with
  | none => none
  | some [] => some []
  | some start =>
    match readStatement start with
    | none => none
    | some (statement, rest) =>
      match endLine? rest with
      | none => none
      | some rest =>
        if _h : rest.length < s.length then (readStatements rest).map (statement :: ·) else none
termination_by s.length

/-- The text without the mark of its byte order. -/
def dropByteOrderMark : List Char → List Char
  | '\uFEFF' :: rest => rest
  | s => s

/-- Reads a document as JSON fields. -/
def read? (text : List Char) : Option (List (String × Json)) := do
  let statements ← readStatements (dropByteOrderMark text)
  let document ← Table.ofStatements? statements
  return Value.entriesToJson document.entries

end LayeredEnv.Toml
