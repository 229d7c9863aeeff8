import LayeredEnv.Toml.Value

/-!
# Tables and what may be added to them

Each addition to a table walks along a path of keys and makes the tables that are missing on the
way.  A header may pass through any table that is not closed; a dotted key may pass only through
tables that headers passed through or dotted keys made, and may end only in one that dotted keys
made.  No key is defined twice.
-/

namespace LayeredEnv.Toml

/-- A table: how it came to be, and its entries. -/
structure Table where
  kind : TableKind
  entries : Entries

namespace Table

/-- A table without entries. -/
def empty (kind : TableKind) : Table := ⟨kind, []⟩

/-- The value of a table. -/
def toValue (t : Table) : Value := .table t.kind t.entries

/-- The entries with another value for a key that is present. -/
def replaceValue (key : String) (value : Value) (entries : Entries) : Entries :=
  entries.map fun p => if p.1 = key then (key, value) else p

/-- The table with an entry for a key, whether new or not. -/
def set (t : Table) (key : String) (value : Value) : Table :=
  match KeyMap.find? key t.entries with
  | none => ⟨t.kind, t.entries ++ [(key, value)]⟩
  | some _ => ⟨t.kind, replaceValue key value t.entries⟩

/-- What a path passes through: headers or dotted keys. -/
inductive Passage
  | header
  | dotted
  deriving DecidableEq

/-- The kind of the tables that a passage makes. -/
def Passage.madeKind : Passage → TableKind
  | .header => .implied
  | .dotted => .dotted

/-- Whether a passage may go through a table of a kind. -/
def Passage.mayPass : Passage → TableKind → Bool
  | .header, kind => kind != .inline
  | .dotted, kind => kind == .implied || kind == .dotted

/-- Changes the table at the end of a path by `change`; through a repeated header the path goes on
in the last table. -/
def update? (passage : Passage) (change : Table → Option Table) :
    List String → Table → Option Table
  | [], t => change t
  | key :: path, t =>
    match KeyMap.find? key t.entries with
    | none => do
      let below ← update? passage change path (empty passage.madeKind)
      return t.set key below.toValue
    | some (.table kind entries) =>
      if passage.mayPass kind then do
        let below ← update? passage change path ⟨kind, entries⟩
        return t.set key below.toValue
      else none
    | some (.tables elements) =>
      match elements.getLast? with
      | none => none
      | some last => do
        let below ← update? passage change path ⟨.header, last⟩
        return t.set key (.tables (elements.dropLast ++ [below.entries]))
    | some _ => none

/-- The table with the value of a new key. -/
def define? (key : String) (value : Value) (t : Table) : Option Table :=
  match KeyMap.find? key t.entries with
  | none => some (t.set key value)
  | some _ => none

/-- The table with the value of a dotted key: of `path` and then `key`.  Without a path the table
must not be one that dotted keys made, with a path the table at its end has to be. -/
def assign? (path : List String) (key : String) (value : Value) (t : Table) : Option Table :=
  update? .dotted
    (fun last => if (last.kind == .dotted) == path.isEmpty then none else last.define? key value)
    path t

/-- The table with a table opened under a key by a header of its own. -/
def openTable? (key : String) (t : Table) : Option Table :=
  match KeyMap.find? key t.entries with
  | none => some (t.set key (.table .header []))
  | some (.table .implied entries) => some (t.set key (.table .header entries))
  | some _ => none

/-- The table with one more table under a repeated header. -/
def openElement? (key : String) (t : Table) : Option Table :=
  match KeyMap.find? key t.entries with
  | none => some (t.set key (.tables [[]]))
  | some (.tables elements) => some (t.set key (.tables (elements ++ [[]])))
  | some _ => none

end Table

/-- What a document says in one go. -/
inductive Statement
  /-- `path.key = value` -/
  | assign (path : List String) (key : String) (value : Value)
  /-- `[path.key]` -/
  | openTable (path : List String) (key : String)
  /-- `[[path.key]]` -/
  | openElement (path : List String) (key : String)

namespace Table

/-- Carries out statements on a document in which the table at `current` is open. -/
def runFrom (current : List String) : Table → List Statement → Option Table
  | t, [] => some t
  | t, .assign path key value :: rest => do
    runFrom current (← update? .header (assign? path key value) current t) rest
  | t, .openTable path key :: rest => do
    runFrom (path ++ [key]) (← update? .header (openTable? key) path t) rest
  | t, .openElement path key :: rest => do
    runFrom (path ++ [key]) (← update? .header (openElement? key) path t) rest

/-- The document that statements make. -/
def ofStatements? (statements : List Statement) : Option Table :=
  runFrom [] (empty .header) statements

/-- The table in braces that pairs of keys and values make. -/
def inline? (pairs : List (List String × String × Value)) : Option Table :=
  pairs.foldlM (fun t p => assign? p.1 p.2.1 p.2.2 t) (empty .inline)

end Table

end LayeredEnv.Toml
