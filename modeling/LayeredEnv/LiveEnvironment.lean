import LayeredEnv.KeyMap
import LayeredEnv.Text.Lines

/-!
# The live environment

The variables that a process was started with, in whatever order they are listed.  A variable has
one value.

What a process is handed is a block of entries `NAME=value`.  An entry is no more than a text, so a
name with the sign in it does not survive: `EnvironmentBlock.found` says which variables are found
in a block, and `LiveEnvironment.ofBlock` which of them count.
-/

namespace LayeredEnv

/-- The entries that a process is started with; a pair is the entry of its two texts with a sign in
between. -/
abbrev EnvironmentBlock := List (String × String)

namespace EnvironmentBlock

/-- The name and the value in an entry: a name has at least one character, and the first sign after
that ends it. -/
def split? (entry : String) : Option (String × String) :=
  match entry.toList with
  | [] => none
  | c :: rest =>
    (Text.cutAt? '=' rest).map fun s => (String.ofList (c :: s.1), String.ofList s.2)

/-- The variables in a block, in order; an entry without a name is passed over. -/
def found (block : EnvironmentBlock) : List (String × String) :=
  block.filterMap fun e => split? (e.1 ++ "=" ++ e.2)

end EnvironmentBlock

/-- Variables with their values, each variable once. -/
structure LiveEnvironment where
  vars : List (String × String)
  nodup : (vars.map Prod.fst).Nodup

namespace LiveEnvironment

/-- The value of a variable. -/
def get? (env : LiveEnvironment) (key : String) : Option String :=
  KeyMap.find? key env.vars

theorem nodup_keys (m : KeyMap α) : m.keys.Nodup :=
  List.pairwise_map.2 (m.sorted.imp KeyMap.ne_of_lt)

/-- The variables of a map, in key order. -/
def ofMap (m : KeyMap String) : LiveEnvironment :=
  ⟨m.entries, nodup_keys m⟩

/-- The variables of a list, the last value of each. -/
def ofList (vars : List (String × String)) : LiveEnvironment :=
  ofMap (KeyMap.ofList vars)

/-- The variables found in a block, the first value of each. -/
def ofBlock (block : EnvironmentBlock) : LiveEnvironment :=
  ofList block.found.reverse

end LiveEnvironment

end LayeredEnv
