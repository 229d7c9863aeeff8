import LayeredEnv.Cascade
import LayeredEnv.LiveEnvironment

/-!
# Requests

A request says which environment is wanted: where its files are and how they are named, which key
holds the mode and who decides it, whether the live environment fills in, and what is done to the
values after that.
-/

namespace LayeredEnv

/-- What a resolution is asked for. -/
structure Request where
  /-- The directory of the base file. -/
  directory : Path := ⟨"."⟩
  /-- All of these have to hold. -/
  required : List Requirement := []
  /-- Replaces the values at the end. -/
  schema : Option Schema := none
  /-- Resolve anew even if there is an earlier result. -/
  force : Bool := false
  scheme : NameScheme := ⟨.after, .after⟩
  modeKey : String := "MODE"
  precedence : ModePrecedence := .environment
  /-- A mode given outright, in place of the live environment's. -/
  mode : Option String := none
  /-- Whether the live environment fills in keys that no file has. -/
  useEnvironment : Bool := true
  conversions : KeyMap Conversion := .empty
  defaults : Values := .empty
  deriving Inhabited

namespace Request

/-- Where the files of the request are looked for in a tree. -/
def site (r : Request) (tree : FileTree) : Site :=
  ⟨tree, r.directory, r.scheme, r.modeKey⟩

/-- The mode given outright or else by the live environment; an empty mode is none. -/
def liveMode? (r : Request) (env : LiveEnvironment) : Option String :=
  (r.mode.or (env.get? r.modeKey)).filter fun name => name != ""

end Request

end LayeredEnv
