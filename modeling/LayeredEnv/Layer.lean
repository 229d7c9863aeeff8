import LayeredEnv.Path

/-!
# Names of env files, and layers

An env file is named after the stem `.env`, an optional name (of a mode or of an import target) and
the mark of a machine-local file.  For each of the two qualifiers a `NameScheme` says on which side
of the stem it goes.  Before the stem qualifiers stack outward, behind it they stack inward, so the
local mark is always the outermost one.

A `Layer` is such a file together with its place in the cascade.
-/

namespace LayeredEnv

/-- A side of the stem. -/
inductive Side
  | before
  | after
  deriving DecidableEq, Repr, Inhabited

/-- On which side the mark of local files goes, and on which side names go. -/
structure NameScheme where
  localSide : Side := .after
  nameSide : Side := .after
  deriving DecidableEq, Repr, Inhabited

namespace NameScheme

/-- The stem of every file name. -/
def stem : String := ".env"

/-- The mark of machine-local files. -/
def localMark : String := "local"

/-- The qualifiers that go on a side: in the order from the stem outward, the name and the local
mark. -/
def qualifiers (s : NameScheme) (side : Side) (name : Option String) (isLocal : Bool) :
    List String :=
  (if s.nameSide = side then name.toList else []) ++
    (if s.localSide = side ∧ isLocal then [localMark] else [])

/-- The file name for an optional name, for local files or for shared ones. -/
def fileName (s : NameScheme) (name : Option String) (isLocal : Bool) : String :=
  ".".intercalate (s.qualifiers .before name isLocal).reverse ++ stem ++
    String.join ((s.qualifiers .after name isLocal).map ("." ++ ·))

end NameScheme

/-- The step of the cascade that a file belongs to. -/
inductive Tier
  | base
  | localBase
  | mode
  | localMode
  | imported
  deriving DecidableEq, Repr

/-- The word for a tier. -/
def Tier.word : Tier → String
  | base => "base"
  | localBase => "local"
  | mode => "mode"
  | localMode => "mode-local"
  | imported => "import"

/-- An env file and the step it belongs to. -/
structure Layer where
  path : Path
  tier : Tier
  deriving DecidableEq, Repr

namespace Layer

/-- The file that every cascade starts with. -/
def base (directory : Path) (s : NameScheme) : Layer :=
  ⟨directory.join (s.fileName none false), .base⟩

/-- Its machine-local neighbour. -/
def localBase (directory : Path) (s : NameScheme) : Layer :=
  ⟨directory.join (s.fileName none true), .localBase⟩

/-- The file of a mode. -/
def mode (directory : Path) (s : NameScheme) (name : String) : Layer :=
  ⟨directory.join (s.fileName (some name) false), .mode⟩

/-- The machine-local file of a mode. -/
def localMode (directory : Path) (s : NameScheme) (name : String) : Layer :=
  ⟨directory.join (s.fileName (some name) true), .localMode⟩

/-- A file that another one imports. -/
def imported (path : Path) : Layer :=
  ⟨path, .imported⟩

end Layer

end LayeredEnv
