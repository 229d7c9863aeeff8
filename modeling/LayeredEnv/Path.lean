import LayeredEnv.Text.Lines

/-!
# Paths as written

A path is kept as the text it was built from and is never normalised.  Its components are what the
text means: repeated slashes, a trailing slash and inner dots count for nothing, a leading dot and
every pair of dots stay.  Two paths are `Path.same` when their components agree.
-/

namespace LayeredEnv

/-- The text of a path. -/
structure Path where
  text : String
  deriving DecidableEq, Repr, Inhabited

namespace Path

/-- One step of a path. -/
inductive Component
  /-- The slash that an absolute path begins with. -/
  | root
  /-- The dot that a relative path may begin with. -/
  | here
  /-- A pair of dots. -/
  | up
  | name (text : String)
  deriving DecidableEq, Repr

/-- Whether a piece between slashes is no step of its own: it is empty or a dot. -/
def isIdle (piece : List Char) : Bool :=
  piece == [] || piece == ['.']

/-- The step a piece stands for inside a path. -/
def innerComponent? (piece : List Char) : Option Component :=
  if isIdle piece then none
  else if piece == ['.', '.'] then some .up
  else some (.name (String.ofList piece))

/-- The pieces of the text between its slashes. -/
def pieces (p : Path) : List (List Char) :=
  Text.splitOn '/' p.text.toList

/-- Whether a slash stands in the path. -/
def hasSlash (p : Path) : Bool :=
  p.text.toList.contains '/'

/-- Whether the path begins at the root directory. -/
def isAbsolute (p : Path) : Bool :=
  p.text.toList.head? == some '/'

/-- The steps of the path. -/
def components (p : Path) : List Component :=
  if p.isAbsolute then .root :: p.pieces.filterMap innerComponent?
  else
    match p.pieces with
    | ['.'] :: rest => .here :: rest.filterMap innerComponent?
    | all => all.filterMap innerComponent?

/-- Whether two paths take the same steps. -/
def same (p q : Path) : Bool :=
  p.components == q.components

/-- The last step, if it is a name. -/
def fileName? (p : Path) : Option String :=
  match p.components.getLast? with
  | some (.name text) => some text
  | _ => none

/-- The pieces without their last step and without what stands idle before and after it; `none`
if no piece is a step. -/
def dropLastStep? (pieces : List (List Char)) : Option (List (List Char)) :=
  match pieces.reverse.dropWhile isIdle with
  | [] => none
  | _ :: before => some (before.dropWhile isIdle).reverse

/-- The path without its last step; the root directory and the empty path have none. -/
def parent? (p : Path) : Option Path :=
  match p.pieces with
  | [] => none
  | first :: rest =>
    match dropLastStep? rest with
    | some [] => some ⟨if p.isAbsolute then "/" else String.ofList first⟩
    | some kept => some ⟨String.ofList (Text.joinWith ['/'] (first :: kept))⟩
    | none => if first == [] then none else some ⟨""⟩

/-- The path `q` as seen from `p`: an absolute `q` is taken as it is. -/
def join (p : Path) (q : String) : Path :=
  if q.toList.head? == some '/' then ⟨q⟩
  else if p.text == "" || p.text.toList.getLast? == some '/' then ⟨p.text ++ q⟩
  else ⟨p.text ++ "/" ++ q⟩

end Path

end LayeredEnv
