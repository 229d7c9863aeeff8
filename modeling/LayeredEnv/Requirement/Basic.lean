import LayeredEnv.Json.Text

/-!
# Requirements

A requirement is a tree over the resolved values: a key is present, a key has a given text, all of
some requirements, any of some requirements, or a check of the caller's own.  Examining a
requirement gives nothing if it holds and otherwise a `Shortfall`, which names a failing path: the
first failing part of an `all`, every part of an `any`.
-/

namespace LayeredEnv

/-- The resolved values by key. -/
abbrev Values := KeyMap Json

/-- A constraint on the resolved values. -/
inductive Requirement
  /-- The key is present, whatever it holds. -/
  | key (key : String)
  /-- The key is present with a value of this text. -/
  | equals (key value : String)
  | all (parts : List Requirement)
  | any (parts : List Requirement)
  /-- A check of the caller's, with a label to name it by. -/
  | predicate (label : Option String) (check : Values → Bool)
  deriving Inhabited

/-- The failing path through a requirement. -/
inductive Shortfall
  | missing (key : String)
  | mismatch (key expected : String)
  /-- The first failing part of an `all`, counted from zero. -/
  | all (index : Nat) (part : Shortfall)
  /-- All parts of an `any`. -/
  | any (parts : List Shortfall)
  | predicate (label : Option String)
  deriving Inhabited, Repr

namespace Shortfall

mutual

/-- The words for a shortfall: a path shows as its end, and several side by side in brackets. -/
def message : Shortfall → String
  | .missing key => key
  | .mismatch key expected => key ++ "=" ++ expected
  | .all _ part => message part
  | .any [] => "[]"
  | .any (part :: parts) => "[" ++ message part ++ messages parts ++ "]"
  | .predicate label => label.getD ""

/-- The words for further shortfalls, a comma before each. -/
def messages : List Shortfall → String
  | [] => ""
  | part :: parts => ", " ++ message part ++ messages parts

end

end Shortfall

namespace Requirement

/-- Whether a key has a value of the given text. -/
def hasText (values : Values) (key text : String) : Bool :=
  match values.get? key with
  | some v => v.comparedText == text
  | none => false

mutual

/-- What a requirement falls short of, if it does not hold. -/
def examine (values : Values) : Requirement → Option Shortfall
  | .key k => if values.contains k then none else some (.missing k)
  | .equals k text => if hasText values k text then none else some (.mismatch k text)
  | .all parts => examineAll values 0 parts
  | .any parts => (examineAny values parts).map .any
  | .predicate label check => if check values then none else some (.predicate label)

/-- The first shortfall among requirements that all have to hold, counting from `index`. -/
def examineAll (values : Values) (index : Nat) : List Requirement → Option Shortfall
  | [] => none
  | part :: parts =>
    match examine values part with
    | some shortfall => some (.all index shortfall)
    | none => examineAll values (index + 1) parts

/-- The shortfalls of requirements of which one has to hold, unless one does. -/
def examineAny (values : Values) : List Requirement → Option (List Shortfall)
  | [] => some []
  | part :: parts =>
    match examine values part with
    | none => none
    | some shortfall => (examineAny values parts).map (shortfall :: ·)

end

end Requirement

end LayeredEnv
