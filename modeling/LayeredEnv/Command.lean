import LayeredEnv.Fault
import LayeredEnv.LiveEnvironment

/-!
# Running commands

A command that is written as a path is taken as that path; any other command is looked for in the
directories of a search path.  What a program does once it is found is not decided here: a
`Launcher` says so, and everything about running commands holds for every launcher.
-/

namespace LayeredEnv

/-- A program with its arguments, all of its environment and the text that it may read. -/
structure Invocation where
  program : Path
  arguments : List String
  environment : EnvironmentBlock
  input : String := ""
  /-- The name that the program is told it has, if that is not its path. -/
  knownAs : Option String := none
  /-- Whether a file that nothing else runs is run by the shell. -/
  byShell : Bool := false

/-- The name that a program is told it has. -/
def Invocation.name (i : Invocation) : String :=
  i.knownAs.getD i.program.text

/-- How a process ends. -/
inductive Exit
  | code (n : Nat)
  | signal (n : Nat)
  deriving DecidableEq, Repr

/-- Where a process writes. -/
inductive Stream
  | output
  | errors
  deriving DecidableEq, Repr

/-- What a process leaves behind: how it ended, the files, what it wrote in order, and what it did
not read. -/
structure Outcome where
  exit : Exit
  tree : FileTree
  writes : List (Stream × String) := []
  unread : String := ""

namespace Outcome

/-- Everything that was written to a stream. -/
def text (o : Outcome) (stream : Stream) : String :=
  String.join ((o.writes.filter fun w => w.1 = stream).map Prod.snd)

/-- What was written to the output. -/
def output (o : Outcome) : String :=
  o.text .output

/-- What was written to the errors. -/
def errors (o : Outcome) : String :=
  o.text .errors

end Outcome

/-- Starts programs over a tree of files. -/
abbrev Launcher := FileTree → Invocation → Except IoError Outcome

namespace Exit

/-- The exit code of a process; one for a process that a signal ended. -/
def status : Exit → Int
  | code n => n
  | signal _ => 1

/-- The exit code that passes a child's on: itself from 0 to 255, else one. -/
def passedOn (status : Int) : Nat :=
  if 0 ≤ status ∧ status ≤ 255 then status.toNat else 1

theorem passedOn_lt (status : Int) : passedOn status < 256 := by
  unfold passedOn
  split <;> omega

/-- What fits into an exit code is passed on as it is. -/
theorem passedOn_of_le {status : Int} (h : 0 ≤ status) (h' : status ≤ 255) :
    (passedOn status : Int) = status := by
  unfold passedOn
  split <;> omega

/-- Success is passed on, and nothing else is turned into it. -/
theorem passedOn_eq_zero_iff {status : Int} : passedOn status = 0 ↔ status = 0 := by
  unfold passedOn
  split <;> omega

end Exit

namespace Command

/-- The variable that holds the search path. -/
def searchVariable : String := "PATH"

/-- Whether a command is written as a path: it is absolute or has more than one component. -/
def isPath (command : String) : Bool :=
  let p : Path := ⟨command⟩
  decide (1 < p.components.length) || p.isAbsolute

/-- The places at which a search path may have a command, in order. -/
def candidates (searchPath command : String) : List Path :=
  (Text.splitOn ':' searchPath.toList).map fun directory =>
    Path.join ⟨String.ofList directory⟩ command

/-- The program of a command, where `own` is the search path given with the command, if any, and
`inherited` the one of the process. -/
def find? (tree : FileTree) (command : String) (own inherited : Option String) : Option Path :=
  if isPath command then
    if tree.pathExists ⟨command⟩ then some ⟨command⟩ else none
  else
    match own.or inherited with
    | none => none
    | some searchPath => (candidates searchPath command).find? tree.isFile

/-- A command that is a path is never looked for elsewhere. -/
theorem find?_of_isPath {tree : FileTree} {command : String} (h : isPath command = true)
    (own inherited : Option String) :
    find? tree command own inherited =
      if tree.pathExists ⟨command⟩ then some ⟨command⟩ else none := by
  simp [find?, h]

/-- A command that is no path is the first file among the places of the search path. -/
theorem find?_of_not_isPath {tree : FileTree} {command : String} (h : isPath command = false)
    (own inherited : Option String) :
    find? tree command own inherited =
      (own.or inherited).bind fun searchPath =>
        (candidates searchPath command).find? tree.isFile := by
  simp only [find?, h, Bool.false_eq_true, if_false]
  cases own.or inherited <;> rfl

/-- The environment of a child: that of the process as it is, or else the variables found in it
with the added ones on top, later ones first. -/
def childEnvironment (inherited : EnvironmentBlock) (added : List (String × String)) :
    EnvironmentBlock :=
  if added.isEmpty then inherited else (KeyMap.ofList (inherited.found ++ added)).entries

/-- The fault of a program that could not be started. -/
def launchFault (program : Path) : IoError → Fault
  | .notFound => .commandNotFound program.text
  | e => .commandFailed program.text e

/-- Runs a command with variables on top of the inherited environment. -/
def run (launch : Launcher) (tree : FileTree) (inherited : EnvironmentBlock) (command : String)
    (arguments : List String) (added : List (String × String)) : Except Fault Outcome :=
  let own := KeyMap.find? searchVariable added
  match find? tree command own (KeyMap.find? searchVariable inherited.found) with
  | none => .error (.commandNotFound command)
  | some program =>
    let invocation : Invocation :=
      { program, arguments
        environment := childEnvironment inherited added
        byShell := own.isSome && !program.hasSlash }
    match launch tree invocation with
    | .ok outcome => .ok outcome
    | .error e => .error (launchFault program e)

end Command

end LayeredEnv
