import LayeredEnv.Shell.Condition
import LayeredEnv.Shell.Device
import LayeredEnv.Shell.Format
import LayeredEnv.FileTree
import LayeredEnv.KeyMap

/-!
# Utilities

The small programs that every system has, as functions of what they are called with.  The ones that
start programs themselves are only named here.

This is part of `Shell.launch`, the launcher of the runnable program, and of nothing else: what is
stated of requests, commands and actions holds for every launcher.
-/

namespace LayeredEnv.Shell

/-- What a utility is called with. -/
structure Call where
  /-- The name that it was called by. -/
  name : String
  tree : FileTree
  environment : List (String × String)
  arguments : List String
  input : String

/-- What a utility says and how it ends. -/
structure Report where
  status : Nat := 0
  output : String := ""
  errors : String := ""
  /-- Whether it read all of its input. -/
  readsInput : Bool := false
  /-- The files, if it changed them. -/
  tree? : Option FileTree := none

/-- A utility that starts no programs. -/
abbrev Utility := Call → Report

namespace Report

/-- One report after the other; the worse status counts. -/
def append (a b : Report) : Report :=
  { status := max a.status b.status
    output := a.output ++ b.output
    errors := a.errors ++ b.errors
    readsInput := a.readsInput || b.readsInput
    tree? := b.tree?.or a.tree? }

instance : Append Report := ⟨append⟩

end Report

namespace Call

/-- A report of a failure, after the name of the utility. -/
def refuse (c : Call) (status : Nat) (text : String) : Report :=
  { status, errors := c.name ++ ": " ++ text ++ "\n" }

/-- A report of a mistake in the arguments, with advice. -/
def misuse (c : Call) (status : Nat) (text : String) : Report :=
  c.refuse status (text ++ "\nTry '" ++ c.name ++ " --help' for more information.")

/-- The complaint about operands that are missing. -/
def missingOperand (c : Call) (status : Nat) : Report :=
  c.misuse status "missing operand"

/-- The complaint about a file that cannot be used. -/
def refuseFile (c : Call) (status : Nat) (path : String) (e : IoError) : Report :=
  c.refuse status (path ++ ": " ++ e.reason)

end Call

namespace Utility

/-! ### Words and options -/

/-- A name between quotes. -/
def quoted (s : String) : String :=
  "'" ++ s ++ "'"

/-- Letters of options, some with a value, and the other arguments. -/
structure Options where
  letters : List (Char × String) := []
  rest : List String := []
  /-- A letter that is no option. -/
  unknown : Option Char := none
  /-- A letter whose value is missing. -/
  bare : Option Char := none
  /-- A word that is no option. -/
  long : Option String := none

namespace Options

/-- Whether a letter is set. -/
def has (o : Options) (c : Char) : Bool :=
  o.letters.any fun p => p.1 == c

/-- The value of a letter, the last one given. -/
def value? (o : Options) (c : Char) : Option String :=
  (o.letters.reverse.find? fun p => p.1 == c).map Prod.snd

end Options

/-- The options in the letters of one argument; `none` for the value if it is the next argument. -/
def lettersOf (plain valued : List Char) :
    List Char → List (Char × String) × Option Char × Option Char
  | [] => ([], none, none)
  | c :: rest =>
    if plain.contains c then
      let (letters, open?, unknown) := lettersOf plain valued rest
      ((c, "") :: letters, open?, unknown)
    else if valued.contains c then
      if rest.isEmpty then ([], some c, none) else ([(c, String.ofList rest)], none, none)
    else ([], none, some c)

/-- Sorts arguments into options and others.  With `anywhere`, options may follow others. -/
def readOptions (plain valued : List Char) (anywhere : Bool) : List String → Options
  | [] => {}
  | "--" :: rest => { rest }
  | a :: rest =>
    match a.toList with
    | '-' :: '-' :: _ => { long := some a }
    | '-' :: c :: more =>
      match lettersOf plain valued (c :: more), rest with
      | (letters, some open?, _), value :: rest =>
        let o := readOptions plain valued anywhere rest
        { o with letters := letters ++ (open?, value) :: o.letters }
      | (letters, some open?, _), [] => { letters, bare := some open? }
      | (letters, none, some unknown), _ => { letters, unknown := some unknown }
      | (letters, none, none), rest =>
        let o := readOptions plain valued anywhere rest
        { o with letters := letters ++ o.letters }
    | _ =>
      if anywhere then
        let o := readOptions plain valued anywhere rest
        { o with rest := a :: o.rest }
      else { rest := a :: rest }

/-- The complaint about options that are none. -/
def optionFailure? (call : Call) (status : Nat) (o : Options) : Option Report :=
  match o.long, o.unknown, o.bare with
  | some option, _, _ => some (call.misuse status ("unrecognized option " ++ quoted option))
  | none, some c, _ =>
    some (call.misuse status ("invalid option -- " ++ quoted (String.singleton c)))
  | none, none, some c =>
    some (call.misuse status ("option requires an argument -- " ++ quoted (String.singleton c)))
  | none, none, none => none

/-- A utility that reads its options first. -/
def withOptions (plain valued : String) (anywhere : Bool) (status : Nat)
    (body : Call → Options → Report) : Utility := fun call =>
  let o := readOptions plain.toList valued.toList anywhere call.arguments
  (optionFailure? call status o).getD (body call o)

/-! ### Texts of files -/

/-- Whether an operand stands for the input. -/
def isInput (call : Call) (path : String) : Bool :=
  path == "-" || Device.streamAt? call.tree ⟨path⟩ = some 0

/-- The text of a file, or of the input. -/
def textAt (call : Call) (path : String) : Except IoError String :=
  if isInput call path then .ok call.input
  else
    match call.tree.read ⟨path⟩ with
    | .ok bytes => .ok (String.ofList (Utf8.lossyText bytes))
    | .error e => .error e

/-- The texts of operands; the input is there only once. -/
def textsOf : Call → List String → List (String × Except IoError String)
  | _, [] => []
  | call, path :: rest =>
    (path, textAt call path) ::
      textsOf (if isInput call path then { call with input := "" } else call) rest

/-- Whether operands ask for the input. -/
def asksInput (call : Call) (operands : List String) : Bool :=
  operands.isEmpty || operands.any (isInput call)

/-- The lines of a text without their breaks. -/
def lines (s : String) : List String :=
  let pieces := Text.splitOn '\n' s.toList
  let pieces := if pieces.getLast? = some [] then pieces.dropLast else pieces
  pieces.map String.ofList

/-- Lines, each with a break. -/
def unlines (l : List String) : String :=
  String.join (l.map (· ++ "\n"))

/-- What a utility says about the texts of its operands, one after the other, and `refuse` about
those that cannot be read. -/
def eachText (call : Call) (operands : List String) (refuse : String → IoError → Report)
    (f : String → String → Report) : Report :=
  let operands := if operands.isEmpty then ["-"] else operands
  (textsOf call operands).foldl (fun r (path, text) =>
    r ++ match text with
      | .ok text => f path text
      | .error e => refuse path e) { readsInput := asksInput call operands }

/-- All lines of the texts of operands. -/
def allLines (call : Call) (operands : List String) (refuse : String → IoError → Report) :
    Report × List String :=
  let r := eachText call operands refuse fun _ text => { output := unlines (lines text) }
  ({ r with output := "" }, lines r.output)

/-! ### Saying things -/

/-- Variables, one a line. -/
def listing (environment : List (String × String)) : String :=
  String.join (environment.map fun p => p.1 ++ "=" ++ p.2 ++ "\n")

/-- Tells the values of variables, one a line; a missing one is a failure. -/
def printVariables : Utility := withOptions "0" "" false 2 fun call o =>
  if o.rest.isEmpty then { output := listing call.environment }
  else
    let values := o.rest.map fun name =>
      (call.environment.filter fun v => v.1 == name && name != "").map Prod.snd
    { status := if values.any List.isEmpty then 1 else 0
      output := unlines values.flatten }

/-- Says its arguments. -/
def echo : Utility := fun call =>
  match call.arguments with
  | "-e" :: rest => { output := Format.say true rest }
  | "-ne" :: rest | "-en" :: rest => { output := Format.say true ("-n" :: rest) }
  | rest => { output := Format.say false rest }

/-- Says what a format gives. -/
def printFormat : Utility := fun call =>
  match call.arguments with
  | [] => call.missingOperand 1
  | form :: values =>
    let result := Format.run form values
    let complaints := result.complaints ++ result.refusal.toList
    { status := if complaints.isEmpty then 0 else 1
      output := Format.textOf result.bytes
      errors := String.join (complaints.map fun c => call.name ++ ": " ++ c ++ "\n") }

/-- Decides a condition. -/
def condition : Utility := fun call =>
  match Condition.holds call.tree call.arguments with
  | .ok holds => { status := if holds then 0 else 1 }
  | .error e => call.refuse 2 e

/-- Decides a condition in brackets. -/
def bracket : Utility := fun call =>
  if call.arguments.getLast? = some "]" then
    condition { call with arguments := call.arguments.dropLast }
  else call.refuse 2 "missing ']'"

/-- Tells where programs are; a missing one is a failure. -/
def which : Utility := withOptions "as" "" false 2 fun call o =>
  let searchPath := (KeyMap.find? "PATH" call.environment).getD ""
  let found := o.rest.map fun name =>
    let places : List Path :=
      if (Path.mk name).hasSlash then [⟨name⟩]
      else (Text.splitOn ':' searchPath.toList).map fun d => Path.join ⟨String.ofList d⟩ name
    let programs := places.filter call.tree.isExecutable
    (if o.has 'a' then programs else programs.take 1).map Path.text
  { status := if o.rest.isEmpty || found.any List.isEmpty then 1 else 0
    output := if o.has 's' then "" else unlines found.flatten }

/-- Tells the working directory. -/
def workingDirectory : Utility := fun call =>
  { output := (Location.path call.tree.workingDirectory).text ++ "\n" }

end Utility

end LayeredEnv.Shell
