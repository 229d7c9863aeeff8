import LayeredEnv.Command
import LayeredEnv.Shell.Device
import LayeredEnv.Shell.Script
import LayeredEnv.Text.Utf8

/-!
# A running shell

What a shell holds while it runs: its variables, functions and parameters, how its last command
ended, the files, and where its streams lead.  A stream leads to a channel; channels stay, while
what the streams lead to changes with every redirection.

This is part of `Shell.launch`, the launcher of the runnable program, and of nothing else: what is
stated of requests, commands and actions holds for every launcher.
-/

namespace LayeredEnv.Shell

/-- A variable, which may be there without a value. -/
structure Variable where
  value : Option String
  /-- Whether programs that the shell starts see it. -/
  exported : Bool := false
  readOnly : Bool := false

/-- Where a stream leads. -/
inductive Channel
  /-- To where the shell itself writes. -/
  | own (stream : Stream)
  /-- To the end of a file. -/
  | file (place : Location)
  /-- To a text that can be read. -/
  | memory (text : String)
  | nowhere

/-- A shell while it runs. -/
structure Process where
  tree : FileTree
  vars : List (String × Variable) := []
  functions : List (String × Script) := []
  name : String
  parameters : List String := []
  /-- How the last command ended. -/
  status : Nat := 0
  /-- How the last script whose output was put in ended. -/
  outputStatus : Nat := 0
  /-- The letters of the options that are set. -/
  options : List Char := []
  channels : List Channel
  /-- The channel of every open stream. -/
  streams : List (Nat × Nat) := [(0, 0), (1, 1), (2, 2)]
  /-- What was written, the last text first. -/
  writes : List (Stream × String) := []
  /-- The working directory as it was gone to. -/
  directory : String
  /-- What to do at the end and on signals. -/
  traps : List (String × String) := []
  /-- What the local variables of the functions being run were before, the innermost first. -/
  scopes : List (List (String × Option Variable)) := []
  /-- The scripts that were run in the background by number, the last one first, with their
  status. -/
  jobs : List (String × Nat) := []
  /-- How many loops are being run. -/
  loops : Nat := 0
  /-- Where in a parameter the next option stands. -/
  optionOffset : Nat := 1
  /-- The line of the command being run. -/
  line : Nat := 1
  /-- The command of the shell's own, or the file, that is being run. -/
  within : Option String := none

/-- The search path of a shell that is not given one. -/
def standardSearchPath : String :=
  "/usr/local/sbin:/usr/local/bin:/usr/sbin:/usr/bin:/sbin:/bin"

/-- The number by which a shell calls itself. -/
def ownNumber : String := "4711"

/-- The number of the first script in the background. -/
def firstJobNumber : Nat := 4712

/-- The number of the program that started the shell. -/
def parentNumber : String := "4710"

/-- The variables that every shell has, in the order in which it lists them. -/
def standardVariables : List (String × Variable) :=
  [("OPTIND", { value := some "1" }), ("PS4", { value := some "+ " }),
    ("PS2", { value := some "> " }), ("PS1", { value := some "$ " }),
    (Command.searchVariable, { value := some standardSearchPath }),
    ("MAILPATH", { value := none }), ("MAIL", { value := none }),
    ("IFS", { value := some " \t\n" })]

namespace Process

/-! ### Variables -/

/-- The variables with one of them changed, at its place or else at the end. -/
def assignIn (name : String) (change : Option Variable → Variable) :
    List (String × Variable) → List (String × Variable)
  | [] => [(name, change none)]
  | (k, v) :: rest =>
    if k = name then (k, change (some v)) :: rest else (k, v) :: assignIn name change rest

/-- A variable. -/
def lookUp? (p : Process) (name : String) : Option Variable :=
  KeyMap.find? name p.vars

/-- The value of a variable. -/
def binding? (p : Process) (name : String) : Option String :=
  (p.lookUp? name).bind Variable.value

/-- The shell with a variable set; it stays exported if it was, and is exported if all are. -/
def set (p : Process) (name value : String) : Process :=
  { p with
    vars := assignIn name (fun before =>
      match before with
      | some v => { v with value := some value, exported := v.exported || p.options.contains 'a' }
      | none => { value := some value, exported := p.options.contains 'a' }) p.vars
    optionOffset := if name = "OPTIND" then 1 else p.optionOffset }

/-- The shell with a variable exported. -/
def exportName (p : Process) (name : String) : Process :=
  { p with
    vars := assignIn name (fun before =>
      match before with
      | some v => { v with exported := true }
      | none => { value := none, exported := true }) p.vars }

/-- The shell with a variable that can no longer be set. -/
def lock (p : Process) (name : String) : Process :=
  { p with
    vars := assignIn name (fun before =>
      match before with
      | some v => { v with readOnly := true }
      | none => { value := none, readOnly := true }) p.vars }

/-- Whether a variable can no longer be set. -/
def isLocked (p : Process) (name : String) : Bool :=
  (p.lookUp? name).any Variable.readOnly

/-- The shell without a variable. -/
def unset (p : Process) (name : String) : Process :=
  { p with vars := p.vars.filter fun v => v.1 != name }

/-- How many groups the variables are listed in. -/
def groups : Nat := 39

/-- The group of a variable. -/
def groupOf (name : String) : Nat :=
  match name.toList with
  | [] => 0
  | c :: rest => (16 * c.toNat + (c :: rest).foldl (fun n d => n + d.toNat) 0) % groups

/-- The environment of the programs that the shell starts: what is exported, group by group. -/
def environment (p : Process) : List (String × String) :=
  let exported := p.vars.filterMap fun (name, v) =>
    if v.exported then v.value.map fun value => (name, value) else none
  (List.range groups).flatMap fun group => exported.filter fun v => groupOf v.1 = group

/-- The shell with variables as they were. -/
def restore (p : Process) (before : List (String × Option Variable)) : Process :=
  before.foldl (fun p (name, v) =>
    match v with
    | some v => { p with vars := assignIn name (fun _ => v) p.vars }
    | none => p.unset name) p

/-! ### Beginning -/

/-- Whether an absolute path leads to the working directory of a tree. -/
def isHere (tree : FileTree) (path : String) : Bool :=
  path.startsWith "/" &&
    match tree.locate ⟨path⟩ with
    | .ok place => place == tree.workingDirectory
    | .error _ => false

/-- A shell that has not run anything. -/
def start (tree : FileTree) (environment : List (String × String)) (input : String)
    (name : String) (parameters : List String) : Process :=
  let given := environment.filter fun v => isName v.1.toList
  let vars := given.foldl (fun vars (name, value) =>
    assignIn name (fun _ => { value := some value, exported := true }) vars) standardVariables
  let directory :=
    match (KeyMap.find? "PWD" vars).bind Variable.value with
    | some path => if isHere tree path then path else (Location.path tree.workingDirectory).text
    | none => (Location.path tree.workingDirectory).text
  let p : Process :=
    { tree, vars, name, parameters, directory
      channels := [.memory input, .own .output, .own .errors] }
  (((p.set "IFS" " \t\n").set "OPTIND" "1").set "PPID" parentNumber).set "PWD" directory
    |>.exportName "PWD"

/-! ### Channels -/

/-- The channel of a stream. -/
def channel? (p : Process) (stream : Nat) : Option Channel :=
  ((p.streams.find? fun s => s.1 = stream).map Prod.snd).bind fun n => p.channels[n]?

/-- The shell with a new channel, and its number. -/
def addChannel (p : Process) (channel : Channel) : Process × Nat :=
  ({ p with channels := p.channels ++ [channel] }, p.channels.length)

/-- The shell with a stream that leads to a channel. -/
def lead (p : Process) (stream channel : Nat) : Process :=
  { p with streams := (stream, channel) :: p.streams.filter fun s => s.1 != stream }

/-- The shell with a stream closed. -/
def close (p : Process) (stream : Nat) : Process :=
  { p with streams := p.streams.filter fun s => s.1 != stream }

/-- The shell after a text went into a channel. -/
def pour (p : Process) (number : Nat) (text : String) : Process :=
  match p.channels[number]? with
  | some (.own stream) => { p with writes := (stream, text) :: p.writes }
  | some (.memory before) => { p with channels := p.channels.set number (.memory (before ++ text)) }
  | some (.file place) =>
    match p.tree.node? place with
    | some (.file bytes x) =>
      { p with tree := p.tree.set place (.file (bytes ++ Utf8.encode text) x) }
    | _ => p
  | some .nowhere | none => p

/-- The shell after a text was written to a stream. -/
def write (p : Process) (stream : Nat) (text : String) : Process :=
  match p.streams.find? fun s => s.1 = stream with
  | some (_, number) => if text == "" then p else p.pour number text
  | none => p

/-- The text that is left to be read from a stream. -/
def pending (p : Process) (stream : Nat) : String :=
  match p.channel? stream with
  | some (.memory text) => text
  | _ => ""

/-- The shell with a text left to be read from a stream. -/
def setPending (p : Process) (stream : Nat) (text : String) : Process :=
  match p.streams.find? fun s => s.1 = stream with
  | some (_, number) =>
    match p.channels[number]? with
    | some (.memory _) => { p with channels := p.channels.set number (.memory text) }
    | _ => p
  | none => p

/-- A complaint about the command being run. -/
def complaint (p : Process) (text : String) : String :=
  let within := match p.within with | some name => name ++ ": " | none => ""
  p.name ++ ": " ++ toString p.line ++ ": " ++ within ++ text ++ "\n"

/-- The shell after a complaint. -/
def complain (p : Process) (text : String) : Process :=
  p.write 2 (p.complaint text)

/-! ### Opening files -/

/-- Why a file cannot be opened, in the words of the shell. -/
def openReason (missing : String) : IoError → String
  | .notFound | .notADirectory => missing
  | e => e.reason

/-- Why nothing can be opened at a terminal that is not there. -/
def noTerminal : String := "No such device or address"

/-- The shell with a stream of its own opened once more, and the channel; a file is emptied unless
something is to be appended. -/
def reopen (p : Process) (append : Bool) (stream : Nat) (missing : String) :
    Except String (Process × Nat) :=
  match p.streams.find? fun s => s.1 = stream with
  | none => .error missing
  | some (_, number) =>
    match p.channels[number]?, append with
    | some (.file place), false =>
      match p.tree.node? place with
      | some (.file _ x) => .ok ({ p with tree := p.tree.set place (.file [] x) }, number)
      | _ => .ok (p, number)
    | _, _ => .ok (p, number)

/-- Opens a file for writing: it is made if it is not there, and emptied unless something is to be
appended. -/
def openForWriting (p : Process) (append : Bool) (path : Path) : Except String (Process × Nat) :=
  let missing := "Directory nonexistent"
  match p.tree.spot path with
  | .ok (.taken place) =>
    match Device.streamOf? place with
    | some stream => p.reopen append stream missing
    | none =>
      if place = Device.terminal then .error noTerminal
      else
        match p.tree.node? place with
        | some (.file _ x) =>
          .ok <| if append then p.addChannel (.file place)
            else { p with tree := p.tree.set place (.file [] x) }.addChannel (.file place)
        | some .device => .ok (p.addChannel .nowhere)
        | _ => .error (IoError.reason .isADirectory)
  | .ok (.free place) =>
    if Device.isSealed place then .error missing
    else .ok ({ p with tree := p.tree.set place (.file [] false) }.addChannel (.file place))
  | .error e => .error (openReason missing e)

/-- Opens a file for reading. -/
def openForReading (p : Process) (path : Path) : Except String (Process × Nat) :=
  let missing := "No such file"
  match p.tree.locate path with
  | .error e => .error (openReason missing e)
  | .ok place =>
    match Device.streamOf? place with
    | some stream => p.reopen true stream missing
    | none =>
      if place = Device.terminal then .error noTerminal
      else
        .ok <| match p.tree.bytesAt? place with
          | some bytes => p.addChannel (.memory (String.ofList (Utf8.lossyText bytes)))
          | none => p.addChannel .nowhere

end Process

end LayeredEnv.Shell
