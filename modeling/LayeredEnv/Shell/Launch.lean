import LayeredEnv.Shell.Installed
import LayeredEnv.Shell.Run

/-!
# Starting programs

A file is a program if it may be executed and is the image of an installed program or a script that
names its interpreter.  `launch` starts programs; they may start others, down to a depth that no
honest script reaches.

The launcher and everything that it needs (`LayeredEnv.Shell`) stand in for an operating system and
its programs, so that the command line can be run.  What is stated of requests, commands and actions
holds for every `Launcher`, and nothing there rests on what this one does.
-/

namespace LayeredEnv.Shell

/-! ### Images -/

/-- What the bytes of an executable file are. -/
inductive Image
  | native (program : Installed)
  | script (interpreter : Path) (argument : Option String)
  | unknown

/-- Whether a byte is a blank within a line. -/
def isLineBlank (b : UInt8) : Bool :=
  b == 0x20 || b == 0x09

/-- Whether a byte ends a word of a line. -/
def endsWord (b : UInt8) : Bool :=
  isLineBlank b || b == 0

/-- How many bytes of a file are looked at for its interpreter; a shorter file counts as going on
with zeros. -/
def headLength : Nat := 256

/-- The line in which a file names its interpreter, from what follows the mark at its start.  Where
the line is longer than what is looked at, the interpreter has to end before that. -/
def interpreterLine? (head : List UInt8) : Option (List UInt8) :=
  let line := head.takeWhile (· != 0x0a)
  let trimmed (s : List UInt8) : List UInt8 := (s.reverse.dropWhile isLineBlank).reverse
  if line.length < head.length then some (trimmed line)
  else if (head.dropWhile isLineBlank).any endsWord then some (trimmed head.dropLast)
  else none

/-- The interpreter that a line names, and the one argument for it.  An empty name is that of the
working directory. -/
def interpreterOf? (line : List UInt8) : Option (Path × Option String) :=
  match line.dropWhile isLineBlank with
  | [] => none
  | words =>
    let text (s : List UInt8) : String := String.ofList (Utf8.lossyText s)
    let name := words.takeWhile fun b => !endsWord b
    let argument :=
      match words.drop name.length with
      | [] | 0 :: _ => none
      | after => some (text ((after.dropWhile isLineBlank).takeWhile (· != 0)))
    some (if name.isEmpty then ⟨"."⟩ else ⟨text name⟩, argument)

/-- What the bytes of an executable file are. -/
def imageOf (bytes : List UInt8) : Image :=
  match Installed.ofImage? bytes with
  | some program => .native program
  | none =>
    let seen := bytes.take headLength
    match seen ++ List.replicate (headLength - seen.length) 0 with
    | 0x23 :: 0x21 :: head =>
      match (interpreterLine? head).bind interpreterOf? with
      | some (interpreter, argument) => .script interpreter argument
      | none => .unknown
    | _ => .unknown

/-! ### The installed programs -/

/-- What a program leaves behind that says something and ends. -/
def said (tree : FileTree) (i : Invocation) (status : Nat) (output errors : String) : Outcome :=
  { exit := .code status, tree, unread := i.input,
    writes := [(.output, output), (.errors, errors)] }

/-- Runs a utility. -/
def runUtility (tree : FileTree) (i : Invocation) (u : Utility) : Outcome :=
  let r := u
    { name := i.name, tree, environment := i.environment, arguments := i.arguments
      input := i.input }
  { said (r.tree?.getD tree) i r.status r.output r.errors with
    unread := if r.readsInput then "" else i.input }

/-- What a shell that ran to its end leaves behind. -/
def outcomeOf (p : Process) (exit : Exit) : Outcome :=
  { exit, tree := p.tree, writes := p.writes.reverse, unread := p.pending 0 }

/-- Runs a text in a new shell; a text that was the input is not left to be read. -/
def runScript (launch : Launcher) (tree : FileTree) (i : Invocation) (options : List Char)
    (name : String) (parameters : List String) (script : String) : Outcome :=
  let p := Process.start tree i.environment i.input name parameters
  let (p, exit) := { p with options }.runText launch script.toList
  outcomeOf p exit

/-- The arguments of a shell, with the letter that asks for a script among them left out, and
whether it was there. -/
def takeScriptLetter : List String → Bool × List String
  | [] => (false, [])
  | a :: rest =>
    match a.toList with
    | ['-'] | ['-', '-'] => (false, a :: rest)
    | sign :: letters =>
      if sign == '-' || sign == '+' then
        let kept := letters.filter fun c => c != 'c' && c != 'l'
        let (more, others) :=
          match letters.contains 'o', rest with
          | true, value :: rest =>
            let (more, others) := takeScriptLetter rest
            (more, value :: others)
          | _, rest => takeScriptLetter rest
        (letters.contains 'c' || more,
          if kept.isEmpty then others else String.ofList (sign :: kept) :: others)
      else (false, a :: rest)
    | [] => (false, a :: rest)

/-- The shell as a program. -/
def runShell (launch : Launcher) (tree : FileTree) (i : Invocation) : Outcome :=
  let refuse (reason : String) : Outcome :=
    said tree i mistaken "" (i.name ++ ": 0: " ++ reason ++ "\n")
  let (asksScript, arguments) := takeScriptLetter i.arguments
  match Runner.takeOptions [] arguments with
  | .error reason => refuse reason
  | .ok (options, rest) =>
    let rest := rest.getD []
    if asksScript then
      match rest with
      | [] => refuse "-c requires an argument"
      | [script] => runScript launch tree i options i.name [] script
      | script :: name :: parameters => runScript launch tree i options name parameters script
    else
      match options.contains 's', rest with
      | true, parameters =>
        runScript launch tree { i with input := "" } options i.name parameters i.input
      | false, [] => runScript launch tree { i with input := "" } options i.name [] i.input
      | false, path :: parameters =>
        match tree.read ⟨path⟩ with
        | .ok bytes =>
          runScript launch tree i options path parameters (String.ofList (Utf8.lossyText bytes))
        | .error .isADirectory => runScript launch tree i options path parameters ""
        | .error e => refuse ("cannot open " ++ path ++ ": " ++ Process.openReason "No such file" e)

/-- The variable and the value of a text of the form `NAME=value`. -/
def settingOfText? (text : String) : Option (String × String) :=
  (Text.cutAt? '=' text.toList).map fun s => (String.ofList s.1, String.ofList s.2)

/-- An environment with a variable set: at its first place, or else at the end. -/
def putVariable (name value : String) : List (String × String) → List (String × String)
  | [] => [(name, value)]
  | (k, v) :: rest =>
    if k = name then (name, value) :: rest else (k, v) :: putVariable name value rest

/-- Runs a program with another environment, or lists that environment. -/
def runEnvironment (launch : Launcher) (tree : FileTree) (i : Invocation) : Outcome :=
  let call : Call :=
    { name := i.name, tree, environment := i.environment, arguments := i.arguments
      input := i.input }
  let fail (r : Report) : Outcome := said tree i r.status r.output r.errors
  let o := Utility.readOptions ['i', '0', 'v'] ['u', 'C', 'S'] false i.arguments
  match Utility.optionFailure? call 125 o with
  | some r => fail r
  | none =>
    let removed := o.letters.filterMap fun p => if p.1 == 'u' then some p.2 else none
    match removed.find? fun name => name == "" || name.toList.contains '=' with
    | some name => fail (call.refuse 125 ("cannot unset " ++ Utility.quoted name ++
        ": Invalid argument"))
    | none =>
      let words := ((o.value? 'S').map fun s =>
        ((Text.splitOn ' ' s.toList).filter fun w => !w.isEmpty).map String.ofList).getD []
      let operands := words ++ o.rest
      let cleared := o.has 'i' || operands.head? = some "-"
      let operands := if operands.head? = some "-" then operands.tail else operands
      let kept :=
        if cleared then [] else i.environment.filter fun v => !removed.contains v.1
      let settings := (operands.takeWhile fun a => (settingOfText? a).isSome).filterMap
        settingOfText?
      let environment := settings.foldl (fun e s => putVariable s.1 s.2 e) kept
      match operands.drop settings.length with
      | [] =>
        let listing := Utility.listing environment
        said tree i 0 (if o.has '0' then listing.replace "\n" "\x00" else listing) ""
      | name :: arguments =>
        let there : Except IoError FileTree :=
          match o.value? 'C' with
          | none => .ok tree
          | some directory =>
            match tree.locate ⟨directory⟩ with
            | .ok place =>
              if tree.node? place = some .directory then
                .ok { tree with workingDirectory := place }
              else .error .notADirectory
            | .error e => .error e
        match there with
        | .error e =>
          fail (call.refuse 125 ("cannot change directory to " ++
            Utility.quoted ((o.value? 'C').getD "") ++ ": " ++ e.reason))
        | .ok tree =>
          match launch tree
            { program := ⟨name⟩, knownAs := some name, arguments, environment, input := i.input
              byShell := true } with
          | .ok outcome => outcome
          | .error e =>
            let advice :=
              if e = .notFound && name.toList.any (fun c => c == ' ' || c == '\t') then
                i.name ++ ": use -[v]S to pass options in shebang lines\n"
              else ""
            said tree i (if e = .notFound then 127 else 126) ""
              (i.name ++ ": " ++ Utility.quoted name ++ ": " ++ e.reason ++ "\n" ++ advice)

/-- Runs an installed program. -/
def runInstalled (launch : Launcher) (tree : FileTree) (i : Invocation) : Installed → Outcome
  | .shell => runShell launch tree i
  | .environment => runEnvironment launch tree i
  | .utility u => runUtility tree i u

/-! ### Starting -/

/-- How many files are looked into to start one program: interpreters may be scripts themselves. -/
def interpreterLimit : Nat := 6

/-- The bytes of the program at a path, which may be executed. -/
def executableBytes (tree : FileTree) (path : Path) : Except IoError (List UInt8) :=
  match tree.locate path with
  | .error e => .error e
  | .ok place =>
    match tree.node? place with
    | some (.file bytes true) => .ok bytes
    | _ => .error .permissionDenied

/-- Starts the program at a path; a script becomes an argument of its interpreter. -/
def execute (run : FileTree → Invocation → Installed → Outcome) (tree : FileTree) :
    Nat → Invocation → Except IoError Outcome
  | files, i =>
    match executableBytes tree i.program, files with
    | .error e, _ => .error e
    | .ok _, 0 => .error .tooManyLinks
    | .ok bytes, files + 1 =>
      match imageOf bytes with
      | .native program => .ok (run tree i program)
      | .script interpreter argument =>
        execute run tree files
          { i with
            program := interpreter
            knownAs := none
            arguments := argument.toList ++ i.program.text :: i.arguments }
      | .unknown => .error .notAProgram

/-- The shell that runs programs without an interpreter. -/
def standardShell : Path := ⟨"/bin/sh"⟩

/-- Starts a program; one that nothing else interprets is run by the shell if that is asked for. -/
def executeByShell (start : Invocation → Except IoError Outcome) (i : Invocation) :
    Except IoError Outcome :=
  match start i with
  | .error .notAProgram =>
    if i.byShell then
      start
        { i with
          program := standardShell
          knownAs := none
          arguments := i.program.text :: i.arguments }
    else .error .notAProgram
  | result => result

/-- Starts the first program among places; one that may not be started is passed over. -/
def executeFirst (start : Invocation → Except IoError Outcome) (i : Invocation)
    (refusal : IoError) : List Path → Except IoError Outcome
  | [] => .error refusal
  | path :: rest =>
    match executeByShell start { i with program := path } with
    | .error .notFound | .error .notADirectory => executeFirst start i refusal rest
    | .error .permissionDenied => executeFirst start i .permissionDenied rest
    | result => result

/-- The search path of a program without one. -/
def defaultSearchPath : String := "/bin:/usr/bin"

/-- Whether a text has a character that no argument may have. -/
def hasNul (s : String) : Bool :=
  s.toList.contains '\x00'

/-- Whether some text of an invocation has a character that none may have. -/
def isSpoiled (i : Invocation) : Bool :=
  hasNul i.program.text || i.arguments.any hasNul ||
    i.environment.any fun p => hasNul p.1 || hasNul p.2

/-- The variables as a program finds them in texts of the form `NAME=value`: a name ends where the
first sign stands. -/
def asFound (environment : List (String × String)) : List (String × String) :=
  environment.filterMap fun v => settingOfText? (v.1 ++ "=" ++ v.2)

/-- Starts a program, where a program without a slash is looked for in its own search path.  It
leaves the working directory as it is. -/
def launchWith (run : FileTree → Invocation → Installed → Outcome) : Launcher := fun tree i =>
  if isSpoiled i then .error .nulInArgument
  else
    let i := { i with environment := asFound i.environment }
    let start := execute run tree interpreterLimit
    let result :=
      if i.program.text == "" then .error .notFound
      else if i.program.hasSlash then executeByShell start i
      else
        let searchPath := (KeyMap.find? Command.searchVariable i.environment).getD defaultSearchPath
        executeFirst start i .notFound (Command.candidates searchPath i.program.text)
    result.map fun outcome =>
      { outcome with tree := { outcome.tree with workingDirectory := tree.workingDirectory } }

/-- Starts programs that start programs down to a depth. -/
def launchTo : Nat → Launcher
  | 0 => fun _ _ => .error .tooManyProcesses
  | depth + 1 => launchWith (runInstalled (launchTo depth))

/-- How deep programs may start programs. -/
def launchDepth : Nat := 256

/-- Starts programs. -/
def launch : Launcher :=
  launchTo launchDepth

end LayeredEnv.Shell
