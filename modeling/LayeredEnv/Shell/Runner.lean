import LayeredEnv.Shell.Expansion
import LayeredEnv.Shell.Reading

/-!
# What scripts are run with

A `Runner` runs scripts and starts programs.  Everything here is done with one: running a text as a
script, running a script in a shell of its own or for what it writes, leading streams elsewhere and
starting a program.  Nothing depends on which runner it is.

This is part of `Shell.launch`, the launcher of the runnable program, and of nothing else: what is
stated of requests, commands and actions holds for every launcher.
-/

namespace LayeredEnv.Shell

/-- How a shell goes on after a script. -/
inductive Flow
  | next
  /-- Out of loops, and on with the last one of them if `again` is set. -/
  | outOfLoops (count : Nat) (again : Bool)
  /-- Out of the function or the file being run. -/
  | outOfFunction
  | ended (exit : Exit)
  deriving DecidableEq, Repr

/-- A shell after a script, and how it goes on. -/
abbrev Step := Process × Flow

/-- Runs scripts and starts programs.  The flag of a script says whether its failure is looked at,
so that it does not end a shell that ends on failures. -/
structure Runner where
  run : Process → (tested : Bool) → Script → Step
  launch : Launcher

/-- The exit code of a shell that is told to end with a number. -/
def exitCode (n : Nat) : Exit :=
  .code (n % 256)

/-- The number by which a shell tells how a program ended. -/
def statusOf : Exit → Nat
  | .code n => n
  | .signal n => 128 + n

/-- The status of a shell that finds a mistake in what it is told. -/
def mistaken : Nat := 2

/-- The signals by name. -/
def signals : List (String × Nat) :=
  [("HUP", 1), ("INT", 2), ("QUIT", 3), ("ILL", 4), ("TRAP", 5), ("ABRT", 6), ("BUS", 7),
    ("FPE", 8), ("KILL", 9), ("USR1", 10), ("SEGV", 11), ("USR2", 12), ("PIPE", 13), ("ALRM", 14),
    ("TERM", 15), ("CHLD", 17), ("CONT", 18), ("STOP", 19), ("TSTP", 20), ("TTIN", 21),
    ("TTOU", 22), ("URG", 23), ("XCPU", 24), ("XFSZ", 25), ("VTALRM", 26), ("PROF", 27),
    ("WINCH", 28), ("IO", 29), ("PWR", 30), ("SYS", 31)]

/-- How many signals there are. -/
def signalCount : Nat := 64

/-- The name of a signal, or its number if it has none. -/
def signalName (n : Nat) : String :=
  match signals.find? fun s => s.2 = n with
  | some (name, _) => name
  | none =>
    if n = 34 then "RTMIN"
    else if n = 64 then "RTMAX"
    else if 34 < n && n < 50 then "RTMIN+" ++ toString (n - 34)
    else if 50 ≤ n && n < 64 then "RTMAX-" ++ toString (64 - n)
    else toString n

/-- The signals that do not end a process. -/
def harmlessSignals : List Nat :=
  [0, 17, 18, 19, 20, 21, 22, 23, 28]

/-- What a shell says about a program that a signal ended; nothing about an interrupt. -/
def signalText : Nat → String
  | 1 => "Hangup\n"
  | 2 | 13 => ""
  | 3 => "Quit\n"
  | 4 => "Illegal instruction\n"
  | 5 => "Trace/breakpoint trap\n"
  | 6 => "Aborted\n"
  | 7 => "Bus error\n"
  | 8 => "Floating point exception\n"
  | 9 => "Killed\n"
  | 10 => "User defined signal 1\n"
  | 11 => "Segmentation fault\n"
  | 12 => "User defined signal 2\n"
  | 14 => "Alarm clock\n"
  | 15 => "Terminated\n"
  | n => "Signal " ++ toString n ++ "\n"

/-- The number of a signal that is given as a number or by name. -/
def signalOf? (text : String) : Option Nat :=
  let digits := text.toList
  if !digits.isEmpty && digits.all Char.isDigit then
    if Numeral.value 10 digits ≤ signalCount then some (Numeral.value 10 digits) else none
  else (List.range (signalCount + 1)).find? fun n => signalName n == text.toUpper

/-- The number that a text of digits is. -/
def numeral? (text : String) : Option Nat :=
  let digits := text.toList
  if !digits.isEmpty && digits.all Char.isDigit then some (Numeral.value 10 digits) else none

namespace Process

/-- The shell with a status. -/
def ending (p : Process) (status : Nat) : Process :=
  { p with status }

/-- The shell after a mistake that its script survives. -/
def mistake (p : Process) (text : String) : Process :=
  (p.complain text).ending mistaken

/-- The shell after a mistake that ends it. -/
def fatal (p : Process) (text : String) : Step :=
  (p.mistake text, .ended (.code mistaken))

/-- The shell after something that was put in, or after the mistake in it. -/
def expanding {α : Type} (p : Process) (e : Expanding α) : Except Step (α × Process) :=
  match (ExceptT.run e).run p with
  | (.ok a, p) => .ok (a, p)
  | (.error text, p) => .error (p.fatal text)

/-- What a shell keeps of another one that ran in its place: the files and what was written. -/
def keep (p q : Process) : Process :=
  { p with
    tree := { q.tree with workingDirectory := p.tree.workingDirectory }
    channels := q.channels
    writes := q.writes }

end Process

namespace Runner

/-! ### Texts as scripts -/

/-- Runs the lines of a text, at most `count` of them; a text without commands succeeds. -/
def lines (r : Runner) (tested ran : Bool) : (count : Nat) → Process → Source → Step
  | 0, p, _ => (p, .next)
  | count + 1, p, s =>
    match readLine s with
    | .error f => { p with line := f.line }.fatal ("Syntax error: " ++ f.message)
    | .ok none => (if ran then p else p.ending 0, .next)
    | .ok (some (script, s)) =>
      match r.run p tested script with
      | (p, .next) => r.lines tested true count p s
      | step => step

/-- Runs a text. -/
def text (r : Runner) (tested : Bool) (p : Process) (s : List Char) : Step :=
  r.lines tested false (s.length + 1) p { rest := s }

/-- Does what is to be done at the end of a shell, and tells how it ends. -/
def finish (r : Runner) (p : Process) (flow : Flow) : Process × Exit :=
  let exit :=
    match flow with
    | .ended exit => exit
    | _ => exitCode p.status
  match exit, KeyMap.find? "EXIT" p.traps with
  | .code n, some action =>
    match r.text false { p with status := n, traps := [] } action.toList with
    | (p, .ended exit) => (p, exit)
    | (p, _) => (p, exit)
  | exit, _ => (p, exit)

/-- Runs a script in a shell of its own.  A signal to that shell goes to this one as well. -/
def apart (r : Runner) (p : Process) (inside : Process) (tested : Bool) (script : Script) : Step :=
  let (q, flow) := r.run { inside with traps := [] } tested script
  let (q, exit) := r.finish q flow
  match exit with
  | .signal _ => (p.keep q, .ended exit)
  | .code n => ((p.keep q).ending n, .next)

/-- Runs a script for what it writes. -/
def capture (r : Runner) : Capture := fun p script =>
  let (q, channel) := p.addChannel (.memory "")
  match r.apart p (q.lead 1 channel) false script with
  | (q, _) =>
    let text :=
      match q.channels[channel]? with
      | some (.memory text) => text
      | _ => ""
    ({ q with status := p.status, outputStatus := q.status }, text)

/-! ### Redirections -/

/-- Leads a stream to a file. -/
def redirectFile (p : Process) (stream : Nat) (mode : OpenMode) (path : String) :
    Except String Process :=
  let opened :=
    match mode with
    | .reading =>
      (p.openForReading ⟨path⟩).mapError fun e => "cannot open " ++ path ++ ": " ++ e
    | .both =>
      if p.tree.isFile ⟨path⟩ then
        (p.openForReading ⟨path⟩).mapError fun e => "cannot open " ++ path ++ ": " ++ e
      else
        (p.openForWriting true ⟨path⟩).mapError fun e => "cannot create " ++ path ++ ": " ++ e
    | .replacing | .overwriting | .appending =>
      if mode = OpenMode.replacing && p.options.contains 'C' && p.tree.isFile ⟨path⟩ then
        .error ("cannot create " ++ path ++ ": File exists")
      else
        (p.openForWriting (decide (mode = OpenMode.appending)) ⟨path⟩).mapError fun e =>
          "cannot create " ++ path ++ ": " ++ e
  opened.map fun (p, channel) => p.lead stream channel

/-- Why the streams of a command could not be led elsewhere. -/
inductive Misdirection
  /-- What stands in a word could not be put in. -/
  | fatal (step : Step)
  | refused (p : Process) (reason : String)

/-- Leads one stream elsewhere. -/
def redirectOne (r : Runner) (p : Process) : Redirection → Except Misdirection Process
  | .file stream mode target =>
    match p.expanding (Expanding.text r.capture target) with
    | .error step => .error (.fatal step)
    | .ok (path, p) =>
      match redirectFile p stream mode path with
      | .ok p => .ok p
      | .error reason => .error (.refused p reason)
  | .same stream other =>
    match p.expanding (Expanding.text r.capture other) with
    | .error step => .error (.fatal step)
    | .ok ("-", p) => .ok (p.close stream)
    | .ok (text, p) =>
      match if text.length = 1 then numeral? text else none with
      | none => .error (.fatal (p.fatal "Syntax error: Bad fd number"))
      | some n =>
        match p.streams.find? fun s => s.1 = n with
        | some (_, channel) => .ok (p.lead stream channel)
        | none => .error (.refused p (text ++ ": Bad file descriptor"))
  | .document stream body =>
    match (ExceptT.run (Expanding.text r.capture body)).run p with
    | (.error reason, p) => .error (.refused p reason)
    | (.ok text, p) =>
      let (p, channel) := p.addChannel (.memory text)
      .ok (p.lead stream channel)

/-- Leads streams elsewhere, one after the other. -/
def redirect (r : Runner) (p : Process) : List Redirection → Except Misdirection Process
  | [] => .ok p
  | first :: rest =>
    match r.redirectOne p first with
    | .ok p => r.redirect p rest
    | .error e => .error e

/-- Runs something with streams led elsewhere, and leads them back. -/
def withRedirections (r : Runner) (p : Process) (line : Nat) (redirections : List Redirection)
    (body : Process → Step) : Step :=
  let p := if redirections.isEmpty then p else { p with line }
  match r.redirect p redirections with
  | .error (.fatal step) => step
  | .error (.refused q reason) => ({ q with streams := p.streams }.mistake reason, .next)
  | .ok q =>
    let (q, flow) := body q
    ({ q with streams := p.streams }, flow)

/-! ### Programs -/

/-- The words of a refusal to start a program. -/
def startReason : IoError → String
  | .notFound | .notADirectory => "not found"
  | e => e.reason

/-- The status of a shell that could not start a program. -/
def startStatus : IoError → Nat
  | .notFound | .notADirectory | .tooManyLinks | .nameTooLong => 127
  | _ => 126

/-- The places at which a shell looks for a program. -/
def places (p : Process) (name : String) : List Path :=
  Command.candidates ((p.binding? Command.searchVariable).getD "") name

/-- The places at which a shell may start a program: the first executable file and what is looked
at after it. -/
def programsOf (p : Process) (name : String) : Except IoError (List Path) :=
  if (Path.mk name).hasSlash then .ok [⟨name⟩]
  else
    let all := places p name
    match all.dropWhile fun path => !p.tree.isExecutable path with
    | [] => .error (if all.any p.tree.pathExists then .permissionDenied else .notFound)
    | found => .ok found

/-- The path that a name of a program stands for. -/
def programOf? (p : Process) (name : String) : Option Path :=
  if (Path.mk name).hasSlash then if p.tree.pathExists ⟨name⟩ then some ⟨name⟩ else none
  else (places p name).find? p.tree.isExecutable

/-- Starts the first program that can be started among places. -/
def startAmong (start : Path → Except IoError Outcome) (refusal : IoError) :
    List Path → Except IoError Outcome
  | [] => .error refusal
  | path :: rest =>
    match start path with
    | .ok outcome => .ok outcome
    | .error .notFound | .error .notADirectory => startAmong start refusal rest
    | .error e => startAmong start e rest

/-- The shell after a program. -/
def afterProgram (p : Process) (outcome : Outcome) : Process × Exit :=
  let p := outcome.writes.foldl (fun p (stream, text) =>
    p.write (match stream with | .output => 1 | .errors => 2) text) { p with tree := outcome.tree }
  let p := (p.setPending 0 outcome.unread).ending (statusOf outcome.exit)
  match outcome.exit with
  | .signal n => (p.write 2 (signalText n), .signal n)
  | .code n => (p, .code n)

/-- The shell after a program that could not be started. -/
def withoutProgram (p : Process) (name : String) (status : Nat) (e : IoError) : Process × Exit :=
  ((p.complain (name ++ ": " ++ startReason e)).ending status, .code status)

/-- Starts a program at the first of some places where one can be started. -/
def start (r : Runner) (p : Process) (name : String) (arguments : List String)
    (places : List Path) : Except IoError Outcome :=
  startAmong (fun program =>
    r.launch p.tree
      { program, arguments, knownAs := some name, environment := p.environment
        input := p.pending 0, byShell := true }) .notFound places

/-- Runs a program, and tells how it ended. -/
def program (r : Runner) (p : Process) (name : String) (arguments : List String) :
    Process × Exit :=
  match programsOf p name with
  | .error e => withoutProgram p name 127 e
  | .ok places =>
    match r.start p name arguments places with
    | .ok outcome => afterProgram p outcome
    | .error e => withoutProgram p name (startStatus e) e

/-- Runs a program in place of the shell. -/
def replacement (r : Runner) (p : Process) (name : String) (arguments : List String) :
    Process × Exit :=
  let all := if (Path.mk name).hasSlash then [⟨name⟩] else places p name
  match r.start p name arguments all with
  | .ok outcome => afterProgram { p with traps := [] } outcome
  | .error e => withoutProgram { p with within := some "exec" } name (startStatus e) e

end Runner

end LayeredEnv.Shell
