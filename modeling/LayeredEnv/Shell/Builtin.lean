import LayeredEnv.Shell.Condition
import LayeredEnv.Shell.Format
import LayeredEnv.Shell.Runner

/-!
# Commands of the shell's own

The commands that a shell runs itself, most of them because they change it: its variables, its
parameters, its directory, where the script goes on.

This is part of `Shell.launch`, the launcher of the runnable program, and of nothing else: what is
stated of requests, commands and actions holds for every launcher.
-/

namespace LayeredEnv.Shell

namespace Runner

/-- A command of the shell's own. -/
abbrev OwnCommand := Runner → Process → List String → Step

/-- A command that only says something and has a status. -/
def saying (f : Process → List String → Process) : OwnCommand := fun _ p arguments =>
  (f p arguments, .next)

/-- The shell after a condition was decided. -/
def condition (p : Process) (arguments : List String) : Process :=
  match Condition.holds p.tree arguments with
  | .ok holds => p.ending (if holds then 0 else 1)
  | .error e => p.mistake e

/-- The shell after a condition in brackets was decided; its last argument begins with the closing
one. -/
def bracket (p : Process) (arguments : List String) : Process :=
  if (arguments.getLast?.bind fun a => a.toList.head?) = some ']' then
    condition p arguments.dropLast
  else p.mistake "missing ]"

/-- The shell after a format was used. -/
def format (p : Process) (arguments : List String) : Process :=
  let arguments :=
    match arguments with
    | "--" :: rest => rest
    | all => all
  match arguments with
  | [] => p.mistake "usage: printf format [arg ...]"
  | form :: values =>
    let result := Format.run form values
    let p := p.write 1 (Format.textOf result.bytes)
    let p := result.complaints.foldl (fun p c => p.complain c) p
    match result.refusal with
    | some reason => p.mistake reason
    | none => p.ending (if result.complaints.isEmpty then 0 else 1)

/-- Ends the shell with a number or with the status of the last command. -/
def leave : OwnCommand := fun _ p arguments =>
  match arguments with
  | [] => (p, .ended (exitCode p.status))
  | n :: _ =>
    match numeral? n with
    | some n => (p, .ended (exitCode n))
    | none => p.fatal ("Illegal number: " ++ n)

/-- Leaves the function being run. -/
def leaveFunction : OwnCommand := fun _ p arguments =>
  match arguments with
  | [] => (p, .outOfFunction)
  | n :: _ =>
    match numeral? n with
    | some n => (p.ending (n % 256), .outOfFunction)
    | none => p.fatal ("Illegal number: " ++ n)

/-- Leaves loops, or goes on with one of them. -/
def leaveLoops (again : Bool) : OwnCommand := fun _ p arguments =>
  match numeral? (arguments.headD "1") with
  | some 0 | none => p.fatal ("Illegal number: " ++ arguments.headD "1")
  | some n =>
    let count := min n p.loops
    (p.ending 0, if count = 0 then .next else .outOfLoops count again)

/-- Sets the variable of a setting, unless it can no longer be set. -/
def setIn (p : Process) (name value : String) : Except Step Process :=
  if p.isLocked name then .error (p.fatal (name ++ ": is read only"))
  else .ok (p.set name value)

/-- Changes variables, those of the form `NAME=value` after they were set. -/
def declare (change : Process → String → Process) (p : Process) :
    List String → Step
  | [] => (p.ending 0, .next)
  | a :: rest =>
    match Text.cutAt? '=' a.toList with
    | some (key, value) =>
      if isName key then
        match setIn p (String.ofList key) (String.ofList value) with
        | .ok p => declare change (change p (String.ofList key)) rest
        | .error (p, _) =>
          (p, .ended (.code mistaken))
      else p.fatal (String.ofList key ++ ": bad variable name")
    | none =>
      if isName a.toList then declare change (change p a) rest
      else p.fatal (a ++ ": bad variable name")

/-- A text between single quotes, where runs of single quotes stand between double quotes. -/
def quotedRuns : (fuel : Nat) → List Char → List Char
  | 0, _ => []
  | fuel + 1, s =>
    let plain := s.takeWhile (· != '\'')
    let quotes := (s.drop plain.length).takeWhile (· == '\'')
    let rest := s.drop (plain.length + quotes.length)
    ['\''] ++ plain ++ ['\''] ++
      if quotes.isEmpty then []
      else ['"'] ++ quotes ++ ['"'] ++ if rest.isEmpty then [] else quotedRuns fuel rest

/-- A text as a shell quotes it. -/
def singleQuoted (s : String) : String :=
  String.ofList (quotedRuns (s.length + 1) s.toList)

/-- Variables with their values, one a line, each after some words. -/
def listing (start : String) (vars : List (String × Variable)) : String :=
  let sorted := vars.mergeSort fun a b => a.1 ≤ b.1
  String.join <| sorted.map fun (name, v) =>
    start ++ name ++
      match v.value with
      | some value => "=" ++ singleQuoted value ++ "\n"
      | none => "\n"

/-- Exports variables. -/
def exportAll : OwnCommand := fun _ p arguments =>
  match arguments with
  | [] | ["-p"] =>
    ((p.write 1 (listing "export " (p.vars.filter fun v => v.2.exported))).ending 0, .next)
  | arguments => declare Process.exportName p arguments

/-- Locks variables. -/
def lockAll : OwnCommand := fun _ p arguments =>
  match arguments with
  | [] | ["-p"] =>
    ((p.write 1 (listing "readonly " (p.vars.filter fun v => v.2.readOnly))).ending 0, .next)
  | arguments => declare Process.lock p arguments

/-- Makes variables local to the function being run. -/
def localise : OwnCommand := fun _ p arguments =>
  match p.scopes with
  | [] => p.fatal "not in a function"
  | scope :: scopes =>
    let names := arguments.map fun a => String.ofList (a.toList.takeWhile (· != '='))
    let saved := names.map fun name => (name, p.lookUp? name)
    declare (fun p _ => p) { p with scopes := (saved ++ scope) :: scopes }
      (arguments.filter fun a => a.toList.contains '=')

/-- Removes variables or functions. -/
def unsetAll : OwnCommand := fun _ p arguments =>
  match arguments with
  | "-f" :: names =>
    ({ p with functions := p.functions.filter fun f => !names.contains f.1 }.ending 0, .next)
  | arguments =>
    let names := if arguments.head? = some "-v" then arguments.tail else arguments
    match names.find? fun name => !isName name.toList, names.find? p.isLocked with
    | some name, _ => p.fatal (name ++ ": bad variable name")
    | none, some name => p.fatal (name ++ ": is read only")
    | none, none => ((names.foldl Process.unset p).ending 0, .next)

/-- Drops parameters. -/
def shift : OwnCommand := fun _ p arguments =>
  match numeral? (arguments.headD "1") with
  | none => p.fatal ("Illegal number: " ++ arguments.headD "1")
  | some n =>
    if p.parameters.length < n then p.fatal "can't shift that many"
    else ({ p with parameters := p.parameters.drop n }.ending 0, .next)

/-- The letters of options by their long names. -/
def optionNames : List (String × Char) :=
  [("errexit", 'e'), ("noglob", 'f'), ("ignoreeof", 'I'), ("interactive", 'i'), ("monitor", 'm'),
    ("noexec", 'n'), ("stdin", 's'), ("xtrace", 'x'), ("verbose", 'v'), ("vi", 'V'),
    ("emacs", 'E'), ("noclobber", 'C'), ("allexport", 'a'), ("notify", 'b'), ("nounset", 'u'),
    ("privileged", 'p')]

/-- The letters of options in the order in which a shell tells them. -/
def optionLetters : List Char :=
  ['p', 'u', 'b', 'a', 'C', 'E', 'V', 'v', 'x', 's', 'n', 'm', 'i', 'I', 'f', 'e']

/-- The options with one of them set or not. -/
def withOption (options : List Char) (letter : Char) (on : Bool) : List Char :=
  optionLetters.filter fun c => if c == letter then on else options.contains c

/-- The options after arguments that set them, and the arguments that are left; none of these if
they end at a last option.  A bad option is told. -/
def takeOptions (options : List Char) :
    List String → Except String (List Char × Option (List String))
  | [] => .ok (options, none)
  | "--" :: rest => .ok (options, some rest)
  | "-" :: rest => .ok (options, if rest.isEmpty then none else some rest)
  | a :: rest =>
    match a.toList with
    | '-' :: ['o'] | '+' :: ['o'] =>
      match rest with
      | name :: rest =>
        match KeyMap.find? name optionNames with
        | some letter => takeOptions (withOption options letter (a.startsWith "-")) rest
        | none => .error ("Illegal option " ++ a ++ " " ++ name)
      | [] => .ok (options, none)
    | sign :: letters =>
      if sign == '-' || sign == '+' then
        match letters.find? fun c => !optionLetters.contains c with
        | some c => .error ("Illegal option " ++ String.ofList [sign, c])
        | none =>
          takeOptions (letters.foldl (fun o c => withOption o c (sign == '-')) options) rest
      else .ok (options, some (a :: rest))
    | [] => .ok (options, some (a :: rest))

/-- The options, each on a line: with words, or as commands that set them. -/
def optionListing (options : List Char) (asCommands : Bool) : String :=
  let states := (optionNames.map fun o => (o.1, options.contains o.2)) ++
    [("nolog", false), ("debug", false)]
  if asCommands then
    String.join (states.map fun s => "set " ++ (if s.2 then "-o " else "+o ") ++ s.1 ++ "\n")
  else
    "Current option settings\n" ++ String.join (states.map fun s =>
      let gap := String.ofList (List.replicate (16 - s.1.length) ' ')
      s.1 ++ gap ++ (if s.2 then "on" else "off") ++ "\n")

/-- Sets options and parameters. -/
def setAll : OwnCommand := fun _ p arguments =>
  match arguments with
  | [] => ((p.write 1 (listing "" (p.vars.filter fun v => v.2.value.isSome))).ending 0, .next)
  | ["-o"] => ((p.write 1 (optionListing p.options false)).ending 0, .next)
  | ["+o"] => ((p.write 1 (optionListing p.options true)).ending 0, .next)
  | arguments =>
    match takeOptions p.options arguments with
    | .error e => p.fatal e
    | .ok (options, none) => ({ p with options }.ending 0, .next)
    | .ok (options, some parameters) => ({ p with options, parameters }.ending 0, .next)

/-- The signals by name, one a line, or the name of one that ended a program. -/
def tellSignals (p : Process) (arguments : List String) : Process :=
  match arguments with
  | [] =>
    let names := (List.range signalCount).map fun n => signalName (n + 1) ++ "\n"
    (p.write 1 ("0\n" ++ String.join names)).ending 0
  | text :: _ =>
    match numeral? text with
    | none => p.mistake ("Illegal number: " ++ text)
    | some n =>
      let n := if 128 < n then n - 128 else n
      if 0 < n && n ≤ signalCount then (p.write 1 (signalName n ++ "\n")).ending 0
      else p.mistake ("invalid signal number or exit status: " ++ text)

/-- The shell after it sent itself a signal. -/
def receive (r : Runner) (p : Process) (n : Nat) : Step :=
  match KeyMap.find? (signalName n) p.traps with
  | some action =>
    if n = 9 then (p, .ended (.signal n))
    else
      match r.text false (p.ending 0) action.toList with
      | (q, .next) => (q.ending 0, .next)
      | step => step
  | none => if harmlessSignals.contains n then (p.ending 0, .next) else (p, .ended (.signal n))

/-- Sends a signal to processes, of which the shell knows only itself. -/
def sendTo (r : Runner) (n : Nat) (p : Process) : List String → Step
  | [] => (p, .next)
  | target :: rest =>
    match numeral? (String.ofList (target.toList.dropWhile (· == '-'))) with
    | none =>
      (p.mistake ("Illegal number: " ++ String.ofList (target.toList.dropWhile (· == '-'))), .next)
    | some _ =>
      if target == ownNumber then
        match r.receive p n with
        | (p, .next) => sendTo r n p rest
        | step => step
      else sendTo r n ((p.complain "No such process\n").ending 1) rest

/-- Sends a signal. -/
def send : OwnCommand := fun r p arguments =>
  let usage : Step :=
    (p.mistake ("Usage: kill [-s sigspec | -signum | -sigspec] [pid | job]... or\n" ++
      "kill -l [exitstatus]"), .next)
  let toTargets (n : Nat) (targets : List String) : Step :=
    if targets.isEmpty then usage else r.sendTo n (p.ending 0) targets
  match arguments with
  | [] => usage
  | "--" :: targets => toTargets 15 targets
  | first :: rest =>
    match first.toList with
    | '-' :: letters =>
      match signalOf? (String.ofList letters), letters with
      | some n, _ => toTargets n rest
      | none, ['l'] => (tellSignals p rest, .next)
      | none, ['s'] =>
        match rest with
        | [] => (p.mistake "No arg for -s option", .next)
        | name :: targets =>
          match signalOf? name with
          | some n => toTargets n targets
          | none => (p.mistake ("invalid signal number or name: " ++ name), .next)
      | none, letters =>
        (p.mistake ("Illegal option -" ++ String.ofList (letters.take 1)), .next)
    | _ => toTargets 15 arguments

/-- The path that a change of directory leads to, as it is told afterwards. -/
def directoryAfter (p : Process) (target : String) : String :=
  let joined := Path.join ⟨p.directory⟩ target
  let names := joined.components.foldl (fun names step =>
    match step with
    | .name n => names ++ [n]
    | .up => names.dropLast
    | .here | .root => names) []
  (Location.path names).text

/-- Options of a command that knows the letters of `known`, and its other arguments. -/
def takeLetters (known : List Char) : List String → List Char × List String
  | [] => ([], [])
  | "--" :: rest => ([], rest)
  | a :: rest =>
    match a.toList with
    | '-' :: c :: more =>
      if (c :: more).all known.contains then
        let (letters, rest) := takeLetters known rest
        (c :: more ++ letters, rest)
      else ([], a :: rest)
    | _ => ([], a :: rest)

/-- Tells the working directory, as it was gone to or without links. -/
def tellDirectory (p : Process) (arguments : List String) : Process :=
  let physical := (takeLetters ['L', 'P'] arguments).1.getLast? = some 'P'
  let path := if physical then (Location.path p.tree.workingDirectory).text else p.directory
  (p.write 1 (path ++ "\n")).ending 0

/-- The directory that a target names in a list of directories to look in, if it does not say
itself where it is, and whether it is to be told. -/
def lookedFor (p : Process) (target : String) : Option String :=
  let start := target.toList.takeWhile (· != '/')
  if start.isEmpty || start == ['.'] || start == ['.', '.'] then none
  else
    (p.binding? "CDPATH").bind fun directories =>
      let places := (Text.splitOn ':' directories.toList).map fun d =>
        (d.isEmpty, (Path.join ⟨String.ofList d⟩ target).text)
      match places.find? fun place => p.tree.isDirectory ⟨place.2⟩ with
      | some (false, path) => some path
      | _ => none

/-- The shell in another directory, which is told if `tells` is set. -/
def goTo (p : Process) (physical tells : Bool) (path target : String) : Process :=
  match p.tree.locate ⟨path⟩ with
  | .ok place =>
    if p.tree.node? place = some .directory then
      let path := if physical then (Location.path place).text else path
      let p := (p.set "OLDPWD" p.directory).exportName "OLDPWD"
      let p := { p with
        tree := { p.tree with workingDirectory := place }, directory := path }
      let p := (p.set "PWD" path).exportName "PWD"
      (if tells then p.write 1 (path ++ "\n") else p).ending 0
    else p.mistake ("can't cd to " ++ target)
  | .error _ => p.mistake ("can't cd to " ++ target)

/-- Goes to another directory. -/
def changeDirectory (p : Process) (arguments : List String) : Process :=
  let (letters, arguments) := takeLetters ['L', 'P'] arguments
  let physical := letters.getLast? = some 'P'
  match arguments with
  | [] =>
    let home := (p.binding? "HOME").getD ""
    goTo p physical false (if home == "" then p.directory else directoryAfter p home) home
  | "-" :: _ =>
    let before := (p.binding? "OLDPWD").getD ""
    goTo p physical true (if before == "" then p.directory else directoryAfter p before) before
  | "" :: _ => goTo p physical false p.directory ""
  | target :: _ =>
    match lookedFor p target with
    | some path => goTo p physical true (directoryAfter p path) target
    | none => goTo p physical false (directoryAfter p target) target

/-- Waits for scripts in the background, which have ended already. -/
def await (p : Process) (arguments : List String) : Process :=
  arguments.foldl (fun p number =>
    match numeral? number with
    | none => p.mistake ("Illegal number: " ++ number)
    | some _ => p.ending ((KeyMap.find? number p.jobs).getD 127)) (p.ending 0)

/-- Looks for programs, to find them faster later. -/
def remember (p : Process) (arguments : List String) : Process :=
  (arguments.filter fun a => a != "-r").foldl (fun p name =>
    if (programOf? p name).isSome then p else (p.complain (name ++ ": not found")).ending 1)
    (p.ending 0)

/-- Runs its arguments as a script. -/
def evaluate (r : Runner) (p : Process) (tested : Bool) (arguments : List String) : Step :=
  let (q, flow) :=
    r.text tested { p with within := some "eval" } (" ".intercalate arguments).toList
  ({ q with within := p.within }, flow)

/-- Runs the script in a file. -/
def runFile (r : Runner) (p : Process) (tested : Bool) (arguments : List String) : Step :=
  match arguments with
  | [] => (p.ending 0, .next)
  | name :: _ =>
    let path? :=
      if (Path.mk name).hasSlash then some ⟨name⟩ else (places p name).find? p.tree.isFile
    let own : Process := { p with within := some "." }
    match path? with
    | none => own.fatal (name ++ ": not found")
    | some (path : Path) =>
      match p.tree.read path with
      | .error e =>
        own.fatal ("cannot open " ++ path.text ++ ": " ++ Process.openReason "No such file" e)
      | .ok bytes =>
        let (q, flow) :=
          r.text tested { p with within := some path.text } (Utf8.lossyText bytes)
        ({ q with within := p.within }, if flow = .outOfFunction then .next else flow)

/-- The name of a condition that something is to be done on: the end of the shell or a signal. -/
def trapName? (text : String) : Option String :=
  match signalOf? text with
  | some 0 => some "EXIT"
  | some n => some (signalName n)
  | none => if text.toUpper == "EXIT" then some "EXIT" else none

/-- Traps in the order in which a shell tells them. -/
def sortedTraps (traps : List (String × String)) : List (String × String) :=
  (List.range (signalCount + 1)).flatMap fun n =>
    traps.filter fun t => t.1 == if n = 0 then "EXIT" else signalName n

/-- Sets what is to be done on conditions, one after the other; `none` leaves nothing to do. -/
def setTraps (action : Option String) (p : Process) : List String → Process
  | [] => p.ending 0
  | text :: rest =>
    match trapName? text with
    | none => (p.write 2 ("trap: " ++ text ++ ": bad trap\n")).ending 1
    | some name =>
      let others := p.traps.filter fun t => t.1 != name
      setTraps action
        { p with traps := sortedTraps (others ++ (action.map fun a => (name, a)).toList) } rest

/-- Sets what is to be done at the end or on signals. -/
def trap : OwnCommand := fun _ p arguments =>
  let arguments := if arguments.head? = some "--" then arguments.tail else arguments
  match arguments with
  | [] =>
    let listed := p.traps.map fun t => "trap -- " ++ singleQuoted t.2 ++ " " ++ t.1 ++ "\n"
    ((p.write 1 (String.join listed)).ending 0, .next)
  | [name] => (setTraps none p [name], .next)
  | action :: names =>
    let resets := action == "-" || (numeral? action).isSome
    (setTraps (if resets then none else some action) p
      (if (numeral? action).isSome then action :: names else names), .next)

/-- The first line of a text in which a backslash joins lines, and what follows it; whether there
was a line break, and with each character whether it was quoted. -/
def takeLine (raw : Bool) : List Char → List (Char × Bool) × List Char × Bool
  | [] => ([], [], false)
  | '\n' :: rest => ([], rest, true)
  | '\\' :: c :: rest =>
    if raw then
      if c == '\n' then ([('\\', false)], rest, true)
      else
        let (line, rest, whole) := takeLine raw (c :: rest)
        (('\\', false) :: line, rest, whole)
    else
      let (line, rest, whole) := takeLine raw rest
      (if c == '\n' then line else (c, true) :: line, rest, whole)
  | c :: rest =>
    let (line, rest, whole) := takeLine raw rest
    ((c, false) :: line, rest, whole)

/-- Whether a character of a line ends a field. -/
def endsField (separators : List Char) (c : Char × Bool) : Bool :=
  !c.2 && separators.contains c.1

/-- Whether a character of a line is a blank between fields. -/
def isGap (separators : List Char) (c : Char × Bool) : Bool :=
  endsField separators c && Atom.isBlank c.1

/-- Where the last of several variables ends in its part of a line, if not at the end.  `position`
is where the characters stand, and `cut` where the variable ends if they do not belong to it:
blanks, or a single separator, which may have blanks around it. -/
def lastCut (separators : List Char) :
    (position : Nat) → (cut : Option Nat) → (afterBlank : Bool) → List (Char × Bool) → Option Nat
  | _, cut, _, [] => cut
  | n, cut, afterBlank, c :: rest =>
    if c.2 then lastCut separators (n + 1) cut false rest
    else if isGap separators c then lastCut separators (n + 1) (cut.or (some n)) afterBlank rest
    else if endsField separators c && afterBlank then lastCut separators (n + 1) cut false rest
    else lastCut separators (n + 1) none false rest

/-- The values that variables get from a line: a field each, and the last one what is left. -/
def readFields (separators : List Char) : List String → List (Char × Bool) → List (String × String)
  | [], _ => []
  | name :: names, line =>
    let line := line.dropWhile (isGap separators)
    let field := line.takeWhile fun c => !endsField separators c
    let valueOf (l : List (Char × Bool)) : String := String.ofList (l.map Prod.fst)
    match names, line.drop field.length with
    | [], [] => [(name, valueOf field)]
    | [], c :: rest =>
      let cut := lastCut separators (field.length + 1) (some field.length) (Atom.isBlank c.1) rest
      [(name, valueOf ((cut.map line.take).getD line))]
    | names, rest =>
      let rest := rest.dropWhile (isGap separators)
      let rest :=
        match rest with
        | c :: more =>
          if endsField separators c then more.dropWhile (isGap separators) else rest
        | [] => []
      (name, valueOf field) :: readFields separators names rest

/-- The options of a command that reads a line, and its other arguments: whether a backslash is a
character like any other. -/
def readOptions : List String → Bool × List String
  | "-r" :: rest => (true, (readOptions rest).2)
  | "-p" :: _ :: rest => readOptions rest
  | "--" :: rest => (false, rest)
  | rest => (false, rest)

/-- Sets variables one after the other, up to a mistake. -/
def setEach (p : Process) : List (String × String) → Process
  | [] => p
  | (name, value) :: rest =>
    if p.isLocked name then p.mistake (name ++ ": is read only")
    else setEach (p.set name value) rest

/-- Reads a line into variables. -/
def readInto (p : Process) (arguments : List String) : Process :=
  let (raw, names) := readOptions arguments
  match names, names.find? fun name => !isName name.toList with
  | [], _ => p.mistake "arg count"
  | _, some name => p.mistake (name ++ ": bad variable name")
  | names, none =>
    let (line, rest, whole) := takeLine raw (p.pending 0).toList
    let p := p.setPending 0 (String.ofList rest)
    setEach (p.ending (if whole then 0 else 1)) (readFields p.separators names line)

/-- Reads the next option out of the parameters. -/
def nextOption : OwnCommand := fun _ p arguments =>
  match arguments with
  | letters :: name :: given =>
    let parameters := if given.isEmpty then p.parameters else given
    let silent := letters.startsWith ":"
    let index := (((p.binding? "OPTIND").bind numeral?).getD 1)
    let offset := p.optionOffset
    let argument := (parameters[index - 1]?).getD ""
    let done (p : Process) : Step := ((p.set name "?").ending 1, .next)
    if offset = 1 && (!argument.startsWith "-" || argument == "-") then
      done (p.set "OPTIND" (toString index))
    else if offset = 1 && argument == "--" then done (p.set "OPTIND" (toString (index + 1)))
    else
      match argument.toList.drop offset with
      | [] => done p
      | c :: rest =>
        let known := (letters.toList.dropWhile (· != c))
        let takesValue := known.tail.head? = some ':'
        let (index', offset') := if rest.isEmpty then (index + 1, 1) else (index, offset + 1)
        let go (p : Process) (index offset : Nat) : Process :=
          { p.set "OPTIND" (toString index) with optionOffset := offset }
        if known.isEmpty || c == ':' then
          let p := go p index' offset'
          if silent then
            (((p.set "OPTARG" (String.singleton c)).set name "?").ending 0, .next)
          else
            (((p.write 2 ("Illegal option -" ++ String.singleton c ++ "\n")).unset "OPTARG"
              |>.set name "?").ending 0, .next)
        else if takesValue then
          match rest, parameters[index]? with
          | [], some value =>
            ((((go p (index + 2) 1).set "OPTARG" value).set name (String.singleton c)).ending 0,
              .next)
          | [], none =>
            let p := go p (index + 1) 1
            if silent then
              (((p.set "OPTARG" (String.singleton c)).set name ":").ending 0, .next)
            else
              (((p.write 2 ("No arg for -" ++ String.singleton c ++ " option\n")).unset "OPTARG"
                |>.set name "?").ending 0, .next)
          | rest, _ =>
            ((((go p (index + 1) 1).set "OPTARG" (String.ofList rest)).set name
              (String.singleton c)).ending 0, .next)
        else (((go p index' offset').set name (String.singleton c)).ending 0, .next)
  | _ => (p.mistake "Usage: getopts optstring var [arg...]", .next)

end Runner

end LayeredEnv.Shell
