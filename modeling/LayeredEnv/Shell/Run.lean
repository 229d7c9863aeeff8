import LayeredEnv.Shell.Builtin

/-!
# Running scripts

A script runs command by command.  `Runner.script` runs one script, given a runner for the scripts
inside it; `runnerTo` closes the circle down to a depth that no honest script reaches.  Programs are
started by a `Launcher`; nothing here depends on which launcher it is.

This is part of `Shell.launch`, the launcher of the runnable program, and of nothing else: what is
stated of requests, commands and actions holds for every launcher.
-/

namespace LayeredEnv.Shell

namespace Runner

/-! ### The commands by name -/

/-- The commands of the shell's own that only look at their arguments. -/
def plainCommands : List (String × OwnCommand) :=
  [("true", saying fun p _ => p.ending 0), ("false", saying fun p _ => p.ending 1),
    ("echo", saying fun p a => (p.write 1 (Format.say true a)).ending 0),
    ("printf", saying format), ("test", saying condition), ("[", saying bracket),
    ("pwd", saying tellDirectory),
    ("kill", send), ("cd", saying changeDirectory),
    ("chdir", saying changeDirectory), ("read", saying readInto),
    ("getopts", nextOption), ("wait", saying await),
    ("umask", saying fun p a => (if a.isEmpty then p.write 1 "0022\n" else p).ending 0),
    ("hash", saying remember), ("jobs", saying fun p _ => p.ending 0),
    ("alias", saying fun p _ => p.ending 0), ("unalias", saying fun p _ => p.ending 0),
    ("ulimit", saying fun p _ => p.ending 0)]

/-- The commands of the shell's own whose mistakes end it. -/
def specials : List (String × OwnCommand) :=
  [(":", saying fun p _ => p.ending 0), ("exit", leave), ("return", leaveFunction),
    ("break", leaveLoops false), ("continue", leaveLoops true),
    ("export", exportAll), ("readonly", lockAll), ("unset", unsetAll), ("shift", shift),
    ("set", setAll), ("trap", trap), ("local", localise),
    ("times", saying fun p _ =>
      let none := "0m0.000000s 0m0.000000s\n"
      (p.write 1 (none ++ none)).ending 0)]

/-- Whether a name is that of a command whose mistakes end the shell. -/
def isSpecialCommand (name : String) : Bool :=
  name == "exec" || name == "eval" || name == "." || (KeyMap.find? name specials).isSome

/-- Whether a name is that of another command of the shell's own. -/
def isPlainCommand (name : String) : Bool :=
  name == "command" || name == "type" || (KeyMap.find? name plainCommands).isSome

/-- What a name stands for, in the words of the shell. -/
def meaning (p : Process) (name : String) : Option String :=
  if keywords.contains name then some (name ++ " is a shell keyword")
  else if (KeyMap.find? name p.functions).isSome then some (name ++ " is a shell function")
  else if isSpecialCommand name then some (name ++ " is a special shell builtin")
  else if isPlainCommand name then some (name ++ " is a shell builtin")
  else (programOf? p name).map fun path => name ++ " is " ++ path.text

/-- Tells what a name stands for. -/
def tellMeaning (p : Process) (name : String) : Process :=
  match meaning p name with
  | some text => p.write 1 (text ++ "\n")
  | none => (p.write 1 (name ++ ": not found\n")).ending 127

/-- Tells how a name is run. -/
def tellPlace (p : Process) (name : String) : Process :=
  let own := keywords.contains name || (KeyMap.find? name p.functions).isSome ||
    isSpecialCommand name || isPlainCommand name
  match if own then some name else (programOf? p name).map Path.text with
  | some text => (p.write 1 (text ++ "\n")).ending 0
  | none => p.ending 127

/-! ### Simple commands -/

/-- Sets the variables of a command, for good or for its time only. -/
def applySettings (r : Runner) (exported : Bool) (p : Process) :
    List (String × Word) → Except Step Process
  | [] => .ok p
  | (name, value) :: rest =>
    match p.expanding (Expanding.settingText r.capture value) with
    | .error step => .error step
    | .ok (text, p) =>
      match setIn p name text with
      | .error step => .error step
      | .ok p => r.applySettings exported (if exported then p.exportName name else p) rest

/-- The fields of the words of a command; those of a declaration are settings. -/
def commandFields (r : Runner) (words : List Word) : Expanding (List String) := do
  match words with
  | [] => return []
  | first :: rest =>
    let head ← Expanding.fields r.capture first
    let declares :=
      head = ["export"] || head = ["readonly"] || head = ["local"]
    let more ← rest.mapM fun w =>
      match declares, settingOf? w with
      | true, some (name, value) => do
        return [name ++ "=" ++ (← Expanding.settingText r.capture value)]
      | _, _ => Expanding.fields r.capture w
    return head ++ more.flatten

/-- How many calls of functions may be inside one another. -/
def callLimit : Nat := 1000

/-- Calls a function. -/
def call (r : Runner) (p : Process) (tested : Bool) (body : Script) (arguments : List String) :
    Step :=
  if callLimit ≤ p.scopes.length then
    p.fatal ("Maximum function recursion depth (" ++ toString callLimit ++ ") reached")
  else
    let inside : Process := { p with parameters := arguments, scopes := [] :: p.scopes, loops := 0 }
    let (q, flow) := r.run inside tested body
    let q := q.restore (q.scopes.headD [])
    let q := { q with parameters := p.parameters, scopes := p.scopes, loops := p.loops }
    match flow with
    | .ended exit => (q, .ended exit)
    | _ => (q, .next)

/-- Runs a program in place of the shell. -/
def replace (r : Runner) (p : Process) (arguments : List String) : Step :=
  match arguments with
  | [] => (p.ending 0, .next)
  | name :: arguments =>
    let (q, exit) := r.replacement p name arguments
    (q, .ended exit)

/-- Runs a command by its name, functions aside. -/
def ownOrProgram (r : Runner) (p : Process) (tested : Bool) (name : String)
    (arguments : List String) : Step :=
  if name == "exec" then r.replace p arguments
  else if name == "eval" then r.evaluate p tested arguments
  else if name == "." then r.runFile p tested arguments
  else
    match (KeyMap.find? name specials).or (KeyMap.find? name plainCommands) with
    | some own =>
      let (q, flow) := own r { p with within := some name } arguments
      ({ q with within := p.within }, flow)
    | none => ((r.program p name arguments).1, .next)

/-- Runs a command that is told not to be a function. -/
def plainly (r : Runner) (p : Process) (tested : Bool) (arguments : List String) : Step :=
  match arguments with
  | [] => (p.ending 0, .next)
  | "-v" :: name :: _ => (tellPlace p name, .next)
  | "-V" :: name :: _ => (tellMeaning (p.ending 0) name, .next)
  | "-p" :: name :: arguments | "--" :: name :: arguments | name :: arguments =>
    match r.ownOrProgram p tested name arguments with
    | (q, .ended (.code 2)) =>
      if name == "exit" || name == "exec" then (q, .ended (.code 2)) else (q.ending 2, .next)
    | step => step

/-- Runs a command whose streams and variables are set up. -/
def dispatch (r : Runner) (p : Process) (tested : Bool) (name : String) (arguments : List String) :
    Step :=
  match KeyMap.find? name p.functions with
  | some body => r.call p tested body arguments
  | none =>
    if name == "command" then r.plainly p tested arguments
    else if name == "type" then (arguments.foldl tellMeaning (p.ending 0), .next)
    else r.ownOrProgram p tested name arguments

/-- What a shell that traces its commands says about one. -/
def traced (p : Process) (settings fields : List String) : Process :=
  if p.options.contains 'x' then
    p.write 2 ((p.binding? "PS4").getD "" ++ " ".intercalate (settings ++ fields) ++ "\n")
  else p

/-- Runs a command whose streams are set up. -/
def withSettings (r : Runner) (p : Process) (tested : Bool) (settings : List (String × Word))
    (fields : List String) : Step :=
  let told (q : Process) : Process :=
    traced q (settings.map fun s => s.1 ++ "=" ++ (q.binding? s.1).getD "") fields
  match fields with
  | [] =>
    match r.applySettings false p settings with
    | .error step => step
    | .ok p => ((told p).ending p.outputStatus, .next)
  | name :: arguments =>
    if isSpecialCommand name && (KeyMap.find? name p.functions).isNone then
      match r.applySettings (name == "exec") p settings with
      | .error step => step
      | .ok p => r.dispatch (told p) tested name arguments
    else
      let before := settings.map fun s => (s.1, p.lookUp? s.1)
      match r.applySettings true p settings with
      | .error step => step
      | .ok p =>
        let (p, flow) := r.dispatch (told p) tested name arguments
        (p.restore before, flow)

/-- Runs a simple command. -/
def simple (r : Runner) (p : Process) (tested : Bool) (line : Nat)
    (settings : List (String × Word)) (words : List Word) (redirections : List Redirection) :
    Step :=
  match { p with line, outputStatus := 0 }.expanding (r.commandFields words) with
  | .error step => step
  | .ok (fields, p) =>
    match r.redirect p redirections with
    | .error (.fatal step) => step
    | .error (.refused q reason) =>
      let q := { q with streams := p.streams }.mistake reason
      if fields.head?.any isSpecialCommand then (q, .ended (.code mistaken)) else (q, .next)
    | .ok q =>
      let (q, flow) := r.withSettings q tested settings fields
      (if fields = ["exec"] then q else { q with streams := p.streams }, flow)

/-! ### Compound commands -/

/-- Ends the shell if it ends on failures and one was not looked at. -/
def checked (tested : Bool) : Step → Step
  | (p, .next) =>
    if p.options.contains 'e' && !tested && p.status ≠ 0 then (p, .ended (exitCode p.status))
    else (p, .next)
  | step => step

/-- Runs scripts one after the other. -/
def inTurn (r : Runner) (p : Process) (tested : Bool) : List Script → Step
  | [] => (p, .next)
  | [last] => r.run p tested last
  | first :: rest =>
    match r.run p tested first with
    | (p, .next) => r.inTurn p tested rest
    | step => step

/-- Runs the stages of a pipeline, each of which reads what the one before it wrote. -/
def stages (r : Runner) (p : Process) (input : Option Nat) : List Script → Step
  | [] => (p, .next)
  | [last] =>
    let inside := match input with | some n => p.lead 0 n | none => p
    r.apart p inside false last
  | first :: rest =>
    let inside := match input with | some n => p.lead 0 n | none => p
    let (inside, channel) := inside.addChannel (.memory "")
    match r.apart p (inside.lead 1 channel) false first with
    | (p, .next) => r.stages p (some channel) rest
    | step => step

/-- What a loop does after its body went on in some way: it goes on, or is left in some way. -/
def afterBody (flow : Flow) : Option Flow :=
  match flow with
  | .next => none
  | .outOfLoops 1 true => none
  | .outOfLoops 1 false => some .next
  | .outOfLoops n again => some (.outOfLoops (n - 1) again)
  | flow => some flow

/-- How many times a loop may go round. -/
def roundLimit : Nat := 100000000

/-- Repeats a body, at most some number of times; `status` is that of the last round. -/
def repeated (r : Runner) (tested succeeds : Bool) (condition body : Script) :
    (rounds status : Nat) → Process → Step
  | 0, status, p => (p.ending status, .next)
  | rounds + 1, status, p =>
    match r.run p true condition with
    | (p, .next) =>
      if (p.status = 0) = succeeds then
        match r.run p tested body with
        | (p, flow) =>
          match afterBody flow with
          | none => r.repeated tested succeeds condition body rounds p.status p
          | some flow => (p, flow)
      else (p.ending status, .next)
    | (p, flow) =>
      match afterBody flow with
      | none => r.repeated tested succeeds condition body rounds p.status p
      | some flow => (p, flow)

/-- Repeats a body for every field. -/
def forEach (r : Runner) (tested : Bool) (name : String) (body : Script) (p : Process) :
    List String → Step
  | [] => (p, .next)
  | field :: rest =>
    match setIn p name field with
    | .error step => step
    | .ok p =>
      let (p, flow) := r.run p tested body
      match afterBody flow with
      | none => r.forEach tested name body p rest
      | some flow => (p, flow)

/-- Whether one of some patterns matches a text. -/
def anyAccepts (r : Runner) (subject : List Char) : List Word → Expanding Bool
  | [] => return false
  | pattern :: rest => do
    if (← Expanding.pattern r.capture pattern).acceptsText subject then return true
    else r.anyAccepts subject rest

/-- Runs the first case of which a pattern matches. -/
def choose (r : Runner) (p : Process) (tested : Bool) (subject : List Char) :
    List (List Word × Script) → Step
  | [] => (p.ending 0, .next)
  | (patterns, body) :: rest =>
    match p.expanding (r.anyAccepts subject patterns) with
    | .error step => step
    | .ok (true, p) =>
      match body with
      | .list [] => (p.ending 0, .next)
      | body => r.run p tested body
    | .ok (false, p) => r.choose p tested subject rest

/-- Runs something inside a loop. -/
def inLoop (p : Process) (f : Process → Step) : Step :=
  let (q, flow) := f { p with loops := p.loops + 1 }
  ({ q with loops := p.loops }, flow)

/-! ### Scripts -/

/-- Runs a script, given a runner for the scripts inside it. -/
def script (r : Runner) (p : Process) (tested : Bool) (s : Script) : Step :=
  if p.options.contains 'n' then (p, .next) else
  match s with
  | .simple line settings words redirections =>
    checked tested (r.simple p tested line settings words redirections)
  | .list items => r.inTurn p tested items
  | .both first second =>
    match r.run p true first with
    | (p, .next) => if p.status = 0 then r.run p tested second else (p, .next)
    | step => step
  | .either first second =>
    match r.run p true first with
    | (p, .next) => if p.status = 0 then (p, .next) else r.run p tested second
    | step => step
  | .negation s =>
    match r.run p true s with
    | (p, .next) => (p.ending (if p.status = 0 then 1 else 0), .next)
    | step => step
  | .pipeline items => checked tested (r.stages p none items)
  | .background s =>
    let (inside, channel) := p.addChannel .nowhere
    match r.apart p (inside.lead 0 channel) false s with
    | (p, .next) =>
      let number := toString (firstJobNumber + p.jobs.length)
      ({ p with jobs := (number, p.status) :: p.jobs }.ending 0, .next)
    | step => step
  | .subshell line s redirections =>
    checked tested <| r.withRedirections p line redirections fun q =>
      let (q', flow) := r.apart q q tested s
      (q', flow)
  | .redirected line s redirections =>
    r.withRedirections p line redirections fun q => r.run q tested s
  | .branch condition yes no =>
    match r.run p true condition with
    | (p, .next) =>
      if p.status = 0 then r.run p tested yes
      else
        match no with
        | some no => r.run p tested no
        | none => (p.ending 0, .next)
    | step => step
  | .loop succeeds condition body =>
    inLoop p (r.repeated tested succeeds condition body roundLimit 0)
  | .each line name words body =>
    let p := { p with line }
    match p.expanding (words.mapM (Expanding.fields r.capture)) with
    | .error step => step
    | .ok (fields, p) =>
      match fields.flatten with
      | [] => (p.ending 0, .next)
      | fields => inLoop p fun p => r.forEach tested name body p fields
  | .choice line subject cases =>
    let p := { p with line }
    match p.expanding (Expanding.text r.capture subject) with
    | .error step => step
    | .ok (text, p) => r.choose p tested text.toList cases
  | .definition name body =>
    ({ p with functions := (name, body) :: p.functions.filter fun f => f.1 != name }.ending 0,
      .next)

end Runner

/-- Runs scripts that hold scripts down to a depth. -/
def runnerTo (launch : Launcher) : (depth : Nat) → Runner
  | 0 => ⟨fun p _ _ => p.fatal "Too many nested scripts", launch⟩
  | depth + 1 => ⟨fun p tested s => (runnerTo launch depth).script p tested s, launch⟩

/-- How deep scripts may hold scripts. -/
def scriptDepth : Nat := 20000

/-- Runs scripts. -/
def runner (launch : Launcher) : Runner :=
  runnerTo launch scriptDepth

/-- Runs a text in a shell to its end. -/
def Process.runText (launch : Launcher) (p : Process) (text : List Char) : Process × Exit :=
  let r := runner launch
  let (p, flow) := r.text false p text
  r.finish p flow

end LayeredEnv.Shell
