import LayeredEnv.Layer
import LayeredEnv.Text.Lines

/-!
# Arguments of the command line

The arguments are flags and one of four actions: to print the environment, to list its files, to
check it, or to run a command in it.  Most flags may stand before and after the name of the action;
one given in both places counts as it was given after the name.  Everything from the first argument
of `run` that is no flag belongs to the command.
-/

namespace LayeredEnv.CommandLine

/-- How an environment is printed. -/
inductive Format
  | plain
  | json
  deriving DecidableEq, Repr

/-- What is asked for. -/
inductive Action
  | print (format : Format) (sources : Bool)
  | files
  | check
  | run (command : String) (arguments : List String)
  deriving DecidableEq, Repr

/-- The flags that every action has. -/
structure Flags where
  directory : Path := ⟨"."⟩
  projectFile : Option Path := none
  mode : Option String := none
  localSide : Option Side := none
  nameSide : Option Side := none
  noEnvironment : Bool := false
  required : List String := []
  deriving DecidableEq, Repr

/-- What the arguments say. -/
structure Arguments where
  flags : Flags
  action : Action
  deriving DecidableEq, Repr

/-- Why arguments do not lead to an action. -/
inductive Refusal
  | usage
  | help
  | version
  deriving DecidableEq, Repr

/-! ### Flags -/

/-- A flag. -/
inductive Flag
  | directory
  | projectFile
  | mode
  | localSide
  | nameSide
  | noEnvironment
  | require
  | format
  | sources
  | help
  | version
  deriving DecidableEq, Repr

namespace Flag

/-- The name of a flag, which follows two hyphens. -/
def word : Flag → String
  | directory => "dir"
  | projectFile => "config"
  | mode => "mode"
  | localSide => "local-naming"
  | nameSide => "mode-naming"
  | noEnvironment => "no-env"
  | require => "require"
  | format => "format"
  | sources => "sources"
  | help => "help"
  | version => "version"

/-- The letter of a flag, which follows one hyphen. -/
def letter? : Flag → Option Char
  | help => some 'h'
  | version => some 'V'
  | _ => none

/-- Whether a flag has a value. -/
def takesValue : Flag → Bool
  | noEnvironment | sources | help | version => false
  | _ => true

/-- The flags of every action. -/
def shared : List Flag :=
  [directory, projectFile, mode, localSide, nameSide, noEnvironment, require, help]

end Flag

/-- The side of a word. -/
def sideOf? : String → Option Side
  | "prefix" => some .before
  | "suffix" => some .after
  | _ => none

/-- The format of a word. -/
def formatOf? : String → Option Format
  | "env" => some .plain
  | "json" => some .json
  | _ => none

/-- Whether a text may be the value of a flag. -/
def Flag.accepts (value : String) : Flag → Bool
  | directory | projectFile => value != ""
  | localSide | nameSide => (sideOf? value).isSome
  | format => (formatOf? value).isSome
  | _ => true

/-- Flags with their values, as given. -/
abbrev Given := List (Flag × String)

namespace Given

/-- The value of a flag. -/
def value? (g : Given) (flag : Flag) : Option String :=
  (g.find? fun p => p.1 = flag).map Prod.snd

/-- Whether a flag is given. -/
def has (g : Given) (flag : Flag) : Bool :=
  g.any fun p => p.1 = flag

/-- The values of a flag that may be repeated. -/
def values (g : Given) (flag : Flag) : List String :=
  (g.filter fun p => p.1 = flag).map Prod.snd

/-- One more flag; a text that is no value of it and a second value are refused. -/
def add (g : Given) (flag : Flag) (value : String) : Except Refusal Given :=
  match flag with
  | .help => .error .help
  | .version => .error .version
  | flag =>
    if !flag.accepts value || (flag ≠ .require && g.has flag) then .error .usage
    else .ok (g ++ [(flag, value)])

end Given

/-! ### Tokens -/

/-- An argument by its form. -/
inductive Token
  /-- `--`, after which nothing is a flag. -/
  | separator
  | long (name : String) (value : Option String)
  | short (letters : List Char)
  | plain
  deriving DecidableEq, Repr

/-- The form of an argument. -/
def tokenOf (argument : String) : Token :=
  match argument.toList with
  | ['-', '-'] => .separator
  | '-' :: '-' :: text =>
    match Text.cutAt? '=' text with
    | some (name, value) => .long (String.ofList name) (some (String.ofList value))
    | none => .long (String.ofList text) none
  | '-' :: c :: letters => .short (c :: letters)
  | _ => .plain

/-! ### Levels -/

/-- The flags that are known at a place, and whether unknown ones may be something else. -/
structure Level where
  flags : List Flag
  lenient : Bool

namespace Level

/-- The flag of a name. -/
def long? (l : Level) (name : String) : Option Flag :=
  l.flags.find? fun f => f.word == name

/-- The flag of a letter. -/
def short? (l : Level) (letter : Char) : Option Flag :=
  l.flags.find? fun f => f.letter? == some letter

/-- Whether an argument is no flag here. -/
def isWord (l : Level) (argument : String) : Bool :=
  match tokenOf argument with
  | .separator => false
  | .long name _ => l.lenient && (l.long? name).isNone
  | .short letters => l.lenient && letters.any fun c => (l.short? c).isNone
  | .plain => true

/-- What was read: the flags, whether `--` ended them, and the arguments after them. -/
structure Reading where
  given : Given
  separated : Bool
  words : List String

/-- Reads flags up to `--` or to the first argument that is no flag. -/
def read (l : Level) (given : Given) : List String → Except Refusal Reading
  | [] => .ok ⟨given, false, []⟩
  | argument :: rest =>
    if l.isWord argument then .ok ⟨given, false, argument :: rest⟩
    else
      match tokenOf argument with
      | .separator => .ok ⟨given, true, rest⟩
      | .plain => .error .usage
      | .short letters =>
        match letters.head?.bind l.short? with
        | none => .error .usage
        | some flag =>
          match given.add flag "" with
          | .error e => .error e
          | .ok given => l.read given rest
      | .long name attached =>
        match l.long? name with
        | none => .error .usage
        | some flag =>
          if flag.takesValue then
            match attached, rest with
            | some value, rest =>
              match given.add flag value with
              | .error e => .error e
              | .ok given => l.read given rest
            | none, [] => .error .usage
            | none, value :: rest =>
              if l.isWord value then
                match given.add flag value with
                | .error e => .error e
                | .ok given => l.read given rest
              else .error .usage
          else if attached.isSome then .error .usage
          else
            match given.add flag "" with
            | .error e => .error e
            | .ok given => l.read given rest

/-- The flags before the name of an action. -/
def outer : Level := ⟨.version :: Flag.shared, false⟩

/-- The flags of printing. -/
def print : Level := ⟨.format :: .sources :: Flag.shared, false⟩

/-- The flags of an action with no flags of its own. -/
def plain : Level := ⟨Flag.shared, false⟩

/-- The flags of running, where an unknown flag begins the command. -/
def run : Level := ⟨Flag.shared, true⟩

end Level

/-! ### Actions -/

/-- The names of the actions. -/
def actionNames : List String := ["show", "files", "check", "run"]

/-- The flags given before and after the name of the action. -/
def Flags.ofGiven (before after : Given) : Flags :=
  let value? (flag : Flag) : Option String := (after.value? flag).or (before.value? flag)
  let required := after.values .require
  { directory := ⟨(value? .directory).getD "."⟩
    projectFile := (value? .projectFile).map Path.mk
    mode := value? .mode
    localSide := (value? .localSide).bind sideOf?
    nameSide := (value? .nameSide).bind sideOf?
    noEnvironment := before.has .noEnvironment || after.has .noEnvironment
    required := if required.isEmpty then before.values .require else required }

/-- Whether help can be given on some words: none, or the name of an action. -/
def isTopic (words : List String) : Bool :=
  match words with
  | [] => true
  | [word] => word == "help" || actionNames.contains word
  | ["help", word] => actionNames.contains word
  | _ => false

/-- Reads the arguments after the name of an action. -/
def readAction (before : Given) (name : String) (rest : List String) : Except Refusal Arguments :=
  match name with
  | "show" => do
    let r ← Level.print.read [] rest
    if r.words.isEmpty then
      return ⟨.ofGiven before r.given,
        .print (((r.given.value? .format).bind formatOf?).getD .plain) (r.given.has .sources)⟩
    else throw .usage
  | "files" => do
    let r ← Level.plain.read [] rest
    if r.words.isEmpty then return ⟨.ofGiven before r.given, .files⟩ else throw .usage
  | "check" => do
    let r ← Level.plain.read [] rest
    if r.words.isEmpty then return ⟨.ofGiven before r.given, .check⟩ else throw .usage
  | "run" => do
    let r ← Level.run.read [] rest
    match r.words with
    | command :: arguments => return ⟨.ofGiven before r.given, .run command arguments⟩
    | [] => throw .usage
  | "help" => throw (if isTopic rest then .help else .usage)
  | _ => throw .usage

/-- Reads the arguments of the command line. -/
def Arguments.read (arguments : List String) : Except Refusal Arguments := do
  let r ← Level.outer.read [] arguments
  match r.words with
  | name :: rest => if r.separated then throw .usage else readAction r.given name rest
  | [] => throw .usage

end LayeredEnv.CommandLine
