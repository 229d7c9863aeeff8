import LayeredEnv.Command
import LayeredEnv.CommandLine.Report
import LayeredEnv.ProjectFile

/-!
# Performing an action

The flags and the project file make up a request.  An action resolves it and says or does something
with the result; it ends with a code, and what it wrote is part of its `Outcome`.
-/

namespace LayeredEnv.CommandLine

namespace Flags

/-- The project file that is given or else found in the directory; none is a file that presets
nothing. -/
def loadProjectFile (f : Flags) (tree : FileTree) : Except Failure ProjectFile :=
  match f.projectFile with
  | some path =>
    match ProjectFile.load tree path with
    | .ok p => .ok p
    | .error fault => .error ⟨"Failed to load " ++ path.text, fault⟩
  | none =>
    match ProjectFile.find tree f.directory with
    | .ok (some (_, p)) => .ok p
    | .ok none => .ok {}
    | .error fault => .error ⟨"Failed to load project config", fault⟩

/-- The request with what the flags say; they win over what it has. -/
def apply (f : Flags) (r : Request) : Request :=
  { r with
    scheme := ⟨f.localSide.getD r.scheme.localSide, f.nameSide.getD r.scheme.nameSide⟩
    mode := f.mode.or r.mode
    useEnvironment := r.useEnvironment && !f.noEnvironment
    required := r.required ++ f.required.map Requirement.key }

/-- The request of the flags and the project file. -/
def request (f : Flags) (tree : FileTree) : Except Failure Request :=
  match f.loadProjectFile tree with
  | .ok p => .ok (f.apply (p.apply { directory := f.directory }))
  | .error failure => .error failure

end Flags

/-- What an action that changes nothing leaves behind. -/
def ended (tree : FileTree) (code : Nat) (output errors : String) : Outcome :=
  { exit := .code code, tree, writes := [(.output, output), (.errors, errors)] }

/-- What a failure leaves behind. -/
def failed (tree : FileTree) (f : Failure) : Outcome :=
  ended tree 1 "" f.text

/-- Does with a resolution what an action asks for. -/
def finish (launch : Launcher) (tree : FileTree) (environment : EnvironmentBlock)
    (r : Resolution) : Action → Outcome
  | .print format sources => ended tree 0 (environmentText format sources r) ""
  | .files => ended tree 0 (filesText r) ""
  | .check => ended tree 0 (checkText r) ""
  | .run command arguments =>
    match Command.run launch tree environment command arguments r.environment with
    | .ok outcome => { outcome with exit := .code (Exit.passedOn outcome.exit.status) }
    | .error fault => failed tree ⟨"Failed to execute: " ++ command, fault⟩

/-- What a fault of the resolution leaves behind: a check says no more than which requirement does
not hold. -/
def unresolved (tree : FileTree) (fault : Fault) : Action → Outcome
  | .check =>
    match fault with
    | .missingRequired _ => ended tree 1 "" (fault.message ++ "\n")
    | _ => failed tree ⟨"Failed to resolve environment", fault⟩
  | _ => failed tree ⟨"Failed to resolve environment", fault⟩

/-- Performs an action. -/
def perform (launch : Launcher) (tree : FileTree) (environment : EnvironmentBlock)
    (a : Arguments) : Outcome :=
  match a.flags.request tree with
  | .error failure => failed tree failure
  | .ok request =>
    match request.resolve tree (.ofBlock environment) with
    | .error fault => unresolved tree fault a.action
    | .ok r => finish launch tree environment r a.action

/-! ### Arguments that lead to no action -/

/-- How the command line is used. -/
def usageText : String :=
  "Usage: envcascade [OPTIONS] <COMMAND>\n\n" ++
  "Commands:\n" ++
  "  show   Print the resolved environment (--format env|json, --sources)\n" ++
  "  files  List the env files that were read, in merge order\n" ++
  "  check  Resolve and check requirements without printing values\n" ++
  "  run    Run a command with the resolved environment\n\n" ++
  "Options:\n" ++
  "      --dir <DIR>           Directory holding the .env files\n" ++
  "      --config <FILE>       Project file (envcascade.toml in --dir if not given)\n" ++
  "      --mode <MODE>         Mode to resolve\n" ++
  "      --local-naming <S>    Naming of local files, prefix or suffix\n" ++
  "      --mode-naming <S>     Naming of mode and import files, prefix or suffix\n" ++
  "      --no-env              Do not fill unset keys from the process environment\n" ++
  "      --require <KEY>       Require KEY to be set (repeatable)\n" ++
  "  -h, --help                Print help\n" ++
  "  -V, --version             Print version\n"

/-- The name and the version. -/
def versionText : String := "envcascade 0.1.0\n"

/-- What a refusal leaves behind. -/
def refused (tree : FileTree) : Refusal → Outcome
  | .usage => ended tree 2 "" usageText
  | .help => ended tree 0 usageText ""
  | .version => ended tree 0 versionText ""

/-- Runs the command line. -/
def run (launch : Launcher) (tree : FileTree) (environment : EnvironmentBlock)
    (arguments : List String) : Outcome :=
  match Arguments.read arguments with
  | .ok a => perform launch tree environment a
  | .error refusal => refused tree refusal

end LayeredEnv.CommandLine
