import LayeredEnv.CommandLine.Perform
import LayeredEnv.Shell.Launch

/-!
# The program

The command line over the files of the machine.  The files that an action may look at are loaded
into a `FileTree` first; the action itself is a function of that tree, and files that a command
wrote are written back.
-/

namespace LayeredEnv.Main

/-- The env of the process. -/
def environment : IO EnvironmentBlock := do
  let bytes ← IO.FS.readBinFile "/proc/self/environ"
  let entries := (Text.splitOn (Char.ofNat 0) (Utf8.lossyText bytes.toList)).map String.ofList
  return entries.filterMap Shell.settingOfText?

/-- The tree with what the machine has at a path, if the tree has nothing there. -/
def load (tree : FileTree) (path : Path) : IO FileTree := do
  if tree.pathExists path then return tree
  try
    let place ← IO.FS.realPath path.text
    let real : Path := ⟨place.toString⟩
    let node : Node ←
      match (← place.metadata).type with
      | .file =>
        let bytes := (← IO.FS.readBinFile place).toList
        pure (.file bytes (bytes.take 2 == Utf8.encode "#!"))
      | .dir => pure .directory
      | _ => pure .device
    let tree := tree.put real node
    return if tree.pathExists path then tree else tree.put path (.link real)
  catch _ => return tree

/-- The env files of a mode. -/
def modeFiles (site : Site) (mode : String) : List Path :=
  [(Layer.mode site.directory site.scheme mode).path,
    (Layer.localMode site.directory site.scheme mode).path]

/-- The files that an env file may lead to. -/
def filesAfter (site : Site) (path : Path) : List Path :=
  match site.tree.read path with
  | .error _ => []
  | .ok bytes =>
    (EnvFile.directivesOf bytes).flatMap fun
      | .importing target => site.candidates path target
      | .assignment key value => if key = site.modeKey then modeFiles site value else []

/-- How many times the files that were loaded are asked for further ones. -/
def rounds : Nat := 64

/-- Loads files and the files that they lead to. -/
def loadAll (request : Request) : Nat → List Path → FileTree → IO FileTree
  | 0, _, tree => return tree
  | n + 1, paths, tree => do
    let tree ← paths.foldlM load tree
    let next := (paths.flatMap (filesAfter (request.site tree))).eraseDups
    let new := next.filter fun p => !tree.pathExists p
    if new.isEmpty then return tree else loadAll request n new tree

/-- The places of the command of an action. -/
def commandFiles (searchPath : Option String) : CommandLine.Action → List Path
  | .run command _ =>
    if Command.isPath command then [⟨command⟩]
    else Command.candidates (searchPath.getD Shell.standardSearchPath) command
  | _ => []

/-- The tree with every file that arguments may lead to. -/
def loadFor (tree : FileTree) (env : EnvironmentBlock) (a : CommandLine.Arguments) :
    IO FileTree := do
  let tree ← load tree (a.flags.projectFile.getD (a.flags.directory.join ProjectFile.fileName))
  match a.flags.request tree with
  | .error _ => return tree
  | .ok request =>
    let env := LiveEnvironment.ofBlock env
    let modes := request.mode.toList ++ (env.get? request.modeKey).toList
    let site := request.site tree
    let first := (Layer.base site.directory site.scheme).path ::
      (Layer.localBase site.directory site.scheme).path :: modes.flatMap (modeFiles site)
    let tree ← loadAll request rounds first tree
    let own :=
      match request.resolve tree env with
      | .ok r => KeyMap.find? Command.searchVariable r.environment
      | .error _ => none
    (commandFiles (own.or (env.get? Command.searchVariable)) a.action).foldlM load tree

/-- Writes the files of a tree that another one does not have as they are. -/
def writeBack (before after : FileTree) : IO Unit :=
  after.nodes.forM fun
    | (place, .file bytes _) =>
      if before.bytesAt? place = some bytes then return
      else IO.FS.writeBinFile (Location.path place).text ⟨bytes.toArray⟩
    | _ => return

end LayeredEnv.Main

open LayeredEnv in
/-- Runs the command line. -/
def main (arguments : List String) : IO UInt32 := do
  let env ← Main.environment
  let here : Path := ⟨(← IO.FS.realPath ".").toString⟩
  let places := ((⟨[], []⟩ : FileTree).makeDirectories here.components).2
  let start := Shell.Installed.install ⟨[], places⟩
  let tree ←
    match CommandLine.Arguments.read arguments with
    | .ok a => Main.loadFor start env a
    | .error _ => pure start
  let outcome := CommandLine.run Shell.launch tree env arguments
  (← IO.getStdout).putStr outcome.output
  (← IO.getStderr).putStr outcome.errors
  Main.writeBack tree outcome.tree
  return outcome.exit.status.toNat.toUInt32
