import LayeredEnv.Shell.Process
import LayeredEnv.Shell.Utility.Calculation
import LayeredEnv.Shell.Utility.Files
import LayeredEnv.Shell.Utility.Search
import LayeredEnv.Shell.Utility.Text

/-!
# Installed programs

What every system has: directories, devices and programs.  The file of a program names the program,
so that the program is found again wherever the file is copied or linked to.

This is part of `Shell.launch`, the launcher of the runnable program, and of nothing else: what is
stated of requests, commands and actions holds for every launcher.
-/

namespace LayeredEnv.Shell

/-- A program that is installed. -/
inductive Installed
  /-- Runs scripts. -/
  | shell
  /-- Runs a program with another environment. -/
  | environment
  | utility (u : Utility)

namespace Installed

/-- Ends with a status. -/
def ending (status : Nat) : Utility := fun _ =>
  { status }

/-- The installed programs by name. -/
def named : List (String × Installed) :=
  [("dash", shell), ("bash", shell), ("env", environment)] ++
    ([("true", ending 0), ("false", ending 1), ("sleep", ending 0), ("sync", ending 0),
      ("echo", Utility.echo), ("printf", Utility.printFormat), ("test", Utility.condition),
      ("[", Utility.bracket), ("pwd", Utility.workingDirectory),
      ("printenv", Utility.printVariables), ("which", Utility.which),
      ("cat", Utility.concatenate), ("tac", Utility.reverseLines),
      ("rev", Utility.reverseCharacters), ("tee", Utility.copyInput),
      ("head", Utility.head), ("tail", Utility.tail), ("wc", Utility.count),
      ("sort", Utility.sort), ("uniq", Utility.unique),
      ("cut", Utility.cut), ("tr", Utility.translate), ("seq", Utility.sequence),
      ("expr", Utility.calculate), ("grep", Utility.search), ("sed", Utility.edit),
      ("basename", Utility.baseNames), ("dirname", Utility.directoryNames),
      ("readlink", Utility.readLinks), ("realpath", Utility.realPaths), ("ls", Utility.list),
      ("rm", Utility.removeFiles), ("rmdir", Utility.removeDirectories),
      ("mkdir", Utility.makeDirectories), ("touch", Utility.touch), ("cp", Utility.copy),
      ("mv", Utility.move), ("ln", Utility.makeLinks), ("chmod", Utility.changeMode)].map
        fun (p : String × Utility) => (p.1, utility p.2))

/-- The text that the file of an installed program begins with. -/
def magic : String := "\x7fELF"

/-- The bytes of the file of an installed program. -/
def image (name : String) : List UInt8 :=
  Utf8.encode (magic ++ name)

/-- The installed program that bytes are the file of. -/
def ofImage? (bytes : List UInt8) : Option Installed :=
  (named.find? fun p => image p.1 == bytes).map Prod.snd

/-- The directory that holds the installed programs. -/
def home : Location := ["usr", "bin"]

/-- The directories that are there whatever they hold. -/
def directories : List Location :=
  [["boot"], ["etc"], ["home"], ["media"], ["mnt"], ["opt"], ["proc"], ["root"], ["run"], ["srv"],
    ["sys"], ["tmp"], ["usr", "lib"], ["usr", "local", "bin"], ["usr", "sbin"], ["usr", "share"],
    ["var", "tmp"]]

/-- The links that are there. -/
def links : List (Location × Path) :=
  [(["bin"], ⟨"usr/bin"⟩), (["lib"], ⟨"usr/lib"⟩), (["sbin"], ⟨"usr/sbin"⟩),
    (home ++ ["sh"], ⟨"dash"⟩)]

/-- What is there before anything else is. -/
def nodes : List (Location × Node) :=
  (directories.map fun place => (place, .directory)) ++
    (links.map fun p => (p.1, .link p.2)) ++
    (Device.all.map fun place => (place, .device)) ++
    named.map fun p => (home ++ [p.1], .file (image p.1) true)

/-- The tree with everything that is installed below what it has. -/
def install (tree : FileTree) : FileTree :=
  { tree with nodes := tree.nodes ++ nodes }

end Installed

end LayeredEnv.Shell
