import LayeredEnv.FileTree

/-!
# Devices

The devices that every system has: some that hold nothing, some that stand for the streams of the
program that opens them, and the terminal, which nothing that runs here has.

This is part of `Shell.launch`, the launcher of the runnable program, and of nothing else: what is
stated of requests, commands and actions holds for every launcher.
-/

namespace LayeredEnv.Shell.Device

/-- The devices that hold nothing, whoever opens them. -/
def plain : List Location :=
  ["full", "null", "random", "urandom", "zero"].map fun name => ["dev", name]

/-- The terminal. -/
def terminal : Location := ["dev", "tty"]

/-- The devices that stand for streams, with the streams. -/
def ofStreams : List (Location × Nat) :=
  [(["dev", "stdin"], 0), (["dev", "stdout"], 1), (["dev", "stderr"], 2)] ++
    (List.range 3).flatMap fun n =>
      [(["dev", "fd", toString n], n), (["proc", "self", "fd", toString n], n)]

/-- All devices. -/
def all : List Location :=
  terminal :: plain ++ ofStreams.map Prod.fst

/-- Whether a location is in a directory in which nothing can be made. -/
def isSealed (place : Location) : Bool :=
  [["dev", "fd"], ["proc"], ["sys"]].any fun directory => directory.isPrefixOf place

/-- The stream that a device stands for. -/
def streamOf? (place : Location) : Option Nat :=
  (ofStreams.find? fun p => p.1 = place).map Prod.snd

/-- The stream that a path leads to. -/
def streamAt? (tree : FileTree) (path : Path) : Option Nat :=
  match tree.locate path with
  | .ok place => streamOf? place
  | .error _ => none

end LayeredEnv.Shell.Device
