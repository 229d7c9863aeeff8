import LayeredEnv.Conversion
import LayeredEnv.FileTree
import LayeredEnv.Requirement.Basic
import LayeredEnv.Schema

/-!
# Faults

Every way in which resolving an environment, reading a project file or running a command can fail,
by cause, and the words for each.
-/

namespace LayeredEnv

/-- Why a request failed. -/
inductive Fault
  /-- A requirement does not hold. -/
  | missingRequired (shortfall : Shortfall)
  /-- The schema refused the values. -/
  | invalidValues (error : SchemaError)
  /-- The raw value of a key cannot be converted. -/
  | conversion (key : String) (error : ConversionError)
  | unreadableEnvFile (path : Path) (error : IoError)
  /-- A file imports itself, directly or through others. -/
  | importCycle (chain : List Location)
  /-- Modes redirect to one another without end. -/
  | modeCycle (chain : List String)
  | unreadableProjectFile (path : Path) (error : IoError)
  | malformedProjectFile (path : Path)
  /-- A project file has a key that is no key name. -/
  | badKeyName (field key : String)
  | commandNotFound (command : String)
  | commandFailed (command : String) (error : IoError)
  deriving Repr

namespace Fault

/-- Texts with arrows between them. -/
def chainText (chain : List String) : String :=
  " -> ".intercalate chain

/-- Why a key was refused as a key name. -/
def badKeyReason (key : String) : String :=
  "invalid key name " ++ Text.quoted key

/-- The words for a fault. -/
def message : Fault → String
  | missingRequired shortfall => "Missing required environment variable: " ++ shortfall.message
  | invalidValues error => error.message
  | conversion key _ => "Failed to transform value of " ++ key
  | unreadableEnvFile path _ => "Failed to read env file: " ++ path.text
  | importCycle chain => "Cyclic import: " ++ chainText (chain.map fun l => l.path.text)
  | modeCycle chain => "Mode cycle: " ++ chainText chain
  | unreadableProjectFile path _ => "Failed to read config file: " ++ path.text
  | malformedProjectFile path => "Failed to parse config file: " ++ path.text
  | badKeyName field key => "Invalid config value for " ++ field ++ ": " ++ badKeyReason key
  | commandNotFound command => "Command not found: " ++ command
  | commandFailed command _ => "Command execution failed: " ++ command

/-- The words for what lies behind a fault, if there is something behind it. -/
def cause? : Fault → Option String
  | conversion _ error => some error.message
  | unreadableEnvFile _ error => some error.message
  | unreadableProjectFile _ error => some error.message
  | malformedProjectFile _ => some "not a project file"
  | commandFailed _ error => some error.message
  | _ => none

end Fault

end LayeredEnv
