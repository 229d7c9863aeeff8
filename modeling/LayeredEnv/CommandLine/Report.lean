import LayeredEnv.CommandLine.Arguments
import LayeredEnv.Resolution

/-!
# What the command line says

The texts that the command line writes: the environment in either format, the list of its files,
the summary of a check, and failures with their causes.
-/

namespace LayeredEnv

/-- The fields that describe an origin. -/
def Origin.json : Origin → Json
  | file path tier =>
    .fields [("kind", .string "file"), ("path", .string path.text), ("tier", .string tier.word)]
  | origin => .fields [("kind", .string origin.message)]

namespace CommandLine

/-! ### The environment -/

/-- The line of a key in the plain format. -/
def plainLine (sources : Bool) (key : String) (b : Binding Json) : String :=
  key ++ "=" ++ b.value.display ++ (if sources then "  # " ++ b.origin.message else "") ++ "\n"

/-- The environment in the plain format, a key a line. -/
def plainText (sources : Bool) (r : Resolution) : String :=
  String.join (r.bindings.entries.map fun p => plainLine sources p.1 p.2)

/-- The environment as a JSON value. -/
def json (sources : Bool) (r : Resolution) : Json :=
  if sources then
    .fields [("sources", .object (r.origins.map Origin.json)), ("values", .object r.values)]
  else .object r.values

/-- The environment in a format. -/
def environmentText (format : Format) (sources : Bool) (r : Resolution) : String :=
  match format with
  | .plain => plainText sources r
  | .json => (json sources r).prettyText ++ "\n"

/-! ### The files -/

/-- How many characters the column of tiers has. -/
def tierWidth : Nat := 10

/-- The line of a file. -/
def layerLine (l : Layer) : String :=
  let word := l.tier.word
  "  " ++ word ++ String.ofList (List.replicate (tierWidth - word.length) ' ') ++ " " ++
    l.path.text ++ "\n"

/-- The files that were read, and the mode. -/
def filesText (r : Resolution) : String :=
  (if r.layers.isEmpty then "No env files found.\n"
    else "Env files (in merge order):\n\n" ++ String.join (r.layers.map layerLine)) ++
    match r.mode with
    | some mode => "\nMode: " ++ mode ++ "\n"
    | none => ""

/-- The summary of a check. -/
def checkText (r : Resolution) : String :=
  "ok (" ++ toString r.values.size ++ " keys)\n"

/-! ### Failures -/

/-- What could not be done, and why. -/
structure Failure where
  context : String
  fault : Fault

namespace Failure

/-- A text with its further lines as far in as the first one. -/
def indented (indent : Nat) (text : String) : String :=
  let lines := (Text.splitOn '\n' text.toList).map String.ofList
  ("\n" ++ String.ofList (List.replicate indent ' ')).intercalate lines

/-- The causes of a failure, numbered if there are several. -/
def causesText : List String → String
  | [cause] => "    " ++ indented 4 cause ++ "\n"
  | causes => String.join (causes.zipIdx.map fun p =>
      "    " ++ toString p.2 ++ ": " ++ indented 7 p.1 ++ "\n")

/-- The text of a failure. -/
def text (f : Failure) : String :=
  "error: " ++ f.context ++ "\n\nCaused by:\n" ++
    causesText (f.fault.message :: f.fault.cause?.toList)

end Failure

end CommandLine

end LayeredEnv
