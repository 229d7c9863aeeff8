import LayeredEnv.Text.Blank
import LayeredEnv.Text.Lines
import LayeredEnv.Text.Utf8

/-!
# Env files

An env file is read line by line.  A line is blank, a comment, an import directive, an assignment,
or at fault; a line at fault is passed over with a notice.  No line can influence the reading of
another one, so a file's reading is the list of its lines' readings.
-/

namespace LayeredEnv

/-- A line of an env file that means something. -/
inductive Directive
  /-- `key=value` -/
  | assignment (key value : String)
  /-- `import target` -/
  | importing (target : String)
  deriving DecidableEq, Repr

/-- What may be wrong with an env file. -/
inductive Complaint
  | noEquals
  | emptyKey
  | notUtf8
  deriving DecidableEq, Repr

/-- The words for a complaint. -/
def Complaint.message : Complaint → String
  | noEquals => "ignoring line without '='"
  | emptyKey => "ignoring assignment with empty key"
  | notUtf8 => "env file is not valid UTF-8, replacing invalid bytes"

/-- A complaint and the number of the line it is about, counted from one. -/
structure Notice where
  line : Option Nat
  complaint : Complaint
  deriving DecidableEq, Repr

/-- What one line amounts to. -/
inductive LineReading
  | nothing
  | directive (d : Directive)
  | fault (c : Complaint)
  deriving DecidableEq, Repr

namespace LineReading

/-- The directive on a line, if there is one. -/
def directive? : LineReading → Option Directive
  | directive d => some d
  | _ => none

/-- The complaint about a line, if there is one. -/
def fault? : LineReading → Option Complaint
  | fault c => some c
  | _ => none

end LineReading

namespace EnvFile

/-- The word that an import directive begins with. -/
def importWord : List Char := ['i', 'm', 'p', 'o', 'r', 't']

/-- The word, with the space after it, that may stand before an assignment. -/
def exportWord : List Char := ['e', 'x', 'p', 'o', 'r', 't', ' ']

/-- Whether a character may surround a value. -/
def isQuote (c : Char) : Bool :=
  c == '"' || c == '\''

/-- The target of a line without blanks at its ends that is an import directive: the import word,
blanks, and whatever follows. -/
def importTarget? (line : List Char) : Option (List Char) :=
  match Text.dropStart? importWord line with
  | some (c :: rest) =>
    if Text.isBlank c && Text.trimStart rest != [] then some (Text.trimStart rest) else none
  | _ => none

/-- The value without the pair of like quotes around it, if there is one. -/
def stripQuotes : List Char → List Char
  | [] => []
  | c :: rest => if isQuote c && rest.getLast? == some c then rest.dropLast else c :: rest

/-- What a line without blanks at its ends means if it is no import directive. -/
def readAssignment (line : List Char) : LineReading :=
  match Text.cutAt? '=' ((Text.dropStart? exportWord line).getD line) with
  | none => .fault .noEquals
  | some (before, after) =>
    let key := Text.trim before
    if key == [] then .fault .emptyKey
    else .directive (.assignment (String.ofList key)
      (String.ofList (stripQuotes (Text.trim after))))

/-- What a line means. -/
def readLine (raw : List Char) : LineReading :=
  let line := Text.trim raw
  if line == [] || line.head? == some '#' then .nothing
  else
    match importTarget? line with
    | some target => .directive (.importing (String.ofList target))
    | none => readAssignment line

/-- What each line of a text means. -/
def readLines (text : List Char) : List LineReading :=
  (Text.splitOn '\n' text).map readLine

/-- The directives of a text, in order. -/
def directives (text : List Char) : List Directive :=
  (readLines text).filterMap LineReading.directive?

/-- The complaints about the lines of a text, the first of which has the number `first`. -/
def noticesFrom (first : Nat) : List LineReading → List Notice
  | [] => []
  | .fault c :: rest => ⟨some first, c⟩ :: noticesFrom (first + 1) rest
  | _ :: rest => noticesFrom (first + 1) rest

/-- The complaints about a text, in order. -/
def notices (text : List Char) : List Notice :=
  noticesFrom 1 (readLines text)

/-- The directives of a file, whose ill-formed bytes are read as U+FFFD. -/
def directivesOf (bytes : List UInt8) : List Directive :=
  directives (Utf8.lossyText bytes)

/-- The complaints about a file: first that it is no text, then those about its lines. -/
def noticesOf (bytes : List UInt8) : List Notice :=
  (if Utf8.isWellFormed bytes then [] else [⟨none, .notUtf8⟩]) ++
    notices (Utf8.lossyText bytes)

/-- The values that a file's own lines assign to a key, in order. -/
def valuesOf (key : String) (bytes : List UInt8) : List String :=
  (directivesOf bytes).filterMap fun
    | .assignment k v => if k = key then some v else none
    | .importing _ => none

end EnvFile

end LayeredEnv
