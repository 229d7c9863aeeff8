import LayeredEnv.Shell.Script
import LayeredEnv.Text.Lines

/-!
# The text of a shell script while it is read

A `Source` is what is left of a text.  It can be read by single characters, by the tokens that stand
between words, and by the parts of words; documents are taken out of the lines below the one that
asks for them.

This is part of `Shell.launch`, the launcher of the runnable program, and of nothing else: what is
stated of requests, commands and actions holds for every launcher.
-/

namespace LayeredEnv.Shell

/-- Something in a script that cannot be read. -/
structure Flaw where
  line : Nat
  message : String
  deriving DecidableEq, Repr

/-- A token between words. -/
inductive Token
  | ending
  | newline
  | operator (text : String)
  | word (w : Word)
  | keyword (text : String)
  /-- The sign of a redirection, with the stream that it redirects. -/
  | redirection (stream : Nat) (sign : String)

/-- The part of a text that has not been read, and the line that it begins on. -/
structure Source where
  rest : List Char
  line : Nat := 1
  /-- How many lines were taken out after the end of this line. -/
  taken : Nat := 0
  /-- A token that was read and put back. -/
  pushed : Option Token := none

/-- Something that reads from a source. -/
abbrev Reading (α : Type) := StateT Source (Except Flaw) α

/-- Gives up. -/
def flaw {α : Type} (message : String) : Reading α := do
  throw ⟨(← get).line, message⟩

/-! ### Characters -/

/-- The next character, which stays unread. -/
def peek? : Reading (Option Char) := do
  return (← get).rest.head?

/-- Reads one character. -/
def advance : Reading Unit :=
  modify fun s =>
    match s.rest with
    | '\n' :: rest => { s with rest, line := s.line + 1 + s.taken, taken := 0 }
    | _ :: rest => { s with rest }
    | [] => s

/-- Reads a character if it is the next one, and tells whether it was. -/
def takeChar (c : Char) : Reading Bool := do
  if (← peek?) = some c then
    advance
    return true
  else return false

/-- Reads a backslash together with the end of the line if they come next. -/
def joinLine : Reading Bool := do
  match (← get).rest with
  | '\\' :: '\n' :: _ =>
    advance
    advance
    return true
  | _ => return false

/-- Reads the characters that come next as long as they pass a test. -/
def takeChars (test : Char → Bool) : Reading (List Char) := do
  let s ← get
  let chars := s.rest.takeWhile test
  set { s with rest := s.rest.drop chars.length }
  return chars

/-- What follows blanks, joined lines and a comment, and how many lines were joined. -/
def skipBlanks : List Char → List Char × Nat
  | '\\' :: '\n' :: rest =>
    let (rest, lines) := skipBlanks rest
    (rest, lines + 1)
  | '#' :: rest => (rest.dropWhile (· != '\n'), 0)
  | c :: rest => if c == ' ' || c == '\t' then skipBlanks rest else (c :: rest, 0)
  | [] => ([], 0)

/-! ### Tokens -/

/-- The words that are no words where a command may begin. -/
def keywords : List String :=
  ["!", "case", "do", "done", "elif", "else", "esac", "fi", "for", "if", "in", "then", "until",
    "while", "\x7b", "\x7d"]

/-- The tokens that end a list of commands. -/
def endsList : Token → Bool
  | .ending => true
  | .operator text => text == ")" || text == ";;"
  | .keyword text =>
    ["do", "done", "elif", "else", "esac", "fi", "then", "\x7d"].contains text
  | _ => false

/-- A token in the words of a complaint. -/
def Token.name : Token → String
  | ending => "end of file"
  | newline => "newline"
  | operator text | keyword text => "\"" ++ text ++ "\""
  | word _ => "word"
  | redirection _ _ => "redirection"

/-- Complains about a token, possibly where another one was expected. -/
def unexpected {α : Type} (t : Token) (expected : Option String) : Reading α :=
  flaw <| t.name ++ " unexpected" ++
    match expected with
    | some "word" => " (expecting word)"
    | some e => " (expecting \"" ++ e ++ "\")"
    | none => ""

/-- Puts a token back. -/
def push (t : Token) : Reading Unit :=
  modify fun s => { s with pushed := some t }

/-- Whether a character ends a word that is not quoted. -/
def isBreak (c : Char) : Bool :=
  c == ' ' || c == '\t' || c == '\n' || c == ';' || c == '&' || c == '|' || c == '<' || c == '>' ||
    c == '(' || c == ')'

/-- The sign of a redirection at the start of a text. -/
def redirectionSign? : List Char → Option String
  | '<' :: '<' :: '-' :: _ => some "<<-"
  | '<' :: '<' :: _ => some "<<"
  | '<' :: '&' :: _ => some "<&"
  | '<' :: '>' :: _ => some "<>"
  | '<' :: _ => some "<"
  | '>' :: '>' :: _ => some ">>"
  | '>' :: '|' :: _ => some ">|"
  | '>' :: '&' :: _ => some ">&"
  | '>' :: _ => some ">"
  | _ => none

/-- The sign of a redirection at the start of a text with its stream and its length. -/
def redirectionAt? (s : List Char) : Option (Nat × String × Nat) :=
  match redirectionSign? s with
  | some sign => some (if sign.startsWith "<" then 0 else 1, sign, sign.length)
  | none =>
    match s with
    | d :: rest =>
      if d.isDigit then
        (redirectionSign? rest).map fun sign =>
          (Numeral.value 10 [d], sign, sign.length + 1)
      else none
    | [] => none

/-- The operator at the start of a text. -/
def operatorAt? : List Char → Option String
  | '&' :: '&' :: _ => some "&&"
  | '&' :: _ => some "&"
  | '|' :: '|' :: _ => some "||"
  | '|' :: _ => some "|"
  | ';' :: ';' :: _ => some ";;"
  | ';' :: _ => some ";"
  | '(' :: _ => some "("
  | ')' :: _ => some ")"
  | _ => none

/-! ### Documents -/

/-- The lines up to one that is the marker, and what follows it.  With `strip`, tabs at the start
of a line do not count. -/
def documentLines (strip : Bool) (marker : List Char) :
    List (List Char) → List (List Char) × List (List Char)
  | [] => ([], [])
  | line :: rest =>
    let line := if strip then line.dropWhile (· == '\t') else line
    if line == marker then ([], rest)
    else
      let (body, after) := documentLines strip marker rest
      (line :: body, after)

/-- Takes the document that ends at a marker out of the lines after this one, and gives its
text. -/
def takeDocument (strip : Bool) (marker : List Char) : Reading (List Char) := do
  let s ← get
  let here := s.rest.takeWhile (· != '\n')
  match s.rest.drop here.length with
  | [] => return []
  | newline :: below =>
    let lines := Text.splitOn '\n' below
    let whole := lines.getLast? = some []
    let lines := if whole then lines.dropLast else lines
    let (body, after) := documentLines strip marker lines
    let left := Text.joinWith ['\n'] (if whole && !after.isEmpty then after ++ [[]] else after)
    set { s with
      rest := here ++ newline :: left
      taken := s.taken + (lines.length - after.length) }
    let text := body.flatMap (· ++ ['\n'])
    let isCut := body.length = lines.length && below.getLast?.any (· != '\n')
    return if isCut then text.dropLast else text

/-! ### Words -/

/-- Where pieces of a word stand, which decides what quotes them and where they end. -/
inductive Context
  /-- Outside quotes: up to a blank or an operator. -/
  | bare
  /-- After `<<`, where nothing is put in. -/
  | marker
  /-- Up to a double quote. -/
  | double
  /-- After an operator in braces: up to the brace that closes them. -/
  | brace (quoted : Bool)
  /-- A document: up to the end. -/
  | document
  /-- An arithmetic expression in which some brackets are open. -/
  | arithmetic (brackets : Nat)
  deriving DecidableEq, Repr

namespace Context

/-- Whether characters count as quoted. -/
def isQuoted : Context → Bool
  | bare | marker | brace false => false
  | double | brace true | document | arithmetic _ => true

/-- Whether a backslash quotes the character after it. -/
def escapes (context : Context) (c : Char) : Bool :=
  match context with
  | bare | marker | brace false => true
  | double => c == '$' || c == '\x60' || c == '"' || c == '\\'
  | brace true => c == '$' || c == '\x60' || c == '"' || c == '\\' || c == '\x7d'
  | document | arithmetic _ => c == '$' || c == '\x60' || c == '\\'

/-- The complaint about a text that ends here; none if it may. -/
def complaint? : Context → Option String
  | bare | marker | document => none
  | double => some "Unterminated quoted string"
  | brace _ => some "Missing '\x7d'"
  | arithmetic _ => some "Missing '))'"

end Context

/-- Reads up to a single quote. -/
def readSingle : Reading Word := do
  let s ← get
  let text := s.rest.takeWhile (· != '\'')
  match s.rest.drop text.length with
  | [] =>
    set { s with rest := [], line := s.line + text.count '\n' }
    flaw "Unterminated quoted string"
  | _ :: rest =>
    set { s with rest, line := s.line + text.count '\n' }
    return quotedWord text

/-- The text up to a backquote, in which a backslash before some characters is dropped, and what
follows it; `none` if there is no backquote. -/
def backquoted? (quoted : Bool) : List Char → Option (List Char × List Char)
  | [] => none
  | '\x60' :: rest => some ([], rest)
  | '\\' :: c :: rest =>
    (backquoted? quoted rest).map fun (text, after) =>
      if c == '\x60' || c == '$' || c == '\\' || (quoted && c == '"') then (c :: text, after)
      else ('\\' :: c :: text, after)
  | c :: rest => (backquoted? quoted rest).map fun (text, after) => (c :: text, after)

/-- Reads the name of a parameter in braces. -/
def readParameterName : Reading (List Char) := do
  match (← get).rest with
  | c :: _ =>
    if isNameStart c then takeChars isNameChar
    else if c.isDigit then takeChars Char.isDigit
    else if isSpecial c then
      advance
      return [c]
    else return []
  | [] => return []

/-- Reads what stands between the name of a parameter and its word. -/
def readOperator : Reading Operator := do
  let colon ← takeChar ':'
  match ← peek? with
  | some '-' => advance; return .otherwise colon
  | some '=' => advance; return .assign colon
  | some '?' => advance; return .demand colon
  | some '+' => advance; return .instead colon
  | some '}' => return if colon then .malformed else .value
  | some '#' =>
    if colon then return .malformed
    advance
    return .withoutStart (← takeChar '#')
  | some '%' =>
    if colon then return .malformed
    advance
    return .withoutEnd (← takeChar '%')
  | _ => return .malformed

/-- Whether a text begins with a single sign in front of the closing brace. -/
def isLoneSign (s : List Char) : Bool :=
  match s with
  | c :: '\x7d' :: _ => c != '\x7d'
  | _ => false

/-- Whether `#` in front of a text asks for the length of a parameter. -/
def asksLength (s : List Char) : Bool :=
  match s with
  | c :: rest =>
    let name :=
      if isNameStart c then c :: rest.takeWhile isNameChar
      else if c.isDigit then c :: rest.takeWhile Char.isDigit
      else if isSpecial c then [c]
      else []
    !name.isEmpty && (s.drop name.length).head? = some '\x7d'
  | [] => false

end LayeredEnv.Shell
