import LayeredEnv.Number.Numeral

/-!
# Shell scripts

A `Script` is a tree of commands and of the operators that join them.  The words of a command are
lists of pieces: characters, and what is put in when the command runs, that is the values of
parameters, the output of other scripts and the results of arithmetic.

This is part of `Shell.launch`, the launcher of the runnable program, and of nothing else: what is
stated of requests, commands and actions holds for every launcher.
-/

namespace LayeredEnv.Shell

/-- What stands for a parameter, by whether it is set and, where a colon was written, not empty. -/
inductive Operator
  | value
  | length
  /-- `-`: the word if the parameter is not set. -/
  | otherwise (emptyToo : Bool)
  /-- `=`: the same, and the parameter is set to it. -/
  | assign (emptyToo : Bool)
  /-- `?`: the shell ends if the parameter is not set. -/
  | demand (emptyToo : Bool)
  /-- `+`: the word if the parameter is set. -/
  | instead (emptyToo : Bool)
  /-- `#`: the value without what matches the word at its start. -/
  | withoutStart (longest : Bool)
  /-- `%`: the value without what matches the word at its end. -/
  | withoutEnd (longest : Bool)
  /-- Anything else, which ends the shell once it is to be put in. -/
  | malformed
  deriving DecidableEq, Repr

/-- How a redirection opens a file. -/
inductive OpenMode
  | reading
  | replacing
  /-- Replacing what is in the file even if files are to be kept. -/
  | overwriting
  | appending
  | both
  deriving DecidableEq, Repr

mutual

/-- A piece of a word. -/
inductive Piece
  | char (c : Char) (quoted : Bool)
  /-- A quote, which keeps an empty word from vanishing. -/
  | mark
  | parameter (name : String) (operator : Operator) (word : List Piece) (quoted : Bool)
  | output (script : Script) (quoted : Bool)
  | number (expression : List Piece) (quoted : Bool)

/-- Where a stream of a command leads. -/
inductive Redirection
  | file (stream : Nat) (mode : OpenMode) (target : List Piece)
  | same (stream : Nat) (other : List Piece)
  /-- A text that stands in the script itself. -/
  | document (stream : Nat) (body : List Piece)

/-- Commands and the operators that join them. -/
inductive Script
  /-- A command with its own variables, its words and its redirections. -/
  | simple (line : Nat) (settings : List (String × List Piece)) (words : List (List Piece))
      (redirections : List Redirection)
  /-- Commands one after the other. -/
  | list (items : List Script)
  | both (first second : Script)
  | either (first second : Script)
  | negation (script : Script)
  | pipeline (stages : List Script)
  | background (script : Script)
  | subshell (line : Nat) (script : Script) (redirections : List Redirection)
  | redirected (line : Nat) (script : Script) (redirections : List Redirection)
  | branch (condition yes : Script) (no : Option Script)
  /-- A body that is repeated as long as a condition succeeds, or fails. -/
  | loop (succeeds : Bool) (condition body : Script)
  /-- A body that is repeated for every field of some words. -/
  | each (line : Nat) (name : String) (words : List (List Piece)) (body : Script)
  /-- The first script of which a pattern matches. -/
  | choice (line : Nat) (subject : List Piece) (cases : List (List (List Piece) × Script))
  | definition (name : String) (body : Script)

end

/-- A word before anything is put in. -/
abbrev Word := List Piece

instance : Inhabited Script := ⟨.list []⟩

/-! ### Names -/

/-- Whether a character may begin the name of a variable. -/
def isNameStart (c : Char) : Bool :=
  c.isAlpha || c == '_'

/-- Whether a character may stand in the name of a variable. -/
def isNameChar (c : Char) : Bool :=
  isNameStart c || c.isDigit

/-- Whether a text is the name of a variable. -/
def isName : List Char → Bool
  | [] => false
  | c :: rest => isNameStart c && rest.all isNameChar

/-- Whether a character is the name of a parameter of the shell's own. -/
def isSpecial (c : Char) : Bool :=
  c.isDigit || c == '#' || c == '?' || c == '$' || c == '!' || c == '-' || c == '@' || c == '*'

/-- The text of a word in which nothing is quoted and nothing is put in. -/
def plainText? : Word → Option (List Char)
  | [] => some []
  | .char c false :: rest => (plainText? rest).map (c :: ·)
  | _ :: _ => none

/-- The characters of a word. -/
def charsOf (w : Word) : List Char :=
  w.filterMap fun
    | .char c _ => some c
    | _ => none

/-- A text all of whose characters are quoted. -/
def quotedWord (s : List Char) : Word :=
  s.map fun c => .char c true

/-- The variable and the value of a word that sets one. -/
def settingOf? (w : Word) : Option (String × Word) :=
  let isPlainName : Piece → Bool
    | .char c false => isNameChar c
    | _ => false
  let name := charsOf (w.takeWhile isPlainName)
  match isName name, w.drop name.length with
  | true, .char '=' false :: value => some (String.ofList name, value)
  | _, _ => none

end LayeredEnv.Shell
