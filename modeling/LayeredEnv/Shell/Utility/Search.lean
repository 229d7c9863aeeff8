import LayeredEnv.Shell.Regex
import LayeredEnv.Shell.Utility.Text

/-!
# Utilities that search texts

`grep` keeps the lines in which something is found, and `sed` edits lines by a script of commands
with addresses.

This is part of `Shell.launch`, the launcher of the runnable program, and of nothing else: what is
stated of requests, commands and actions holds for every launcher.
-/

namespace LayeredEnv.Shell.Utility

/-! ### Lines in which something is found -/

/-- What a pattern matches; `none` if it is malformed. -/
def readPattern? (extended literal : Bool) (pattern : String) : Option Regex :=
  if literal then some (.ofText pattern.toList) else Regex.read? extended pattern.toList

/-- What one of several patterns matches; `none` if one of them is malformed. -/
def readPatterns? (extended literal : Bool) : List String → Option Regex
  | [] => none
  | [only] => readPattern? extended literal only
  | first :: rest =>
    match readPattern? extended literal first, readPatterns? extended literal rest with
    | some a, some b => some (.either a b)
    | _, _ => none

/-- All matches in a text that are not empty, at most `fuel`. -/
def allMatches (a : Regex) : (fuel : Nat) → Option Char → List Char → List (List Char)
  | 0, _, _ => []
  | fuel + 1, before, s =>
    match a.search? before s with
    | none => []
    | some found =>
      if found.text.isEmpty then
        match found.rest with
        | [] => []
        | c :: rest => allMatches a fuel (some c) rest
      else found.text :: allMatches a fuel found.text.getLast? found.rest

/-- What is said about the lines of one text that were found, with their numbers. -/
def foundText (o : Options) (a : Regex) (title : String) (found : List (String × Nat)) : String :=
  if o.has 'q' then ""
  else if o.has 'l' then if found.isEmpty then "" else title ++ "\n"
  else if o.has 'L' then if found.isEmpty then title ++ "\n" else ""
  else
    let named := o.has 'H'
    let start := if named then title ++ ":" else ""
    if o.has 'c' then start ++ toString found.length ++ "\n"
    else
      unlines (found.flatMap fun (line, n) =>
        let start := start ++ if o.has 'n' then toString n ++ ":" else ""
        if o.has 'o' then
          (allMatches a (line.length + 1) none line.toList).map fun m => start ++ String.ofList m
        else [start ++ line])

/-- Keeps the lines in which a pattern is found. -/
def search : Utility :=
  withOptions "EFGPvcinqsowxhHlLraz" "efmABC" true 2 fun call o =>
  let given := o.letters.filterMap fun p => if p.1 == 'e' then some p.2 else none
  match given, o.rest with
  | [], [] =>
    { status := 2
      errors := "Usage: " ++ call.name ++ " [OPTION]... PATTERNS [FILE]...\nTry '" ++ call.name ++
        " --help' for more information.\n" }
  | given, rest =>
    let (patterns, operands) := if given.isEmpty then (rest.take 1, rest.drop 1) else (given, rest)
    let patterns := (patterns.flatMap fun p => Text.splitOn '\n' p.toList).map String.ofList
    match readPatterns? (o.has 'E') (o.has 'F') patterns with
    | none => call.refuse 2 "Unmatched ( or \\("
    | some a =>
      let a := if o.has 'i' then a.ignoringCase else a
      let a := if o.has 'w' then .both (.edge true false) (.both a (.edge false true)) else a
      let a := if o.has 'x' then .both .start (.both a .finish) else a
      let limit := (o.value? 'm').bind fun m => numeral? m.toList
      let o := if 1 < operands.length && !o.has 'h' then
          { o with letters := ('H', "") :: o.letters } else o
      let hits (text : String) : List (String × Nat) :=
        let all := ((lines text).zipIdx 1).filter fun l =>
          (a.search? none l.1.toList).isSome != o.has 'v'
        match limit with
        | some n => all.take n
        | none => all
      let operands := if operands.isEmpty then ["-"] else operands
      let texts := textsOf call operands
      let any := texts.any fun t =>
        match t.2 with
        | .ok text => !(hits text).isEmpty
        | .error _ => false
      let r := texts.foldl (fun r (path, text) =>
        r ++ match text with
          | .ok text =>
            let shown := if path == "-" then "(standard input)" else path
            { output := foundText o a shown (hits text) }
          | .error e => if o.has 's' then { status := 2 } else call.refuseFile 2 path e)
        ({ readsInput := asksInput call operands } : Report)
      { r with status := if any && (r.status = 0 || o.has 'q') then 0 else max r.status 1 }

/-! ### Scripts of commands -/

namespace Edit

/-- Which lines a command is for. -/
inductive Address
  | line (n : Nat)
  | last
  | found (a : Regex)

/-- A piece of what is put in for a match. -/
inductive Put
  | char (c : Char)
  | group (n : Nat)

/-- What a command does to a line. -/
inductive Action
  | replace (a : Regex) (puts : List Put) (nth : Nat) (all prints : Bool)
  | translate (pairs : List (Char × Char))
  | delete
  | print
  | quit (status : Nat) (silent : Bool)
  | number
  | append (text : String)
  | insert (text : String)
  | change (text : String)
  | nothing

/-- A command of a script, and whether it is inside the lines that it is for. -/
structure Command where
  first : Option Address
  last : Option Address
  negated : Bool
  action : Action
  active : Bool := false

/-! #### Reading -/

/-- The text up to a sign, which a backslash makes a character, and what follows it. -/
def upTo? (sign : Char) : List Char → Option (List Char × List Char)
  | [] => none
  | '\\' :: c :: rest =>
    (upTo? sign rest).map fun (text, after) =>
      (if c == sign then c :: text else '\\' :: c :: text, after)
  | c :: rest =>
    if c == sign then some ([], rest)
    else (upTo? sign rest).map fun (text, after) => (c :: text, after)

/-- The pieces of what is put in for a match. -/
def puts : List Char → List Put
  | [] => []
  | '&' :: rest => .group 0 :: puts rest
  | '\\' :: c :: rest =>
    (if c.isDigit then .group (c.toNat - '0'.toNat)
      else if c == 'n' then .char '\n'
      else if c == 't' then .char '\t'
      else .char c) :: puts rest
  | c :: rest => .char c :: puts rest

/-- Reads an address, and what follows it. -/
def address? (extended : Bool) (s : List Char) : Option (Option Address × List Char) :=
  match s with
  | '$' :: rest => some (some .last, rest)
  | '/' :: rest =>
    (upTo? '/' rest).bind fun (text, after) =>
      (Regex.read? extended text).map fun a => (some (.found a), after)
  | s =>
    let digits := s.takeWhile Char.isDigit
    if digits.isEmpty then some (none, s)
    else some (some (.line (Numeral.value 10 digits)), s.drop digits.length)

/-- Drops blanks and signs between commands. -/
def dropGaps (s : List Char) : List Char :=
  s.dropWhile fun c => c == ' ' || c == '\t' || c == '\n' || c == ';'

/-- The text of a command that takes the rest of its line, and what follows it. -/
def lineText (s : List Char) : String × List Char :=
  let s := match s.dropWhile (· == ' ') with
    | '\\' :: '\n' :: rest => rest
    | '\\' :: rest => rest
    | rest => rest
  let text := s.takeWhile (· != '\n')
  (String.ofList text ++ "\n", s.drop text.length)

/-- Reads an action, and what follows it. -/
def action? (extended : Bool) (c : Char) (s : List Char) : Option (Action × List Char) :=
  match c, s with
  | 's', sign :: rest => do
    let (pattern, rest) ← upTo? sign rest
    let (replacement, rest) ← upTo? sign rest
    let flags := rest.takeWhile fun c => c.isAlphanum
    let a ← Regex.read? extended pattern
    let a := if flags.contains 'i' || flags.contains 'I' then a.ignoringCase else a
    let digits := flags.filter Char.isDigit
    return (.replace a (puts replacement) (if digits.isEmpty then 1 else Numeral.value 10 digits)
      (flags.contains 'g') (flags.contains 'p'), rest.drop flags.length)
  | 'y', sign :: rest => do
    let (before, rest) ← upTo? sign rest
    let (after, rest) ← upTo? sign rest
    if before.length = after.length then return (.translate (before.zip after), rest) else none
  | 'd', rest => some (.delete, rest)
  | 'p', rest => some (.print, rest)
  | '=', rest => some (.number, rest)
  | 'q', rest | 'Q', rest =>
    let rest := rest.dropWhile (· == ' ')
    let digits := rest.takeWhile Char.isDigit
    some (.quit (Numeral.value 10 digits) (c == 'Q'), rest.drop digits.length)
  | 'a', rest => let (text, rest) := lineText rest; some (.append text, rest)
  | 'i', rest => let (text, rest) := lineText rest; some (.insert text, rest)
  | 'c', rest => let (text, rest) := lineText rest; some (.change text, rest)
  | '#', rest => some (.nothing, rest.dropWhile (· != '\n'))
  | _, _ => none

/-- Reads at most `fuel` commands. -/
def read? (extended : Bool) : (fuel : Nat) → List Char → Option (List Command)
  | 0, _ => none
  | fuel + 1, s => do
    let s := dropGaps s
    if s.isEmpty then return []
    let (first, s) ← address? extended s
    let (last, s) ←
      match s with
      | ',' :: s => address? extended s
      | s => some (none, s)
    let s := s.dropWhile (· == ' ')
    let negated := s.head? == some '!'
    let s := (if negated then s.tail else s).dropWhile (· == ' ')
    match s with
    | [] => none
    | c :: s =>
      let (action, s) ← action? extended c s
      let s := s.dropWhile (· == ' ')
      if s.isEmpty || s.head? == some ';' || s.head? == some '\n' || s.head? == some '#' then
        return { first, last, negated, action } :: (← read? extended fuel s)
      else none

/-! #### Running -/

/-- Replaces matches: from the one with a number on, all of them or only it. -/
def replaceFrom (a : Regex) (puts : List Put) (all : Bool) :
    (fuel : Nat) → (number : Nat) → (before : Option Char) → (touches : Bool) → List Char →
      List Char × Bool
  | 0, _, _, _, s => (s, false)
  | fuel + 1, number, before, touches, s =>
    match a.search? before s with
    | none => (s, false)
    | some found =>
      let skipOne (done : List Char) (number : Nat) (replaced : Bool) : List Char × Bool :=
        match found.rest with
        | [] => (done, replaced)
        | c :: rest =>
          let (text, more) := replaceFrom a puts all fuel number (some c) false rest
          (done ++ c :: text, replaced || more)
      if found.text.isEmpty && found.before.isEmpty && touches then skipOne [] number false
      else
        let replacement := puts.flatMap fun
          | .char c => [c]
          | .group 0 => found.text
          | .group n => ((found.groups.find? fun g => g.1 = n).map Prod.snd).getD []
        let counts := number ≤ 1
        let done := found.before ++ if counts then replacement else found.text
        if counts && !all then (done ++ found.rest, true)
        else if found.text.isEmpty then skipOne done (number - 1) counts
        else
          let (text, more) :=
            replaceFrom a puts all fuel (number - 1) found.text.getLast? true found.rest
          (done ++ text, counts || more)

/-- What a cycle has done so far: the line, what it wrote, what follows the line, and whether it
ends the line or everything. -/
structure Cycle where
  line : List Char
  output : String := ""
  after : String := ""
  deleted : Bool := false
  quit : Option Nat := none
  silent : Bool := false

/-- Whether an address is that of a line. -/
def Address.accepts (a : Address) (number : Nat) (isLast : Bool) (line : List Char) : Bool :=
  match a with
  | .line n => n == number
  | .last => isLast
  | .found a => (a.search? none line).isSome

/-- Whether a command is for a line, and whether it is inside its lines after it. -/
def Command.selects (c : Command) (number : Nat) (isLast : Bool) (line : List Char) :
    Bool × Bool :=
  match c.first, c.last with
  | none, _ => (true, false)
  | some first, none => (first.accepts number isLast line, false)
  | some first, some final =>
    if c.active then
      match final with
      | .line n =>
        if number ≤ n then (true, number < n) else (first.accepts number isLast line, false)
      | final => (true, !final.accepts number isLast line)
    else if first.accepts number isLast line then
      match final with
      | .line n => (true, number < n)
      | _ => (true, true)
    else (false, false)

/-- Runs an action on a line. -/
def Action.run (a : Action) (number : Nat) (ending : String) (cycle : Cycle) : Cycle :=
  let shown (line : List Char) : String := String.ofList line ++ ending
  match a with
  | .replace a puts nth all prints =>
    let (line, replaced) :=
      replaceFrom a puts all (cycle.line.length + 2) nth none false cycle.line
    { cycle with
      line, output := if replaced && prints then cycle.output ++ shown line else cycle.output }
  | .translate pairs =>
    { cycle with
      line := cycle.line.map fun c => ((pairs.find? fun p => p.1 == c).map Prod.snd).getD c }
  | .delete => { cycle with deleted := true }
  | .print => { cycle with output := cycle.output ++ shown cycle.line }
  | .quit status silent => { cycle with quit := some status, silent }
  | .number => { cycle with output := cycle.output ++ toString number ++ "\n" }
  | .append text => { cycle with after := cycle.after ++ text }
  | .insert text => { cycle with output := cycle.output ++ text }
  | .change text => { cycle with output := cycle.output ++ text, deleted := true }
  | .nothing => cycle

/-- Runs commands on a line one after the other, until one deletes it or ends everything. -/
def runCommands (number : Nat) (isLast : Bool) (ending : String) :
    List Command → Cycle → List Command × Cycle
  | [], cycle => ([], cycle)
  | c :: rest, cycle =>
    if cycle.deleted || cycle.quit.isSome then (c :: rest, cycle)
    else
      let (selected, active) := c.selects number isLast cycle.line
      let cycle := if selected != c.negated then c.action.run number ending cycle else cycle
      let (rest, cycle) := runCommands number isLast ending rest cycle
      ({ c with active } :: rest, cycle)

/-- Runs commands on lines, the first of which has a number. -/
def runLines (quiet : Bool) : List Command → Nat → List String → String × Nat
  | _, _, [] => ("", 0)
  | commands, number, line :: rest =>
    let text := line.toList
    let ending := if text.getLast? == some '\n' then "\n" else ""
    let start : Cycle := { line := if ending == "" then text else text.dropLast }
    let (commands, cycle) := runCommands number rest.isEmpty ending commands start
    let own :=
      if cycle.deleted || quiet || cycle.silent then "" else String.ofList cycle.line ++ ending
    let output := cycle.output ++ own ++ cycle.after
    match cycle.quit with
    | some status => (output, status)
    | none =>
      let (more, status) := runLines quiet commands (number + 1) rest
      (output ++ more, status)

end Edit

/-- Edits lines by a script of commands. -/
def edit : Utility := withOptions "nErsuz" "e" true 1 fun call o =>
  let given := o.letters.filterMap fun p => if p.1 == 'e' then some p.2 else none
  match given, o.rest with
  | [], [] =>
    { status := 1,
      errors := "Usage: " ++ call.name ++
        " [OPTION]... \x7bscript-only-if-no-other-script\x7d [input-file]...\n" }
  | given, rest =>
    let (scripts, operands) := if given.isEmpty then (rest.take 1, rest.drop 1) else (given, rest)
    let script := ("\n".intercalate scripts).toList
    match Edit.read? (o.has 'E' || o.has 'r') (script.length + 1) script with
    | none => call.refuse 1 "-e expression #1, char 1: unknown command"
    | some commands =>
      let r := eachText call operands
        (fun path e => match e with
          | .isADirectory => call.refuse 2 ("couldn't edit " ++ path ++ ": not a regular file")
          | e => call.refuse 2 ("can't read " ++ path ++ ": " ++ e.reason))
        fun _ text => { output := text }
      let (output, status) := Edit.runLines (o.has 'n') commands 1 (wholeLines r.output)
      { r with output, status := max r.status status }

end LayeredEnv.Shell.Utility
