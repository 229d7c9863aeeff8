import LayeredEnv.Shell.Source

/-!
# Reading shell scripts

A text is read command by command, as a shell does: whatever stands before a flaw has run before
the flaw is found.  `readLine` reads the commands of the next line, which goes on over further lines
where a command does.

This is part of `Shell.launch`, the launcher of the runnable program, and of nothing else: what is
stated of requests, commands and actions holds for every launcher.
-/

namespace LayeredEnv.Shell

/-! ### Grammar -/

/-- How far a list of commands goes: to the end of a line, or to a token that ends lists, before
which there has to be a command or not. -/
inductive Extent
  | line
  | block
  | anyBlock
  deriving DecidableEq, Repr

/-- How a redirection with a sign opens its file. -/
def openModeOf (sign : String) : OpenMode :=
  if sign == "<" then .reading
  else if sign == ">>" then .appending
  else if sign == "<>" then .both
  else if sign == ">|" then .overwriting
  else .replacing

/-- The commands of the shell whose names no function may have. -/
def specialCommands : List String :=
  [".", ":", "break", "continue", "eval", "exec", "exit", "export", "readonly", "return", "set",
    "shift", "times", "trap", "unset"]

/-- The word that stands for all parameters. -/
def allParameters : Word :=
  [.mark, .parameter "@" .value [] true]

mutual

/-- Reads pieces to the end of their context; `fuel` bounds the number of steps. -/
def readPieces : (fuel : Nat) → Context → Reading Word
  | 0, _ => flaw "Too long"
  | fuel + 1, context => do
    match ← peek? with
    | none =>
      match context.complaint? with
      | some complaint => flaw complaint
      | none => return []
    | some c =>
      match context with
      | .bare | .marker => if isBreak c then return []
      | .double => if c == '"' then advance; return []
      | .brace _ => if c == '}' then advance; return []
      | .document => pure ()
      | .arithmetic brackets =>
        if c == '(' then
          advance
          return .char c true :: (← readPieces fuel (.arithmetic (brackets + 1)))
        if c == ')' then
          advance
          if brackets = 0 then
            if ← takeChar ')' then return []
          return .char c true :: (← readPieces fuel (.arithmetic (brackets - 1)))
      if ← joinLine then readPieces fuel context
      else
        advance
        match c with
        | '\\' =>
          match ← peek? with
          | none => return [.char c true]
          | some d =>
            if context.escapes d then
              advance
              return .char d true :: (← readPieces fuel context)
            else return .char c true :: (← readPieces fuel context)
        | '\'' =>
          if context.isQuoted then return .char c true :: (← readPieces fuel context)
          else
            let text ← readSingle
            return .mark :: text ++ (← readPieces fuel context)
        | '"' =>
          match context with
          | .document => return .char c true :: (← readPieces fuel context)
          | .arithmetic _ => readPieces fuel context
          | _ =>
            let text ← readPieces fuel .double
            return .mark :: text ++ (← readPieces fuel context)
        | '$' =>
          let start ←
            if context = .marker then pure [.char c false]
            else readDollar fuel context.isQuoted
          return start ++ (← readPieces fuel context)
        | '\x60' =>
          let start ←
            if context = .marker then pure [.char c false]
            else readBackquotes fuel context.isQuoted
          return start ++ (← readPieces fuel context)
        | c => return .char c context.isQuoted :: (← readPieces fuel context)
termination_by structural fuel => fuel

/-- Reads what follows a dollar sign. -/
def readDollar : (fuel : Nat) → Bool → Reading Word
  | 0, _ => flaw "Too long"
  | fuel + 1, quoted => do
    match (← get).rest with
    | '(' :: '(' :: _ =>
      advance
      advance
      return [.number (← readPieces fuel (.arithmetic 0)) quoted]
    | '(' :: _ =>
      advance
      let script ← readList fuel .anyBlock []
      match ← nextToken fuel false false with
      | .operator ")" => return [.output script quoted]
      | t => unexpected t (some ")")
    | '{' :: _ =>
      advance
      return [← readBraced fuel quoted]
    | c :: _ =>
      if isNameStart c then
        let name ← takeChars isNameChar
        return [.parameter (String.ofList name) .value [] quoted]
      else if isSpecial c then
        advance
        return [.parameter (String.singleton c) .value [] quoted]
      else return [.char '$' quoted]
    | [] => return [.char '$' quoted]
termination_by structural fuel => fuel

/-- Reads a parameter in braces, the first of which has been read. -/
def readBraced : (fuel : Nat) → Bool → Reading Piece
  | 0, _ => flaw "Too long"
  | fuel + 1, quoted => do
    let length ←
      match (← get).rest with
      | '#' :: rest => if asksLength rest then advance; pure true else pure false
      | _ => pure false
    let name := String.ofList (← readParameterName)
    if length then
      advance
      return .parameter name .length [] quoted
    else
      let operator ←
        if name == "" || (name == "#" && isLoneSign (← get).rest) then pure .malformed
        else readOperator
      let inside : Context :=
        match operator with
        | .withoutStart _ | .withoutEnd _ => .brace false
        | _ => .brace quoted
      return .parameter name operator (← readPieces fuel inside) quoted
termination_by structural fuel => fuel

/-- Reads a script up to a backquote. -/
def readBackquotes : (fuel : Nat) → Bool → Reading Word
  | 0, _ => flaw "Too long"
  | fuel + 1, quoted => do
    let s ← get
    match backquoted? quoted s.rest with
    | none => flaw "EOF in backquote substitution"
    | some (text, after) =>
      let passed := (s.rest.take (s.rest.length - after.length)).count '\n'
      set { s with rest := text, taken := 0, line := 1 }
      let script ← readList fuel .anyBlock []
      set { s with rest := after, line := s.line + passed }
      return [.output script quoted]
termination_by structural fuel => fuel

/-- Reads a token, after line breaks if `newlines` is set, and tells keywords from words if `words`
is set. -/
def nextToken : (fuel : Nat) → (newlines words : Bool) → Reading Token
  | 0, _, _ => flaw "Too long"
  | fuel + 1, newlines, words => do
    let s ← get
    let t ←
      match s.pushed with
      | some t => do
        set { s with pushed := none }
        pure t
      | none => freshToken fuel
    match t with
    | .newline => if newlines then nextToken fuel newlines words else return t
    | .word w =>
      match plainText? w with
      | some text =>
        let text := String.ofList text
        return if words && keywords.contains text then .keyword text else t
      | none => return t
    | t => return t
termination_by structural fuel => fuel

/-- Reads a token that was not put back. -/
def freshToken : (fuel : Nat) → Reading Token
  | 0 => flaw "Too long"
  | fuel + 1 => do
    modify fun s =>
      let (rest, lines) := skipBlanks s.rest
      { s with rest, line := s.line + lines }
    let s ← get
    match s.rest with
    | [] => return .ending
    | '\n' :: _ =>
      advance
      return .newline
    | rest =>
      match operatorAt? rest, redirectionAt? rest with
      | some text, _ =>
        set { s with rest := rest.drop text.length }
        return .operator text
      | none, some (stream, sign, length) =>
        set { s with rest := rest.drop length }
        return .redirection stream sign
      | none, none => return .word (← readPieces fuel .bare)
termination_by structural fuel => fuel

/-- Reads the target of a redirection. -/
def readRedirection : (fuel stream : Nat) → String → Reading Redirection
  | 0, _, _ => flaw "Too long"
  | fuel + 1, stream, sign => do
    if sign == "<<" || sign == "<<-" then
      modify fun s => { s with rest := (skipBlanks s.rest).1 }
      let marker ← readPieces fuel .marker
      if marker.isEmpty then unexpected (← nextToken fuel false false) none
      let line := (← get).line
      let text ← takeDocument (sign == "<<-") (charsOf marker)
      match plainText? marker with
      | none => return .document stream (quotedWord text)
      | some _ =>
        let s ← get
        set ({ rest := text, line } : Source)
        let body ← readPieces fuel .document
        set s
        return .document stream body
    else
      match ← nextToken fuel false false with
      | .word w =>
        if sign == ">&" || sign == "<&" then return .same stream w
        else return .file stream (openModeOf sign) w
      | t => unexpected t none
termination_by structural fuel => fuel

/-- Reads commands; `before` are those already read, backwards. -/
def readList : (fuel : Nat) → Extent → List Script → Reading Script
  | 0, _, _ => flaw "Too long"
  | fuel + 1, extent, before => do
    let t ← nextToken fuel (extent ≠ .line) true
    match t with
    | .newline => return .list before.reverse
    | .ending =>
      push t
      return .list before.reverse
    | _ =>
      push t
      let mayEnd := extent = .anyBlock || (extent = .block && !before.isEmpty)
      if mayEnd && endsList t then return .list before.reverse
      let item ← readConditional fuel
      match ← nextToken fuel false false with
      | .operator "&" => readList fuel extent (.background item :: before)
      | .operator ";" => readList fuel extent (item :: before)
      | .newline =>
        push .newline
        readList fuel extent (item :: before)
      | .ending =>
        push .ending
        return .list (item :: before).reverse
      | t =>
        if extent = .line then unexpected t none
        push t
        return .list (item :: before).reverse
termination_by structural fuel => fuel

/-- Reads pipelines joined by `&&` and `||`. -/
def readConditional : (fuel : Nat) → Reading Script
  | 0 => flaw "Too long"
  | fuel + 1 => do
    let first ← readPipeline fuel false
    readConditionalFrom fuel first
termination_by structural fuel => fuel

/-- Reads on after the first pipelines. -/
def readConditionalFrom : (fuel : Nat) → Script → Reading Script
  | 0, _ => flaw "Too long"
  | fuel + 1, first => do
    match ← nextToken fuel false false with
    | .operator "&&" =>
      let second ← readPipeline fuel true
      readConditionalFrom fuel (.both first second)
    | .operator "||" =>
      let second ← readPipeline fuel true
      readConditionalFrom fuel (.either first second)
    | t =>
      push t
      return first
termination_by structural fuel => fuel

/-- Reads a pipeline, possibly negated. -/
def readPipeline : (fuel : Nat) → (newlines : Bool) → Reading Script
  | 0, _ => flaw "Too long"
  | fuel + 1, newlines => do
    let negated ←
      match ← nextToken fuel newlines true with
      | .keyword "!" => pure true
      | t =>
        push t
        pure false
    let first ← readCommand fuel false
    let stages ← readStages fuel [first]
    let whole :=
      match stages with
      | [stage] => stage
      | stages => .pipeline stages
    return if negated then .negation whole else whole
termination_by structural fuel => fuel

/-- Reads further stages of a pipeline; `before` are those already read, backwards. -/
def readStages : (fuel : Nat) → List Script → Reading (List Script)
  | 0, _ => flaw "Too long"
  | fuel + 1, before => do
    match ← nextToken fuel false false with
    | .operator "|" =>
      let stage ← readCommand fuel true
      readStages fuel (stage :: before)
    | t =>
      push t
      return before.reverse
termination_by structural fuel => fuel

/-- Reads one command. -/
def readCommand : (fuel : Nat) → (newlines : Bool) → Reading Script
  | 0, _ => flaw "Too long"
  | fuel + 1, newlines => do
    let t ← nextToken fuel newlines true
    let line := (← get).line
    match t with
    | .keyword "if" =>
      let script ← readBranch fuel
      readRedirected fuel line script
    | .keyword "while" => readLoop fuel line true
    | .keyword "until" => readLoop fuel line false
    | .keyword "for" => readEach fuel line
    | .keyword "case" =>
      match ← nextToken fuel false false with
      | .word subject =>
        expect fuel true "in"
        let cases ← readCases fuel []
        readRedirected fuel line (.choice line subject cases)
      | t => unexpected t (some "word")
    | .operator "(" =>
      let body ← readList fuel .block []
      expect fuel false ")"
      return .subshell line body (← readRedirections fuel [])
    | .keyword "\x7b" =>
      let body ← readList fuel .block []
      expect fuel false "\x7d"
      readRedirected fuel line body
    | .word _ | .redirection _ _ =>
      push t
      readSimple fuel line [] [] []
    | t => unexpected t none
termination_by structural fuel => fuel

/-- Reads a token that has to come next. -/
def expect : (fuel : Nat) → (newlines : Bool) → String → Reading Unit
  | 0, _, _ => flaw "Too long"
  | fuel + 1, newlines, text => do
    match ← nextToken fuel newlines true with
    | .keyword found => if found != text then unexpected (.keyword found) (some text)
    | .operator found => if found != text then unexpected (.operator found) (some text)
    | t => unexpected t (some text)
termination_by structural fuel => fuel

/-- Reads a branch after its keyword. -/
def readBranch : (fuel : Nat) → Reading Script
  | 0 => flaw "Too long"
  | fuel + 1 => do
    let condition ← readList fuel .block []
    expect fuel false "then"
    let yes ← readList fuel .block []
    match ← nextToken fuel false true with
    | .keyword "elif" => return .branch condition yes (some (← readBranch fuel))
    | .keyword "else" =>
      let no ← readList fuel .block []
      expect fuel false "fi"
      return .branch condition yes (some no)
    | .keyword "fi" => return .branch condition yes none
    | t => unexpected t (some "fi")
termination_by structural fuel => fuel

/-- Reads a loop after its keyword. -/
def readLoop : (fuel line : Nat) → Bool → Reading Script
  | 0, _, _ => flaw "Too long"
  | fuel + 1, line, succeeds => do
    let condition ← readList fuel .block []
    expect fuel false "do"
    let body ← readList fuel .block []
    expect fuel false "done"
    readRedirected fuel line (.loop succeeds condition body)
termination_by structural fuel => fuel

/-- Reads a loop over words after its keyword. -/
def readEach : (fuel line : Nat) → Reading Script
  | 0, _ => flaw "Too long"
  | fuel + 1, line => do
    let name ←
      match ← nextToken fuel false false with
      | .word w =>
        match plainText? w with
        | some name =>
          if isName name then pure (String.ofList name) else flaw "Bad for loop variable"
        | none => flaw "Bad for loop variable"
      | _ => flaw "Bad for loop variable"
    let words ←
      match ← nextToken fuel true true with
      | .keyword "in" => readWords fuel []
      | .operator ";" => pure [allParameters]
      | t =>
        push t
        pure [allParameters]
    expect fuel true "do"
    let body ← readList fuel .block []
    expect fuel false "done"
    readRedirected fuel line (.each line name words body)
termination_by structural fuel => fuel

/-- Reads words to the end of a line or a semicolon. -/
def readWords : (fuel : Nat) → List Word → Reading (List Word)
  | 0, _ => flaw "Too long"
  | fuel + 1, before => do
    match ← nextToken fuel false false with
    | .word w => readWords fuel (w :: before)
    | .newline | .operator ";" => return before.reverse
    | t => unexpected t none
termination_by structural fuel => fuel

/-- Reads cases up to the keyword that ends them. -/
def readCases : (fuel : Nat) → List (List Word × Script) → Reading (List (List Word × Script))
  | 0, _ => flaw "Too long"
  | fuel + 1, before => do
    match ← nextToken fuel true true with
    | .keyword "esac" => return before.reverse
    | t =>
      let t ←
        match t with
        | .operator "(" => nextToken fuel false false
        | t => pure t
      let patterns ← readPatterns fuel t []
      let body ← readList fuel .anyBlock []
      match ← nextToken fuel true true with
      | .keyword "esac" => return ((patterns, body) :: before).reverse
      | .operator ";;" => readCases fuel ((patterns, body) :: before)
      | t => unexpected t (some ";;")
termination_by structural fuel => fuel

/-- Reads the patterns of a case from a token on. -/
def readPatterns : (fuel : Nat) → Token → List Word → Reading (List Word)
  | 0, _, _ => flaw "Too long"
  | fuel + 1, t, before => do
    let pattern : Word :=
      match t with
      | .word w => w
      | .keyword text => text.toList.map fun c => .char c false
      | _ => []
    match ← nextToken fuel false false with
    | .operator "|" => readPatterns fuel (← nextToken fuel false false) (pattern :: before)
    | .operator ")" => return (pattern :: before).reverse
    | t => unexpected t (some ")")
termination_by structural fuel => fuel

/-- Reads redirections as long as there are any. -/
def readRedirections : (fuel : Nat) → List Redirection → Reading (List Redirection)
  | 0, _ => flaw "Too long"
  | fuel + 1, before => do
    match ← nextToken fuel false true with
    | .redirection stream sign =>
      let r ← readRedirection fuel stream sign
      readRedirections fuel (r :: before)
    | t =>
      push t
      return before.reverse
termination_by structural fuel => fuel

/-- Reads the redirections of a script that was read. -/
def readRedirected : (fuel line : Nat) → Script → Reading Script
  | 0, _, _ => flaw "Too long"
  | fuel + 1, line, script => do
    let redirections ← readRedirections fuel []
    return if redirections.isEmpty then script else .redirected line script redirections
termination_by structural fuel => fuel

/-- Reads a simple command or the definition of a function. -/
def readSimple : (fuel line : Nat) → (settings : List (String × Word)) → (words : List Word) →
    (redirections : List Redirection) → Reading Script
  | 0, _, _, _, _ => flaw "Too long"
  | fuel + 1, line, settings, words, redirections => do
    match ← nextToken fuel false false with
    | .word w =>
      match words, settingOf? w with
      | [], some setting => readSimple fuel line (settings ++ [setting]) words redirections
      | _, _ => readSimple fuel line settings (words ++ [w]) redirections
    | .redirection stream sign =>
      let r ← readRedirection fuel stream sign
      readSimple fuel line settings words (redirections ++ [r])
    | t =>
      match t, settings, words, redirections with
      | .operator "(", [], [w], [] =>
        expect fuel false ")"
        match plainText? w with
        | some name =>
          let name := String.ofList name
          if isName name.toList && !specialCommands.contains name then
            return .definition name (← readCommand fuel true)
          else flaw "Bad function name"
        | none => flaw "Bad function name"
      | t, _, _, _ =>
        push t
        return .simple line settings words redirections
termination_by structural fuel => fuel

end

/-- The fuel that is enough for a text: no step is taken twice without a character in between. -/
def fuelFor (s : Source) : Nat :=
  16 * s.rest.length + 256

/-- Reads the commands of the next line; `none` at the end of the text. -/
def readLine (s : Source) : Except Flaw (Option (Script × Source)) :=
  let fuel := fuelFor s
  let reading : Reading (Option Script) := do
    match ← nextToken fuel false false with
    | .ending => return none
    | .newline => return some (.list [])
    | t =>
      push t
      return some (← readList fuel .line [])
  match reading s with
  | .error f => .error f
  | .ok (none, _) => .ok none
  | .ok (some script, s) => .ok (some (script, s))

end LayeredEnv.Shell
