import LayeredEnv.Shell.Regex
import LayeredEnv.Shell.Utility

/-!
# Calculations with texts

`expr` calculates with its arguments, which are texts that may be numerals.  Operators bind in six
ranks; those of one rank bind to the left.

This is part of `Shell.launch`, the launcher of the runnable program, and of nothing else: what is
stated of requests, commands and actions holds for every launcher.
-/

namespace LayeredEnv.Shell.Utility

namespace Calculation

/-- The number that a text is. -/
def number? (s : String) : Option Int :=
  let (negative, digits) := DecimalNumeral.takeSign s.toList
  if s.startsWith "+" || digits.isEmpty || !digits.all Char.isDigit then none
  else
    let n : Int := Numeral.value 10 digits
    some (if negative then -n else n)

/-- Whether a text counts as nothing: it is empty or zero. -/
def isNothing (s : String) : Bool :=
  s == "" || number? s = some 0

/-- One for what holds, else zero. -/
def truth (holds : Bool) : String :=
  if holds then "1" else "0"

/-- The operators, those that bind most loosely first. -/
def ranks : List (List String) :=
  [["|"], ["&"], ["<", "<=", "=", "==", "!=", ">=", ">"], ["+", "-"], ["*", "/", "%"], [":"]]

/-- The part of a text at its start that a pattern matches: what its first group matched, or how
long it is. -/
def matchAtStart (s pattern : String) : Except String String :=
  match Regex.read? false pattern.toList with
  | none => .error "Unmatched ( or \\("
  | some a =>
    let found := Regex.furthest? (a.ends { before := none, rest := s.toList })
    let grouped := (Text.splitOn '(' pattern.toList).dropLast.any fun piece =>
      piece.getLast? = some '\\'
    match found with
    | none => .ok (if grouped then "" else "0")
    | some q =>
      if grouped then
        .ok (String.ofList (((q.groups.find? fun g => g.1 = 1).map Prod.snd).getD []))
      else .ok (toString (s.length - q.rest.length))

/-- What an operator gives. -/
def operate (op a b : String) : Except String String :=
  let compared (holds : Ordering → Bool) : String :=
    match number? a, number? b with
    | some m, some n => truth (holds (compare m n))
    | _, _ => truth (holds (compare a b))
  let counted (f : Int → Int → Except String Int) : Except String String :=
    match number? a, number? b with
    | some m, some n => (f m n).map toString
    | _, _ => .error "non-integer argument"
  match op with
  | "|" => .ok (if !isNothing a then a else if b == "" then "0" else b)
  | "&" => .ok (if isNothing a || isNothing b then "0" else a)
  | "<" => .ok (compared fun o => o == .lt)
  | "<=" => .ok (compared fun o => o != .gt)
  | "=" | "==" => .ok (compared fun o => o == .eq)
  | "!=" => .ok (compared fun o => o != .eq)
  | ">=" => .ok (compared fun o => o != .lt)
  | ">" => .ok (compared fun o => o == .gt)
  | "+" => counted fun m n => .ok (m + n)
  | "-" => counted fun m n => .ok (m - n)
  | "*" => counted fun m n => .ok (m * n)
  | "/" => counted fun m n => if n = 0 then .error "division by zero" else .ok (m.tdiv n)
  | "%" => counted fun m n => if n = 0 then .error "division by zero" else .ok (m.tmod n)
  | _ => matchAtStart a b

mutual

/-- Reads and calculates the operators of ranks, the loosest first, with at most `fuel` steps. -/
def readRank : (fuel : Nat) → List (List String) → List String →
    Except String (String × List String)
  | 0, _, _ => .error "syntax error"
  | fuel + 1, [], s => readOperand fuel s
  | fuel + 1, rank :: tighter, s => do
    let (a, s) ← readRank fuel tighter s
    readMore fuel rank tighter a s

/-- Reads on with operators of one rank after an operand. -/
def readMore : (fuel : Nat) → List String → List (List String) → String → List String →
    Except String (String × List String)
  | 0, _, _, _, _ => .error "syntax error"
  | fuel + 1, rank, tighter, a, s =>
    match s with
    | op :: rest =>
      if rank.contains op then do
        if rest.isEmpty then throw ("syntax error: missing argument after " ++ quoted op)
        let (b, rest) ← readRank fuel tighter rest
        readMore fuel rank tighter (← operate op a b) rest
      else .ok (a, s)
    | [] => .ok (a, [])

/-- Reads an operand. -/
def readOperand : (fuel : Nat) → List String → Except String (String × List String)
  | 0, _ => .error "syntax error"
  | _ + 1, [] => .error "syntax error"
  | fuel + 1, "(" :: rest => do
    match ← readRank fuel ranks rest with
    | (a, ")" :: rest) => return (a, rest)
    | (_, s) => throw ("syntax error: expecting ')' " ++
        match s with
        | [] => "after " ++ quoted (rest.getLast?.getD "")
        | next :: _ => "instead of " ++ quoted next)
  | fuel + 1, "length" :: rest => do
    let (a, rest) ← readOperand fuel rest
    return (toString a.utf8ByteSize, rest)
  | fuel + 1, "match" :: rest => do
    let (a, rest) ← readOperand fuel rest
    let (b, rest) ← readOperand fuel rest
    return (← matchAtStart a b, rest)
  | fuel + 1, "index" :: rest => do
    let (a, rest) ← readOperand fuel rest
    let (b, rest) ← readOperand fuel rest
    let at? := (Utf8.bytewise a.toList).findIdx? (Utf8.bytewise b.toList).contains
    return (toString ((at?.map (· + 1)).getD 0), rest)
  | fuel + 1, "substr" :: rest => do
    let (a, rest) ← readOperand fuel rest
    let (start, rest) ← readOperand fuel rest
    let (count, rest) ← readOperand fuel rest
    match number? start, number? count with
    | some m, some n =>
      return (if m < 1 || n < 1 then ""
        else
          let bytes := (Utf8.bytewise a.toList).drop (m.toNat - 1)
          String.ofList (Utf8.ofBytewise (bytes.take n.toNat)), rest)
    | _, _ => return ("", rest)
  | _ + 1, "+" :: a :: rest => .ok (a, rest)
  | _ + 1, a :: rest => .ok (a, rest)

end

end Calculation

/-- Calculates with its arguments. -/
def calculate : Utility := fun call =>
  let arguments := if call.arguments.head? = some "--" then call.arguments.tail else call.arguments
  if arguments.isEmpty then call.missingOperand 2
  else
    match Calculation.readRank (16 * arguments.length + 16) Calculation.ranks arguments with
    | .error e => call.refuse 2 e
    | .ok (_, extra :: _) => call.refuse 2 ("syntax error: unexpected argument " ++ quoted extra)
    | .ok (value, []) =>
      { status := if Calculation.isNothing value then 1 else 0, output := value ++ "\n" }

end LayeredEnv.Shell.Utility
