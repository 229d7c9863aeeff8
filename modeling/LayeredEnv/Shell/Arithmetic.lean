import LayeredEnv.Number.Binary64
import LayeredEnv.Shell.Script

/-!
# Arithmetic of the shell

An expression over integers of 64 bits with the operators of C: it is read into an `Expression`,
which is then evaluated over the variables of the shell and may set some of them.  A mistake in an
expression shows only when its evaluation comes to it, so that a division by zero before it is told
first.

This is part of `Shell.launch`, the launcher of the runnable program, and of nothing else: what is
stated of requests, commands and actions holds for every launcher.
-/

namespace LayeredEnv.Shell

/-- A token of an expression. -/
inductive ArithmeticToken
  | number (n : Int)
  | name (text : String)
  | sign (text : String)
  deriving DecidableEq, Repr

/-- An expression. -/
inductive Expression
  | number (n : Int)
  | variable (name : String)
  | unary (sign : String) (operand : Expression)
  | binary (sign : String) (left right : Expression)
  | both (left right : Expression)
  | either (left right : Expression)
  | choice (condition yes no : Expression)
  /-- Sets a variable, possibly after an operation on its value. -/
  | assign (name : String) (sign : Option String) (value : Expression)
  /-- A mistake where an operand should be. -/
  | flaw (reason : String)
  /-- An expression with a mistake right after it. -/
  | cut (e : Expression) (reason : String)
  deriving Repr

namespace Expression

/-! ### Numbers -/

/-- The integer of 64 bits that agrees with a number up to a multiple of 2⁶⁴. -/
def wrap (n : Int) : Int :=
  Int.bmod n (Nat.pow 2 64)

/-- The nearest integer of 64 bits. -/
def clamp (n : Int) : Int :=
  max (-Int.pow 2 63) (min (Int.pow 2 63 - 1) n)

/-- The number at the start of a text, whose base its first characters tell, and what follows
it. -/
def takeNumber (s : List Char) : Int × List Char :=
  let based (base : Nat) (s : List Char) : Int × List Char :=
    let digits := s.takeWhile fun c => (Numeral.digit? base c).isSome
    (clamp (Numeral.value base digits), s.drop digits.length)
  match s with
  | '0' :: x :: d :: rest =>
    if (x == 'x' || x == 'X') && (Numeral.digit? 16 d).isSome then based 16 (d :: rest)
    else based 8 ('0' :: x :: d :: rest)
  | '0' :: rest => based 8 ('0' :: rest)
  | s => based 10 s

/-- Whether a character is a blank between tokens. -/
def isGap (c : Char) : Bool :=
  c == ' ' || c == '\t' || c == '\n'

/-- The number that a whole text is, blanks at its ends aside; an empty text is zero. -/
def numberOf? (s : List Char) : Option Int :=
  let s := s.dropWhile isGap
  let (negative, digits) := DecimalNumeral.takeSign s
  if s.isEmpty then some 0
  else
    match digits with
    | [] => none
    | c :: _ =>
      let (n, rest) := takeNumber digits
      if c.isDigit && rest.all isGap then some (if negative then -n else n) else none

/-! ### Tokens -/

/-- The signs, longer ones before those that they begin with. -/
def signs : List String :=
  ["<<=", ">>=", "<=", ">=", "<<", ">>", "==", "!=", "&&", "||", "*=", "/=", "%=", "+=", "-=",
    "&=", "^=", "|="]

/-- The token at the start of a text, and what follows it. -/
def tokenAt (c : Char) (rest : List Char) : ArithmeticToken × List Char :=
  if c.isDigit then
    let (n, rest) := takeNumber (c :: rest)
    (.number n, rest)
  else if isNameStart c then
    let name := c :: rest.takeWhile isNameChar
    (.name (String.ofList name), (c :: rest).drop name.length)
  else
    match signs.find? fun s => s.toList.isPrefixOf (c :: rest) with
    | some sign => (.sign sign, (c :: rest).drop sign.length)
    | none => (.sign (String.singleton c), rest)

/-- The tokens of a text. -/
def tokens (s : List Char) : List ArithmeticToken :=
  match s with
  | [] => []
  | c :: rest =>
    if isGap c then tokens rest
    else
      let (t, after) := tokenAt c rest
      if _h : after.length ≤ rest.length then t :: tokens after else [t]
termination_by s.length

/-! ### Grammar -/

/-- How tightly an operator with two operands binds, from one on. -/
def strength? (sign : String) : Option Nat :=
  if sign == "*" || sign == "/" || sign == "%" then some 8
  else if sign == "+" || sign == "-" then some 7
  else if sign == "<<" || sign == ">>" then some 6
  else if sign == "<" || sign == "<=" || sign == ">" || sign == ">=" then some 5
  else if sign == "==" || sign == "!=" then some 4
  else if sign == "&" then some 3
  else if sign == "^" then some 2
  else if sign == "|" then some 1
  else none

/-- The operation of a sign that sets a variable; `none` inside if it only sets it. -/
def assignment? (sign : String) : Option (Option String) :=
  if sign == "=" then some none
  else if ["<<=", ">>=", "*=", "/=", "%=", "+=", "-=", "&=", "^=", "|="].contains sign then
    some (some (String.ofList sign.toList.dropLast))
  else none

/-- What was read from tokens, and those that are left. -/
abbrev Read := Expression × List ArithmeticToken

mutual

/-- Reads an operand. -/
def readOperand : (fuel : Nat) → List ArithmeticToken → Read
  | 0, _ => (.flaw "expecting primary", [])
  | fuel + 1, tokens =>
    match tokens with
    | .number n :: rest => (.number n, rest)
    | .name name :: rest => (.variable name, rest)
    | .sign "(" :: rest =>
      match readWhole fuel rest with
      | (e, .sign ")" :: rest) => (e, rest)
      | (e, _) => (.cut e "expecting ')'", [])
    | .sign sign :: rest =>
      if sign == "-" || sign == "+" || sign == "!" || sign == "~" then
        let (e, rest) := readOperand fuel rest
        (.unary sign e, rest)
      else (.flaw "expecting primary", [])
    | [] => (.flaw "expecting primary", [])

/-- Reads on after a first operand, as long as operators bind at least as tightly as asked for. -/
def readBinaryFrom : (fuel strength : Nat) → Expression → List ArithmeticToken → Read
  | 0, _, left, tokens => (left, tokens)
  | fuel + 1, strength, left, tokens =>
    match tokens with
    | .sign sign :: rest =>
      match strength? sign with
      | some own =>
        if strength ≤ own then
          let (right, rest) := readOperand fuel rest
          let (right, rest) := readBinaryFrom fuel (own + 1) right rest
          readBinaryFrom fuel strength (.binary sign left right) rest
        else (left, tokens)
      | none => (left, tokens)
    | _ => (left, tokens)

/-- Reads operands joined by `&&`. -/
def readBoth : (fuel : Nat) → List ArithmeticToken → Read
  | 0, _ => (.flaw "expecting primary", [])
  | fuel + 1, tokens =>
    let (first, rest) := readOperand fuel tokens
    match readBinaryFrom fuel 1 first rest with
    | (left, .sign "&&" :: rest) =>
      let (right, rest) := readBoth fuel rest
      (.both left right, rest)
    | read => read

/-- Reads operands joined by `||`. -/
def readEither : (fuel : Nat) → List ArithmeticToken → Read
  | 0, _ => (.flaw "expecting primary", [])
  | fuel + 1, tokens =>
    match readBoth fuel tokens with
    | (left, .sign "||" :: rest) =>
      let (right, rest) := readEither fuel rest
      (.either left right, rest)
    | read => read

/-- Reads a condition with its two results, or anything that binds more tightly. -/
def readChoice : (fuel : Nat) → List ArithmeticToken → Read
  | 0, _ => (.flaw "expecting primary", [])
  | fuel + 1, tokens =>
    match readEither fuel tokens with
    | (condition, .sign "?" :: rest) =>
      match readWhole fuel rest with
      | (yes, .sign ":" :: rest) =>
        let (no, rest) := readChoice fuel rest
        (.choice condition yes no, rest)
      | (yes, _) => (.choice condition (.cut yes "expecting ':'") (.number 0), [])
    | read => read

/-- Reads an expression. -/
def readWhole : (fuel : Nat) → List ArithmeticToken → Read
  | 0, _ => (.flaw "expecting primary", [])
  | fuel + 1, tokens =>
    match tokens with
    | .name name :: .sign sign :: rest =>
      match assignment? sign with
      | some operation =>
        let (value, rest) := readWhole fuel rest
        (.assign name operation value, rest)
      | none => readChoice fuel tokens
    | tokens => readChoice fuel tokens

end

/-- Reads an expression that fills the text. -/
def read (s : List Char) : Expression :=
  let all := tokens s
  match readWhole (8 * all.length + 16) all with
  | (e, []) => e
  | (e, _) => .cut e "expecting EOF"

/-- The first mistake in an expression. -/
def flaw? : Expression → Option String
  | .number _ | .variable _ => none
  | .unary _ e => e.flaw?
  | .binary _ a b | .both a b | .either a b => a.flaw?.or b.flaw?
  | .choice c a b => (c.flaw?.or a.flaw?).or b.flaw?
  | .assign _ _ e => e.flaw?
  | .flaw reason => some reason
  | .cut e reason => e.flaw?.or (some reason)

/-! ### Values -/

/-- The result of an operator with two operands; `none` for a division by zero. -/
def result? (sign : String) (m n : Int) : Option Int :=
  let truth (b : Bool) : Option Int := some (if b then 1 else 0)
  let bits (f : Nat → Nat → Nat) : Option Int :=
    some (wrap (f (m % Int.pow 2 64).toNat (n % Int.pow 2 64).toNat))
  let shift := (n % 64).toNat
  if sign == "*" then some (wrap (m * n))
  else if sign == "/" then if n = 0 then none else some (wrap (Int.tdiv m n))
  else if sign == "%" then if n = 0 then none else some (wrap (Int.tmod m n))
  else if sign == "+" then some (wrap (m + n))
  else if sign == "-" then some (wrap (m - n))
  else if sign == "<<" then some (wrap (m * Int.pow 2 shift))
  else if sign == ">>" then some (Int.fdiv m (Int.pow 2 shift))
  else if sign == "<" then truth (decide (m < n))
  else if sign == "<=" then truth (decide (m ≤ n))
  else if sign == ">" then truth (decide (n < m))
  else if sign == ">=" then truth (decide (n ≤ m))
  else if sign == "==" then truth (m == n)
  else if sign == "!=" then truth (m != n)
  else if sign == "&" then bits Nat.land
  else if sign == "^" then bits Nat.xor
  else bits Nat.lor

/-- The result of an operator with one operand. -/
def applyUnary (sign : String) (n : Int) : Int :=
  if sign == "-" then wrap (-n)
  else if sign == "!" then if n = 0 then 1 else 0
  else if sign == "~" then -n - 1
  else n

/-- Why an expression has no value. -/
inductive Refusal
  | malformed (reason : String)
  | badNumber (text : String)
  deriving DecidableEq, Repr

/-- A computation over variables, which are looked up by name and set to numbers. -/
abbrev Evaluation (α : Type) := StateT (List (String × Int)) (Except Refusal) α

/-- The number that a variable holds. -/
def lookUp (value? : String → Option String) (name : String) : Evaluation Int := do
  match (← get).find? fun p => p.1 == name with
  | some (_, n) => return n
  | none =>
    match value? name with
    | none => return 0
    | some text =>
      match numberOf? text.toList with
      | some n => return n
      | none => throw (.badNumber text)

/-- The result of an operator, unless it divides by zero. -/
def operate (sign : String) (m n : Int) : Evaluation Int :=
  match result? sign m n with
  | some r => return r
  | none => throw (.malformed "division by zero")

/-- Passes over an expression that is not evaluated, unless there is a mistake in it. -/
def passOver (e : Expression) : Evaluation Unit :=
  match e.flaw? with
  | some reason => throw (.malformed reason)
  | none => return

/-- The value of an expression. -/
def evaluate (value? : String → Option String) : Expression → Evaluation Int
  | .number n => return n
  | .variable name => lookUp value? name
  | .unary sign e => return applyUnary sign (← evaluate value? e)
  | .binary sign a b => do
    let m ← evaluate value? a
    let n ← evaluate value? b
    operate sign m n
  | .both a b => do
    if (← evaluate value? a) = 0 then
      passOver b
      return 0
    else return if (← evaluate value? b) = 0 then 0 else 1
  | .either a b => do
    if (← evaluate value? a) ≠ 0 then
      passOver b
      return 1
    else return if (← evaluate value? b) = 0 then 0 else 1
  | .choice c a b => do
    if (← evaluate value? c) ≠ 0 then
      let n ← evaluate value? a
      passOver b
      return n
    else
      passOver a
      evaluate value? b
  | .assign name operation e => do
    let n ← evaluate value? e
    let r ←
      match operation with
      | none => pure n
      | some sign => do
        let m ← lookUp value? name
        operate sign m n
    modify ((name, r) :: ·)
    return r
  | .flaw reason => throw (.malformed reason)
  | .cut e reason => do
    let _ ← evaluate value? e
    throw (.malformed reason)

/-- The value of an expression given as text, and the variables that it sets, in order. -/
def valueOf (value? : String → Option String) (s : List Char) :
    Except Refusal (Int × List (String × Int)) :=
  match (evaluate value? (read s)).run [] with
  | .error r => .error r
  | .ok (n, settings) => .ok (n, settings.reverse)

end Expression

end LayeredEnv.Shell
