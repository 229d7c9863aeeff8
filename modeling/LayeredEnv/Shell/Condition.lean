import LayeredEnv.FileTree
import LayeredEnv.Number.Binary64

/-!
# Conditions

The conditions that `test` and `[` decide: comparisons of texts and of numbers, questions about
files, and how they are joined.  Up to three arguments a condition means what it looks like; beyond
that the longest reading wins.

This is part of `Shell.launch`, the launcher of the runnable program, and of nothing else: what is
stated of requests, commands and actions holds for every launcher.
-/

namespace LayeredEnv.Shell.Condition

/-- What an argument may be in a condition. -/
inductive Role
  | ending
  | operand
  | unary
  | binary
  | negation
  | conjunction
  | disjunction
  | opening
  | closing
  deriving DecidableEq, Repr

/-- The operators with one operand. -/
def unaryOperators : List String :=
  ["-r", "-w", "-x", "-e", "-f", "-d", "-c", "-b", "-p", "-u", "-g", "-k", "-s", "-t", "-z", "-n",
    "-h", "-O", "-G", "-L", "-S"]

/-- The operators with two operands. -/
def binaryOperators : List String :=
  ["=", "!=", "<", ">", "-eq", "-ne", "-ge", "-gt", "-le", "-lt", "-nt", "-ot", "-ef"]

/-- Whether what follows an operator with one operand makes an operand of it. -/
def isOperand : List String → Bool
  | [] => true
  | [_] => false
  | next :: _ => binaryOperators.contains next

/-- The role of the first argument. -/
def role : List String → Role
  | [] => .ending
  | s :: rest =>
    if unaryOperators.contains s then if isOperand rest then .operand else .unary
    else if binaryOperators.contains s then .binary
    else if s == "!" then .negation
    else if s == "-a" then .conjunction
    else if s == "-o" then .disjunction
    else if s == "(" then if rest.isEmpty then .operand else .opening
    else if s == ")" then .closing
    else .operand

/-- The number that a text is, blanks at its ends aside. -/
def numberOf? (s : String) : Option Int :=
  let isGap (c : Char) : Bool := c == ' ' || (0x09 ≤ c.toNat && c.toNat ≤ 0x0D)
  let (negative, digits) := DecimalNumeral.takeSign (s.toList.dropWhile isGap)
  let (digits, rest) := digits.span Numeral.isDecimalDigit
  let n : Int := Numeral.value 10 digits
  if digits.isEmpty || !rest.all isGap || Int.pow 2 63 ≤ n then none
  else some (if negative then -n else n)

/-- The number that a text has to be. -/
def number (s : String) : Except String Int :=
  match numberOf? s with
  | some n => .ok n
  | none => .error ("Illegal number: " ++ s)

/-- Whether a file passes a question about it. -/
def fileHolds (tree : FileTree) (operator : String) (path : Path) : Bool :=
  let node? : Option Node :=
    match tree.locate path with
    | .ok place => tree.node? place
    | .error _ => none
  match operator, node? with
  | "-f", some (.file ..) => true
  | "-d", some .directory | "-c", some .device => true
  | "-x", some (.file _ executable) => executable
  | "-x", some .directory => true
  | "-s", some (.file bytes _) => !bytes.isEmpty
  | "-s", some .directory => true
  | "-e", some _ | "-r", some _ | "-w", some _ | "-O", some _ | "-G", some _ => true
  | "-h", _ | "-L", _ =>
    match tree.entry path with
    | .ok place => (tree.node? place).any fun | .link _ => true | _ => false
    | .error _ => false
  | _, _ => false

/-- Whether an operator with one operand holds. -/
def unaryHolds (tree : FileTree) (operator operand : String) : Except String Bool :=
  if operator == "-z" then .ok (operand == "")
  else if operator == "-n" then .ok (operand != "")
  else if operator == "-t" then (number operand).map fun _ => false
  else .ok (fileHolds tree operator ⟨operand⟩)

/-- Whether an operator with two operands holds. -/
def binaryHolds (tree : FileTree) (a operator b : String) : Except String Bool :=
  let numbers (test : Int → Int → Bool) : Except String Bool := do
    let m ← number a
    let n ← number b
    return test m n
  match operator with
  | "=" => .ok (a == b)
  | "!=" => .ok (a != b)
  | "<" => .ok (decide (a < b))
  | ">" => .ok (decide (b < a))
  | "-eq" => numbers (· == ·)
  | "-ne" => numbers (· != ·)
  | "-ge" => numbers fun m n => decide (n ≤ m)
  | "-gt" => numbers fun m n => decide (n < m)
  | "-le" => numbers fun m n => decide (m ≤ n)
  | "-lt" => numbers fun m n => decide (m < n)
  | "-ef" =>
    .ok <| match tree.locate ⟨a⟩, tree.locate ⟨b⟩ with
      | .ok x, .ok y => x == y
      | _, _ => false
  | "-nt" => .ok (tree.pathExists ⟨a⟩ && !tree.pathExists ⟨b⟩)
  | _ => .ok (tree.pathExists ⟨b⟩ && !tree.pathExists ⟨a⟩)

/-- Decides something at the start of arguments and gives them from its last one on. -/
abbrev Decider := List String → Except String (Bool × List String)

mutual

/-- Decides conditions joined by `-o`. -/
def decideEither (tree : FileTree) : (fuel : Nat) → Decider
  | 0, _ => .error "argument expected"
  | fuel + 1, arguments => do
    let (first, arguments) ← decideBoth tree fuel arguments
    if role arguments.tail = .disjunction then
      let (second, arguments) ← decideEither tree fuel arguments.tail.tail
      return (first || second, arguments)
    else return (first, arguments)

/-- Decides conditions joined by `-a`. -/
def decideBoth (tree : FileTree) : (fuel : Nat) → Decider
  | 0, _ => .error "argument expected"
  | fuel + 1, arguments => do
    let (first, arguments) ← decideNegated tree fuel arguments
    if role arguments.tail = .conjunction then
      let (second, arguments) ← decideBoth tree fuel arguments.tail.tail
      return (first && second, arguments)
    else return (first, arguments)

/-- Decides a condition that may be negated. -/
def decideNegated (tree : FileTree) : (fuel : Nat) → Decider
  | 0, _ => .error "argument expected"
  | fuel + 1, arguments =>
    if role arguments = .negation then do
      let next := if arguments.tail.isEmpty then arguments else arguments.tail
      if arguments.tail.isEmpty then return (true, next)
      let (holds, rest) ← decideNegated tree fuel next
      return (!holds, rest)
    else decideOne tree fuel arguments

/-- Decides a single condition. -/
def decideOne (tree : FileTree) : (fuel : Nat) → Decider
  | 0, _ => .error "argument expected"
  | fuel + 1, arguments =>
    match role arguments, arguments with
    | .opening, _ :: inside =>
      if role inside = .closing then .ok (false, inside)
      else do
        let (holds, rest) ← decideEither tree fuel inside
        if role rest.tail = .closing then return (holds, rest.tail)
        else throw "closing paren expected"
    | .unary, operator :: rest =>
      match rest with
      | operand :: _ => do return (← unaryHolds tree operator operand, rest)
      | [] => .error (operator ++ ": argument expected")
    | _, a :: rest =>
      if role rest = .binary then
        match rest with
        | operator :: b :: more => do
          return (← binaryHolds tree a operator b, b :: more)
        | operator :: [] => .error (operator ++ ": argument expected")
        | [] => .ok (a != "", arguments)
      else .ok (a != "", arguments)
    | _, [] => .ok (false, [])

end

/-- Decides a condition that fills the arguments. -/
def decideAll (tree : FileTree) (arguments : List String) : Except String Bool := do
  let (holds, rest) ← decideEither tree (4 * arguments.length + 8) arguments
  match rest with
  | operator :: _ :: _ => throw (operator ++ ": unexpected operator")
  | _ => return holds

/-- Whether a condition holds, or what is wrong with it. -/
def holds (tree : FileTree) (arguments : List String) : Except String Bool :=
  match arguments with
  | [] => .ok false
  | [a, operator, b] =>
    if binaryOperators.contains operator then binaryHolds tree a operator b
    else if a == "(" && b == ")" then decideAll tree [operator]
    else if a == "!" then (holds tree [operator, b]).map (!·)
    else decideAll tree arguments
  | [a, b, c, d] =>
    if a == "(" && d == ")" then decideAll tree [b, c]
    else if a == "!" then (holds tree [b, c, d]).map (!·)
    else decideAll tree arguments
  | arguments => decideAll tree arguments

end LayeredEnv.Shell.Condition
