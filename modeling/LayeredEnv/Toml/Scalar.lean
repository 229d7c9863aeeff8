import LayeredEnv.Toml.Moment
import LayeredEnv.Toml.Value

/-!
# Scalars of a TOML document

Strings in their four forms, and the unquoted scalars: truth values, integers, floating-point
numbers, dates and times.  An unquoted scalar is read from the whole run of characters that may
belong to one.
-/

namespace LayeredEnv.Toml

/-- Reads something at the start of a text and gives what follows it. -/
abbrev Reader (α : Type) := List Char → Option (α × List Char)

/-! ### Characters -/

/-- Whether a character may stand in a comment or in a string of one line: a tab, or no control. -/
def isPlain (c : Char) : Bool :=
  c == '\t' || (0x20 ≤ c.toNat && c.toNat != 0x7F)

/-- Whether a character separates tokens on a line. -/
def isGap (c : Char) : Bool :=
  c == ' ' || c == '\t'

/-- Whether a character may stand in a bare key. -/
def isBareKeyChar (c : Char) : Bool :=
  c.isAlphanum || c == '-' || c == '_'

/-! ### Strings -/

/-- The character with a number, unless the number is a surrogate or past the last character. -/
def charOfNumber? (n : Nat) : Option Char :=
  if h : n.isValidChar then some (Char.ofNatAux n h) else none

/-- The character of exactly `count` hexadecimal digits. -/
def charOfHex? (count : Nat) (s : List Char) : Option Char :=
  let digits := s.take count
  if digits.length = count ∧ digits.all fun c => (Numeral.digit? 16 c).isSome then
    charOfNumber? (Numeral.value 16 digits)
  else none

/-- The character of an escape, whose backslash has been read, and the number of characters that
the escape takes. -/
def escape? : List Char → Option (Char × Nat)
  | [] => none
  | c :: rest =>
    match c with
    | 'b' => some ('\x08', 1)
    | 't' => some ('\t', 1)
    | 'n' => some ('\n', 1)
    | 'f' => some ('\x0c', 1)
    | 'r' => some ('\r', 1)
    | 'e' => some ('\x1b', 1)
    | '"' => some ('"', 1)
    | '\\' => some ('\\', 1)
    | 'x' => (charOfHex? 2 rest).map fun d => (d, 3)
    | 'u' => (charOfHex? 4 rest).map fun d => (d, 5)
    | 'U' => (charOfHex? 8 rest).map fun d => (d, 9)
    | _ => none

/-- Reads a basic string whose quote has been read. -/
def readBasic (s : List Char) : Option (List Char × List Char) :=
  match s with
  | [] => none
  | c :: rest =>
    if c == '"' then some ([], rest)
    else if c == '\\' then
      match escape? rest with
      | none => none
      | some (d, taken) => (readBasic (rest.drop taken)).map fun (text, s) => (d :: text, s)
    else if isPlain c then (readBasic rest).map fun (text, s) => (c :: text, s)
    else none
termination_by s.length
decreasing_by all_goals (simp only [List.length_cons, List.length_drop]; omega)

/-- Reads a literal string whose quote has been read. -/
def readLiteral : List Char → Option (List Char × List Char)
  | [] => none
  | c :: rest =>
    if c == '\'' then some ([], rest)
    else if isPlain c then (readLiteral rest).map fun (text, s) => (c :: text, s)
    else none

/-- The text without a line break at its start. -/
def dropLineBreak : List Char → List Char
  | '\n' :: rest => rest
  | '\r' :: '\n' :: rest => rest
  | s => s

/-- The text without the blanks and line breaks at its start. -/
def dropSpace : List Char → List Char
  | '\r' :: '\n' :: rest => dropSpace rest
  | c :: rest => if isGap c || c == '\n' then dropSpace rest else c :: rest
  | [] => []

theorem length_dropSpace_le (s : List Char) : (dropSpace s).length ≤ s.length := by
  fun_induction dropSpace s with
  | case1 rest ih => simp; omega
  | case2 c rest _ _ ih => simp; omega
  | case3 => simp
  | case4 => simp

/-- What follows a backslash at the end of a line, which stands for nothing together with all the
blanks and line breaks after it; `none` if the line goes on. -/
def continuation? (s : List Char) : Option (List Char) :=
  let s := s.dropWhile isGap
  if dropLineBreak s == s then none else some (dropSpace s)

theorem length_continuation?_le {s t : List Char} (h : continuation? s = some t) :
    t.length ≤ s.length := by
  unfold continuation? at h
  simp only at h
  split at h
  · simp at h
  · obtain rfl := Option.some.inj h
    exact Nat.le_trans (length_dropSpace_le _) (List.dropWhile_sublist isGap).length_le

/-- Whether a text starts with a line break that ends in the character at hand. -/
def isLineBreak (c : Char) (rest : List Char) : Bool :=
  c == '\n' || (c == '\r' && rest.head? == some '\n')

/-- How many times `q` stands at the start of a text. -/
def countAtStart (q : Char) (s : List Char) : Nat :=
  (s.takeWhile (· == q)).length

/-- What a run of quotes inside a string of several lines means: up to two are text, three end the
string, and of four or five all but the last three are text. -/
inductive QuoteRun
  | text
  | closing (before : Nat)
  | tooLong

/-- The meaning of a run of quotes. -/
def quoteRun (count : Nat) : QuoteRun :=
  if count < 3 then .text else if count ≤ 5 then .closing (count - 3) else .tooLong

/-- Reads a basic string of several lines after its opening quotes. -/
def readBasicLines (s : List Char) : Option (List Char × List Char) :=
  match s with
  | [] => none
  | c :: rest =>
    if c == '"' then
      match quoteRun (countAtStart '"' s) with
      | .text => (readBasicLines rest).map fun (text, s) => (c :: text, s)
      | .closing before => some (List.replicate before '"', s.drop (before + 3))
      | .tooLong => none
    else if c == '\\' then
      match _h : continuation? rest with
      | some after => readBasicLines after
      | none =>
        match escape? rest with
        | none => none
        | some (d, taken) => (readBasicLines (rest.drop taken)).map fun (text, s) => (d :: text, s)
    else if isPlain c || isLineBreak c rest then
      (readBasicLines rest).map fun (text, s) => (c :: text, s)
    else none
termination_by s.length
decreasing_by
  · simp
  · have := length_continuation?_le _h
    simp
    omega
  · simp only [List.length_cons, List.length_drop]; omega
  · simp

/-- Reads a literal string of several lines after its opening quotes. -/
def readLiteralLines : List Char → Option (List Char × List Char)
  | [] => none
  | c :: rest =>
    if c == '\'' then
      match quoteRun (countAtStart '\'' (c :: rest)) with
      | .text => (readLiteralLines rest).map fun (text, s) => (c :: text, s)
      | .closing before => some (List.replicate before '\'', rest.drop (before + 2))
      | .tooLong => none
    else if isPlain c || isLineBreak c rest then
      (readLiteralLines rest).map fun (text, s) => (c :: text, s)
    else none

/-- Reads a string of one of the four forms. -/
def readString : Reader String
  | '"' :: '"' :: '"' :: rest =>
    (readBasicLines (dropLineBreak rest)).map fun (text, s) => (String.ofList text, s)
  | '\'' :: '\'' :: '\'' :: rest =>
    (readLiteralLines (dropLineBreak rest)).map fun (text, s) => (String.ofList text, s)
  | '"' :: rest => (readBasic rest).map fun (text, s) => (String.ofList text, s)
  | '\'' :: rest => (readLiteral rest).map fun (text, s) => (String.ofList text, s)
  | _ => none

/-! ### Numbers -/

/-- The digits of a text in which underscores may stand between digits. -/
def ungroup? (isDigit : Char → Bool) : List Char → Option (List Char)
  | [] => none
  | [c] => if isDigit c then some [c] else none
  | c :: '_' :: rest => if isDigit c then (ungroup? isDigit rest).map (c :: ·) else none
  | c :: rest => if isDigit c then (ungroup? isDigit rest).map (c :: ·) else none

/-- The decimal digits of a text, the first of which is a zero only if it is the only one. -/
def wholeDigits? (s : List Char) : Option (List Char) :=
  match ungroup? Numeral.isDecimalDigit s with
  | some ('0' :: _ :: _) => none
  | digits => digits

/-- The integers that a document may hold. -/
def isInRange (n : Int) : Bool :=
  -Int.pow 2 63 ≤ n && n < Int.pow 2 64

/-- Reads an integer: with a prefix for its base and no sign, or decimal. -/
def readInteger? (s : List Char) : Option Int :=
  let based (base : Nat) (digits : List Char) : Option Int :=
    (ungroup? (fun c => (Numeral.digit? base c).isSome) digits).map fun d => Numeral.value base d
  let n? : Option Int :=
    match s with
    | '0' :: 'x' :: digits => based 16 digits
    | '0' :: 'o' :: digits => based 8 digits
    | '0' :: 'b' :: digits => based 2 digits
    | s =>
      let (negative, digits) := DecimalNumeral.takeSign s
      (wholeDigits? digits).map fun d =>
        let n : Int := Numeral.value 10 d
        if negative then -n else n
  n?.filter isInRange

/-- Reads the power of ten that ends a number. -/
def readPower? (s : List Char) : Option Int :=
  let (negative, digits) := DecimalNumeral.takeSign s
  (ungroup? Numeral.isDecimalDigit digits).map fun d =>
    let n : Int := Numeral.value 10 d
    if negative then -n else n

/-- Whether a letter announces a power of ten. -/
def isPowerMark (c : Char) : Bool :=
  c == 'e' || c == 'E'

/-- Reads a number with a fraction, a power of ten or both. -/
def readNumeral? (s : List Char) : Option DecimalNumeral := do
  let (negative, s) := DecimalNumeral.takeSign s
  let (whole, s) := s.span fun c => c != '.' && !isPowerMark c
  let whole ← wholeDigits? whole
  let (fraction, s) ←
    match s with
    | '.' :: rest =>
      let (digits, s) := rest.span fun c => !isPowerMark c
      (ungroup? Numeral.isDecimalDigit digits).map fun d => (d, s)
    | s => some ([], s)
  let power ←
    match s with
    | _ :: rest => readPower? rest
    | [] => if fraction.isEmpty then none else some 0
  return ⟨negative, Numeral.value 10 (whole ++ fraction), power - fraction.length⟩

/-- Reads a floating-point number; one past the greatest is none. -/
def readFloat? (s : List Char) : Option Value :=
  let word := (DecimalNumeral.takeSign s).2
  if word == ['i', 'n', 'f'] || word == ['n', 'a', 'n'] then some .notFinite
  else ((readNumeral? s).bind DecimalNumeral.toBinary64?).map .float

/-! ### Unquoted scalars -/

/-- Reads an unquoted scalar that fills the text. -/
def scalarOf? (s : List Char) : Option Value :=
  if s == ['t', 'r', 'u', 'e'] then some (.boolean true)
  else if s == ['f', 'a', 'l', 's', 'e'] then some (.boolean false)
  else
    match readInteger? s with
    | some n => some (.integer n)
    | none =>
      match Moment.read? s with
      | some m => some (.moment (String.ofList m.text))
      | none => readFloat? s

/-- Whether a character may stand in an unquoted scalar. -/
def isScalarChar (c : Char) : Bool :=
  c.isAlphanum || c == '-' || c == '_' || c == '+' || c == '.' || c == ':'

/-- Reads an unquoted scalar.  A day may be followed by a space and a time. -/
def readScalar : Reader Value := fun s =>
  let (run, rest) := s.span isScalarChar
  match Moment.read? run, rest with
  | some (.date _), ' ' :: c :: more =>
    if Numeral.isDecimalDigit c then
      let (time, rest) := (c :: more).span isScalarChar
      (scalarOf? (run ++ ' ' :: time)).map fun v => (v, rest)
    else (scalarOf? run).map fun v => (v, rest)
  | _, _ => (scalarOf? run).map fun v => (v, rest)

end LayeredEnv.Toml
