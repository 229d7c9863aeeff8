import LayeredEnv.Number.Binary64
import LayeredEnv.Text.Utf8

/-!
# Formats

What `echo` and `printf` say: texts in which a backslash begins an escape, and formats in which a
percent sign begins a directive that puts an argument in.

This is part of `Shell.launch`, the launcher of the runnable program, and of nothing else: what is
stated of requests, commands and actions holds for every launcher.
-/

namespace LayeredEnv.Shell.Format

/-! ### Escapes -/

/-- The character that a letter after a backslash stands for. -/
def escape? : Char → Option UInt8
  | 'a' => some 0x07
  | 'b' => some 0x08
  | 'f' => some 0x0C
  | 'n' => some 0x0A
  | 'r' => some 0x0D
  | 't' => some 0x09
  | 'v' => some 0x0B
  | '\\' => some 0x5C
  | _ => none

/-- Whether a character is an octal digit. -/
def isOctal (c : Char) : Bool :=
  '0' ≤ c && c ≤ '7'

/-- The byte of up to three octal digits, and what follows them. -/
def octal (s : List Char) : UInt8 × List Char :=
  let digits := (s.take 3).takeWhile isOctal
  (UInt8.ofNat (Numeral.value 8 digits), s.drop digits.length)

/-- The bytes of an escape, whose backslash has been read, and what follows it.  With `zeroFirst`, a
zero may stand before three octal digits. -/
def escapeAt (zeroFirst : Bool) (s : List Char) : UInt8 × List Char :=
  match s with
  | [] => (0x5C, [])
  | c :: rest =>
    match escape? c with
    | some byte => (byte, rest)
    | none =>
      if !isOctal c then (0x5C, s)
      else if zeroFirst && c == '0' && rest.head?.any isOctal then octal rest
      else octal s

theorem length_octal_le (s : List Char) : (octal s).2.length ≤ s.length := by
  simp [octal]

theorem length_escapeAt_le (zeroFirst : Bool) (s : List Char) :
    (escapeAt zeroFirst s).2.length ≤ s.length := by
  unfold escapeAt
  split
  · simp
  · next c rest =>
    split
    · simp
    · split
      · simp
      · split
        · exact Nat.le_succ_of_le (length_octal_le rest)
        · exact length_octal_le _

/-- The bytes of a text with escapes put in, and whether it stops short at `\c`. -/
def unescape (s : List Char) : List UInt8 × Bool :=
  match s with
  | [] => ([], false)
  | '\\' :: 'c' :: _ => ([], true)
  | '\\' :: rest =>
    let (bytes, stopped) := unescape (escapeAt true rest).2
    ((escapeAt true rest).1 :: bytes, stopped)
  | c :: rest =>
    let (bytes, stopped) := unescape rest
    (Utf8.encode (String.singleton c) ++ bytes, stopped)
termination_by s.length
decreasing_by
  · have := length_escapeAt_le true rest
    simp
    omega
  · simp

/-- The text of bytes. -/
def textOf (bytes : List UInt8) : String :=
  String.ofList (Utf8.lossyText bytes)

/-- Says words with blanks between them, escapes put in. -/
def sayEscaped (newline : Bool) : List String → List UInt8
  | [] => if newline then [0x0A] else []
  | [last] =>
    let (bytes, stopped) := unescape last.toList
    if stopped || !newline then bytes else bytes ++ [0x0A]
  | word :: rest =>
    let (bytes, stopped) := unescape word.toList
    if stopped then bytes else bytes ++ 0x20 :: sayEscaped newline rest

/-- Says its arguments with blanks between them; the shell's own form puts escapes in. -/
def say (escapes : Bool) (arguments : List String) : String :=
  let (newline, words) :=
    match arguments with
    | "-n" :: words => (false, words)
    | words => (true, words)
  if escapes then textOf (sayEscaped newline words)
  else " ".intercalate words ++ if newline then "\n" else ""

/-! ### Directives -/

/-- How an argument is put in. -/
structure Directive where
  flags : List Char := []
  width : Nat := 0
  precision : Option Nat := none

namespace Directive

/-- A text filled up to the width with blanks; widths count bytes. -/
def pad (d : Directive) (s : List Char) : List Char :=
  let blanks := List.replicate (d.width - (Utf8.bytewise s).length) ' '
  if d.flags.contains '-' then s ++ blanks else blanks ++ s

/-- A text, cut to the precision. -/
def text (d : Directive) (s : String) : List Char :=
  d.pad <| match d.precision with
    | some n => Utf8.ofBytewise ((Utf8.bytewise s.toList).take n)
    | none => s.toList

/-- A number with its sign and digits. -/
def number (d : Directive) (sign digits : List Char) : List Char :=
  let digits :=
    match d.precision with
    | some n => List.replicate (n - digits.length) '0' ++ digits
    | none =>
      if d.flags.contains '0' && !d.flags.contains '-' then
        List.replicate (d.width - sign.length - digits.length) '0' ++ digits
      else digits
  d.pad (sign ++ digits)

/-- A number with a sign, as a directive with a letter writes it. -/
def integer (d : Directive) (letter : Char) (n : Int) : List Char :=
  let unsigned : Nat := (n % Int.pow 2 64).toNat
  match letter with
  | 'o' => d.number [] ((if d.flags.contains '#' then ['0'] else []) ++ Numeral.digits 8 unsigned)
  | 'u' => d.number [] (Numeral.ofNat unsigned)
  | 'x' => d.number (if d.flags.contains '#' then ['0', 'x'] else []) (Numeral.digits 16 unsigned)
  | 'X' =>
    d.number (if d.flags.contains '#' then ['0', 'X'] else [])
      ((Numeral.digits 16 unsigned).map Char.toUpper)
  | _ =>
    let sign :=
      if n < 0 then ['-']
      else if d.flags.contains '+' then ['+']
      else if d.flags.contains ' ' then [' ']
      else []
    d.number sign (Numeral.ofNat n.natAbs)

end Directive

/-- The number that an argument stands for, and a complaint if it is not all of one. -/
def numberOf (argument : String) : Int × Option String :=
  match argument.toList with
  | '\'' :: c :: _ | '"' :: c :: _ => (c.toNat, none)
  | s =>
    let s := s.dropWhile fun c => c == ' ' || c == '\t' || c == '\n'
    let (negative, digits) := DecimalNumeral.takeSign s
    let (base, digits) :=
      match digits with
      | '0' :: 'x' :: d :: rest =>
        if (Numeral.digit? 16 d).isSome then (16, d :: rest) else (8, digits)
      | '0' :: rest => (8, '0' :: rest)
      | rest => (10, rest)
    let (digits, rest) := digits.span fun c => (Numeral.digit? base c).isSome
    let n : Int := Numeral.value base digits
    let complaint :=
      if argument == "" then none
      else if digits.isEmpty then some (argument ++ ": expected numeric value")
      else if rest.isEmpty then none
      else some (argument ++ ": not completely converted")
    (if negative then -n else n, complaint)

/-- What a format gives. -/
structure Result where
  bytes : List UInt8 := []
  left : List String
  complaints : List String := []
  /-- Whether nothing may follow. -/
  stopped : Bool := false
  /-- What is wrong with the format itself. -/
  refusal : Option String := none

/-- The result with bytes before it. -/
def Result.after (r : Result) (bytes : List UInt8) : Result :=
  { r with bytes := bytes ++ r.bytes }

/-- The bytes of characters. -/
def bytesOf (s : List Char) : List UInt8 :=
  Utf8.encode (String.ofList s)

/-- The number at the start of a text or, for a star, in the first argument, and what follows. -/
def takeSize (s : List Char) (arguments : List String) : Nat × List Char × List String :=
  match s with
  | '*' :: rest => ((numberOf (arguments.headD "")).1.natAbs, rest, arguments.tail)
  | s =>
    let digits := s.takeWhile Char.isDigit
    (Numeral.value 10 digits, s.drop digits.length, arguments)

/-- The directive at the start of a text up to its letter, and what follows. -/
def takeDirective (s : List Char) (arguments : List String) :
    Directive × List Char × List String :=
  let flags := s.takeWhile fun c => c == '#' || c == '-' || c == '+' || c == ' ' || c == '0'
  let (width, s, arguments) := takeSize (s.drop flags.length) arguments
  match s with
  | '.' :: rest =>
    let (precision, s, arguments) := takeSize rest arguments
    ({ flags, width, precision := some precision }, s, arguments)
  | s => ({ flags, width }, s, arguments)

/-- One pass over a format, of at most `fuel` steps. -/
def once : (fuel : Nat) → List Char → List String → Result
  | 0, _, arguments => { left := arguments }
  | _ + 1, [], arguments => { left := arguments }
  | fuel + 1, '\\' :: rest, arguments =>
    let (byte, rest) := escapeAt false rest
    (once fuel rest arguments).after [byte]
  | fuel + 1, '%' :: '%' :: rest, arguments => (once fuel rest arguments).after [0x25]
  | fuel + 1, '%' :: rest, arguments =>
    let (d, after, arguments) := takeDirective rest arguments
    let argument := arguments.headD ""
    match after with
    | [] => { left := arguments, refusal := some "missing format character" }
    | letter :: after =>
      if letter == 's' then
        (once fuel after arguments.tail).after (bytesOf (d.text argument))
      else if letter == 'b' then
        let (bytes, stopped) := unescape argument.toList
        let bytes := bytesOf (d.text (textOf bytes))
        if stopped then { bytes, left := arguments.tail, stopped }
        else (once fuel after arguments.tail).after bytes
      else if letter == 'c' then
        (once fuel after arguments.tail).after
          (bytesOf (d.text (String.ofList (argument.toList.take 1))))
      else if ['d', 'i', 'o', 'u', 'x', 'X'].contains letter then
        let (n, complaint) := numberOf argument
        let r := (once fuel after arguments.tail).after (bytesOf (d.integer letter n))
        { r with complaints := complaint.toList ++ r.complaints }
      else
        let start := rest.take (rest.length - after.length)
        { left := arguments
          refusal := some (String.ofList ('%' :: start) ++ ": invalid directive") }
  | fuel + 1, c :: rest, arguments =>
    (once fuel rest arguments).after (Utf8.encode (String.singleton c))

/-- A format used again as long as arguments are left and it takes any. -/
def all : (fuel : Nat) → List Char → List String → Result
  | 0, _, arguments => { left := arguments }
  | fuel + 1, form, arguments =>
    let r := once (form.length + 1) form arguments
    if r.stopped || r.refusal.isSome || r.left.isEmpty || r.left.length = arguments.length then r
    else
      let next := all fuel form r.left
      { next.after r.bytes with complaints := r.complaints ++ next.complaints }

/-- What a format gives for arguments. -/
def run (form : String) (arguments : List String) : Result :=
  all (arguments.length + 1) form.toList arguments

end LayeredEnv.Shell.Format
