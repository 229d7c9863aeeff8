import LayeredEnv.Number.Numeral

/-!
# Binary floating-point numbers of sixty-four bits

A finite number of the format is a sign, a mantissa below `2 ^ 53` and an exponent, and stands for
`mantissa * 2 ^ exponent`.  The exponent is the least one that the mantissa allows, so equal numbers
are equal records (zero has two records, one for each sign).  All arithmetic is exact arithmetic on
natural numbers.

`ofDecimal?` rounds a decimal number to the nearest number of the format, a tie to the even
mantissa.  `Shortest` finds the fewest decimal digits that `ofDecimal?` takes back to a number.
-/

namespace LayeredEnv

/-- A finite number of the format. -/
structure Binary64 where
  negative : Bool
  mantissa : Nat
  exponent : Int
  deriving DecidableEq, Repr, Inhabited

namespace Binary64

/-- The bits of a full mantissa. -/
def precision : Nat := 53

/-- The least exponent. -/
def leastExponent : Int := -1074

/-- The greatest exponent. -/
def greatestExponent : Int := 971

/-- The quotient rounded to the nearest natural number, a tie to the even one. -/
def roundQuotient (num den : Nat) : Nat :=
  let low := num / den
  let rest := 2 * (num % den)
  if rest < den then low
  else if den < rest then low + 1
  else low + low % 2

/-- The greatest `l` with `2 ^ l ≤ num / den`, for positive `num` and `den`. -/
def floorLog2 (num den : Nat) : Int :=
  let guess : Int := (num.log2 : Int) - den.log2
  let reached : Bool :=
    if 0 ≤ guess then den * Nat.pow 2 guess.toNat ≤ num
    else den ≤ num * Nat.pow 2 (-guess).toNat
  if reached then guess else guess - 1

/-- The number nearest to a positive quotient; `none` if it is past the greatest one. -/
def ofQuotient? (negative : Bool) (num den : Nat) : Option Binary64 :=
  let exponent := max leastExponent (floorLog2 num den - (precision - 1 : Nat))
  let mantissa :=
    if 0 ≤ exponent then roundQuotient num (den * Nat.pow 2 exponent.toNat)
    else roundQuotient (num * Nat.pow 2 (-exponent).toNat) den
  let (mantissa, exponent) :=
    if mantissa = Nat.pow 2 precision then (Nat.pow 2 (precision - 1), exponent + 1)
    else (mantissa, exponent)
  if greatestExponent < exponent then none else some ⟨negative, mantissa, exponent⟩

/-- Zero with a sign. -/
def zero (negative : Bool) : Binary64 :=
  ⟨negative, 0, leastExponent⟩

/-- The number nearest to `digits * 10 ^ exponent10`; `none` if it is past the greatest one.  Powers
that are out of reach of the format are decided by the count of digits alone. -/
def ofDecimal? (negative : Bool) (digits : Nat) (exponent10 : Int) : Option Binary64 :=
  if digits = 0 then some (zero negative)
  else
    let places : Int := (Numeral.ofNat digits).length + exponent10
    if places > 310 then none
    else if places < -325 then some (zero negative)
    else if 0 ≤ exponent10 then ofQuotient? negative (digits * Nat.pow 10 exponent10.toNat) 1
    else ofQuotient? negative digits (Nat.pow 10 (-exponent10).toNat)

end Binary64

/-- A decimal numeral as written: a sign, the digits without their point, and the power of ten that
they count. -/
structure DecimalNumeral where
  negative : Bool
  digits : Nat
  exponent10 : Int
  deriving DecidableEq, Repr

namespace DecimalNumeral

/-- The number nearest to a numeral. -/
def toBinary64? (d : DecimalNumeral) : Option Binary64 :=
  Binary64.ofDecimal? d.negative d.digits d.exponent10

/-- Takes a sign off a text. -/
def takeSign : List Char → Bool × List Char
  | '-' :: rest => (true, rest)
  | '+' :: rest => (false, rest)
  | s => (false, s)

/-- Reads the power of ten at the end of a numeral: nothing, or the letter E, an optional sign and
digits. -/
def readExponent? : List Char → Option Int
  | [] => some 0
  | c :: rest =>
    if c == 'e' || c == 'E' then
      let (negative, rest) := takeSign rest
      if rest.isEmpty || !rest.all Numeral.isDecimalDigit then none
      else
        let n : Int := Numeral.value 10 rest
        some (if negative then -n else n)
    else none

/-- Reads a numeral: an optional sign, digits with at most one point among, before or behind them,
and an optional power of ten. -/
def read? (s : List Char) : Option DecimalNumeral :=
  let (negative, s) := takeSign s
  let (whole, s) := Numeral.spanDigits s
  let (fraction, s) :=
    match s with
    | '.' :: rest => Numeral.spanDigits rest
    | _ => ([], s)
  if whole.isEmpty && fraction.isEmpty then none
  else
    (readExponent? s).map fun e =>
      ⟨negative, Numeral.value 10 (whole ++ fraction), e - fraction.length⟩

end DecimalNumeral

end LayeredEnv
