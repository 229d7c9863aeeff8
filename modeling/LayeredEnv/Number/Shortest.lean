import LayeredEnv.Number.Binary64

/-!
# The shortest decimal text of a binary number

The real numbers that round to a number of the format form an interval around it, which holds its
ends exactly if the mantissa is even.  On the grid of the decimals with `n` digits the two points
next to the number are tried, for growing `n`; the first grid with a point in the interval wins, and
of two such points the nearer one, of two equally near ones the even one.

`NumberLayout` holds the decisions that are not arithmetic: where positional writing ends and how a
power of ten is written.
-/

namespace LayeredEnv

/-- Decimal digits and the number of them before the decimal point, which may lie outside. -/
structure DecimalDigits where
  digits : Nat
  point : Int
  deriving DecidableEq, Repr

namespace Shortest

/-- A number and the ends of the interval that rounds to it, as natural numbers that count quarters
of the last place of the mantissa. -/
structure Interval where
  low : Nat
  value : Nat
  high : Nat
  closed : Bool
  deriving Repr

/-- The interval of a positive number.  Below a power of two the neighbour is half as far away. -/
def intervalOf (x : Binary64) : Interval :=
  let m := x.mantissa
  let atPower := m = Nat.pow 2 (Binary64.precision - 1) ∧ Binary64.leastExponent < x.exponent
  ⟨if atPower then 4 * m - 1 else 4 * m - 2, 4 * m, 4 * m + 2, m % 2 = 0⟩

/-- `a * 2 ^ e` and `b * 10 ^ k` made comparable: the two natural numbers, scaled alike. -/
def scaled (a : Nat) (e : Int) (b : Nat) (k : Int) : Nat × Nat :=
  (a * Nat.pow 2 e.toNat * Nat.pow 10 (-k).toNat,
    b * Nat.pow 10 k.toNat * Nat.pow 2 (-e).toNat)

/-- Whether the decimal `c * 10 ^ k` lies in an interval whose unit is `2 ^ e`. -/
def Interval.holds (i : Interval) (e : Int) (c : Nat) (k : Int) : Bool :=
  let (low, point) := scaled i.low e c k
  let (high, _) := scaled i.high e c k
  if i.closed then low ≤ point && point ≤ high else low < point && point < high

/-- The least `p` with `a * 2 ^ e < 10 ^ p`, for positive `a`, found around the estimate that the
binary magnitude gives. -/
def magnitude (a : Nat) (e : Int) : Int :=
  let guess := ((a.log2 : Int) + e) * 30103 / 100000
  let isAbove (p : Int) : Bool := let (x, y) := scaled a e 1 p; x < y
  if isAbove guess then guess
  else if isAbove (guess + 1) then guess + 1
  else guess + 2

/-- The decimal with `n` digits in the interval that is nearest to the number, if there is one. -/
def onGrid? (i : Interval) (e p : Int) (n : Nat) : Option (Nat × Int) :=
  let k := p - n
  let (num, den) := scaled i.value e 1 k
  let below := num / den
  let rest := 2 * (num % den)
  let lowFits := i.holds e below k
  let highFits := i.holds e (below + 1) k
  let takeHigh :=
    if lowFits && highFits then den < rest || (den == rest && below % 2 == 1) else highFits
  if takeHigh then some (below + 1, k) else if lowFits then some (below, k) else none

/-- A decimal without the zeros at the end of its digits. -/
def stripZeros : Nat → Nat → Int → Nat × Int
  | 0, c, k => (c, k)
  | bound + 1, c, k => if c % 10 = 0 then stripZeros bound (c / 10) (k + 1) else (c, k)

/-- The greatest number of digits that is ever needed. -/
def mostDigits : Nat := 17

/-- The shortest decimal of a positive number. -/
def digitsOf (x : Binary64) : DecimalDigits :=
  let i := intervalOf x
  let e := x.exponent - 2
  let p := magnitude i.value e
  let (c, k) := ((List.range mostDigits).findSome? fun n => onGrid? i e p (n + 1)).getD (0, 0)
  let (c, k) := stripZeros (mostDigits + 1) c k
  ⟨c, (Numeral.ofNat c).length + k⟩

end Shortest

/-- How the text of a number is laid out: positional if the power of ten of the first digit lies
from `least` to `most`, with a power of ten otherwise. -/
structure NumberLayout where
  least : Int
  most : Int

namespace NumberLayout

/-- Numbers from `1e-5` and below `1e16` are written positionally. -/
def json : NumberLayout := ⟨-5, 15⟩

/-- Digits with a point among them; a point at an end gets a zero. -/
def positional (digits : List Char) (point : Int) : List Char :=
  if point ≤ 0 then '0' :: '.' :: List.replicate (-point).toNat '0' ++ digits
  else if digits.length ≤ point.toNat then
    digits ++ List.replicate (point.toNat - digits.length) '0' ++ ['.', '0']
  else digits.take point.toNat ++ '.' :: digits.drop point.toNat

/-- One digit, a point and the others if there are any, and the power of ten with its sign. -/
def scientific (digits : List Char) (power : Int) : List Char :=
  let mantissa :=
    match digits with
    | [] => []
    | [d] => [d]
    | d :: rest => d :: '.' :: rest
  mantissa ++ 'e' :: (if power < 0 then '-' else '+') :: Numeral.ofNat power.natAbs

/-- The text of a number. -/
def render (layout : NumberLayout) (x : Binary64) : List Char :=
  let sign := if x.negative then ['-'] else []
  if x.mantissa = 0 then sign ++ ['0', '.', '0']
  else
    let d := Shortest.digitsOf x
    let digits := Numeral.ofNat d.digits
    let power := d.point - 1
    sign ++
      if layout.least ≤ power ∧ power ≤ layout.most then positional digits d.point
      else scientific digits power

end NumberLayout

end LayeredEnv
