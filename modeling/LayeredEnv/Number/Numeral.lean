/-!
# Numerals

The digits of natural numbers and integers in base ten and sixteen, written and read one digit at a
time.
-/

namespace LayeredEnv.Numeral

/-- The character of a digit below sixteen, letters in lower case. -/
def digitChar (n : Nat) : Char :=
  if n < 10 then Char.ofNat (0x30 + n) else Char.ofNat (0x57 + n)

/-- The digits of `n` in a base, the most significant one first. -/
def digits (base n : Nat) : List Char :=
  if _h : n < base ∨ base ≤ 1 then [digitChar n]
  else digits base (n / base) ++ [digitChar (n % base)]
termination_by n
decreasing_by
  have : 2 ≤ base := by omega
  exact Nat.div_lt_self (by omega) this

/-- The decimal digits of a natural number. -/
def ofNat (n : Nat) : List Char :=
  digits 10 n

/-- The decimal digits of an integer, with a minus sign before the negative ones. -/
def ofInt : Int → List Char
  | .ofNat n => ofNat n
  | .negSucc n => '-' :: ofNat (n + 1)

/-- The digits of `n` in base sixteen, filled up with zeros to a width. -/
def hexPadded (width n : Nat) : List Char :=
  let text := digits 16 n
  List.replicate (width - text.length) '0' ++ text

/-- The value of a decimal digit. -/
def decimalDigit? (c : Char) : Option Nat :=
  if '0' ≤ c ∧ c ≤ '9' then some (c.toNat - 0x30) else none

/-- Whether a character is a decimal digit. -/
def isDecimalDigit (c : Char) : Bool :=
  (decimalDigit? c).isSome

/-- The value of a digit in a base up to sixteen, letters in either case. -/
def digit? (base : Nat) (c : Char) : Option Nat :=
  let value? :=
    if '0' ≤ c ∧ c ≤ '9' then some (c.toNat - 0x30)
    else if 'a' ≤ c ∧ c ≤ 'f' then some (c.toNat - 0x57)
    else if 'A' ≤ c ∧ c ≤ 'F' then some (c.toNat - 0x37)
    else none
  value?.filter (· < base)

/-- The value of a list of digits in a base; characters that are no digit count as zero. -/
def value (base : Nat) (s : List Char) : Nat :=
  s.foldl (fun n c => n * base + (digit? base c).getD 0) 0

/-- The longest start of digits and what follows it. -/
def spanDigits (s : List Char) : List Char × List Char :=
  s.span isDecimalDigit

end LayeredEnv.Numeral
