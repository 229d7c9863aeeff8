import LayeredEnv.Number.Numeral

/-!
# Dates and times in TOML

A moment is a date, a time of day, or a date with a time of day and possibly an offset.  A date has
to be one of the calendar; a time may leave out its seconds.  The normal form has the letters `T`
and `Z` in upper case, seconds always, and of a fraction the first nine digits without zeros at the
end.
-/

namespace LayeredEnv.Toml

/-- A day by its numbers. -/
structure Date where
  year : Nat
  month : Nat
  day : Nat
  deriving DecidableEq, Repr

/-- A time of day; the fraction counts billionths of a second. -/
structure TimeOfDay where
  hour : Nat
  minute : Nat
  second : Nat
  fraction : Nat
  deriving DecidableEq, Repr

/-- The distance to universal time. -/
inductive Offset
  | universal
  | minutes (n : Int)
  deriving DecidableEq, Repr

/-- A date, a time, or both. -/
inductive Moment
  | date (d : Date)
  | time (t : TimeOfDay)
  | both (d : Date) (t : TimeOfDay) (offset : Option Offset)
  deriving DecidableEq, Repr

/-! ### The calendar -/

/-- Whether a year has a leap day. -/
def isLeapYear (year : Nat) : Bool :=
  (year % 4 == 0 && year % 100 != 0) || year % 400 == 0

/-- How many days a month has. -/
def daysOfMonth (year month : Nat) : Nat :=
  if month = 2 then (if isLeapYear year then 29 else 28)
  else if month = 4 ∨ month = 6 ∨ month = 9 ∨ month = 11 then 30
  else 31

/-- Whether the calendar has the day. -/
def Date.isReal (d : Date) : Bool :=
  1 ≤ d.month && d.month ≤ 12 && 1 ≤ d.day && d.day ≤ daysOfMonth d.year d.month

/-- Whether a day has the time; a leap second is one. -/
def TimeOfDay.isReal (t : TimeOfDay) : Bool :=
  t.hour ≤ 23 && t.minute ≤ 59 && t.second ≤ 60

/-! ### Reading -/

namespace Moment

/-- Reads exactly `count` digits. -/
def readDigits? (count : Nat) (s : List Char) : Option (Nat × List Char) :=
  let digits := s.take count
  if digits.length = count ∧ digits.all Numeral.isDecimalDigit then
    some (Numeral.value 10 digits, s.drop count)
  else none

/-- Reads exactly one given character. -/
def readChar? (c : Char) : List Char → Option (List Char)
  | d :: rest => if d = c then some rest else none
  | [] => none

/-- Reads a day: four, two and two digits with dashes between them. -/
def readDate? (s : List Char) : Option (Date × List Char) := do
  let (year, s) ← readDigits? 4 s
  let (month, s) ← readDigits? 2 (← readChar? '-' s)
  let (day, s) ← readDigits? 2 (← readChar? '-' s)
  let d : Date := ⟨year, month, day⟩
  if d.isReal then some (d, s) else none

/-- The billionths that the digits of a fraction stand for; further digits are dropped. -/
def billionths (digits : List Char) : Nat :=
  let kept := digits.take 9
  Numeral.value 10 (kept ++ List.replicate (9 - kept.length) '0')

/-- Reads what may follow the minutes: seconds, and a fraction of at least one digit. -/
def readSeconds? : List Char → Option (Nat × Nat × List Char)
  | ':' :: s => do
    let (second, s) ← readDigits? 2 s
    match s with
    | '.' :: s =>
      let (digits, s) := Numeral.spanDigits s
      if digits.isEmpty then none else some (second, billionths digits, s)
    | s => some (second, 0, s)
  | s => some (0, 0, s)

/-- Reads a time of day. -/
def readTime? (s : List Char) : Option (TimeOfDay × List Char) := do
  let (hour, s) ← readDigits? 2 s
  let (minute, s) ← readDigits? 2 (← readChar? ':' s)
  let (second, fraction, s) ← readSeconds? s
  let t : TimeOfDay := ⟨hour, minute, second, fraction⟩
  if t.isReal then some (t, s) else none

/-- Reads the offset at the end of a moment, if there is one. -/
def readOffset? : List Char → Option (Option Offset)
  | [] => some none
  | [c] => if c == 'Z' || c == 'z' then some (some .universal) else none
  | sign :: s =>
    if sign == '+' || sign == '-' then do
      let (hours, s) ← readDigits? 2 s
      let (minutes, s) ← readDigits? 2 (← readChar? ':' s)
      if s.isEmpty && hours ≤ 23 && minutes ≤ 59 then
        let n : Int := hours * 60 + minutes
        some (some (.minutes (if sign == '-' then -n else n)))
      else none
    else none

/-- Reads a moment that fills the text. -/
def read? (s : List Char) : Option Moment :=
  match readDate? s with
  | some (d, []) => some (.date d)
  | some (d, sep :: s) =>
    if sep == 'T' || sep == 't' || sep == ' ' then do
      let (t, s) ← readTime? s
      return .both d t (← readOffset? s)
    else none
  | none =>
    match readTime? s with
    | some (t, []) => some (.time t)
    | _ => none

/-! ### The normal form -/

/-- The digits of a number, filled up with zeros to a width. -/
def padded (width n : Nat) : List Char :=
  let digits := Numeral.ofNat n
  List.replicate (width - digits.length) '0' ++ digits

/-- The text of a day. -/
def dateText (d : Date) : List Char :=
  padded 4 d.year ++ '-' :: padded 2 d.month ++ '-' :: padded 2 d.day

/-- The text of a time of day. -/
def timeText (t : TimeOfDay) : List Char :=
  padded 2 t.hour ++ ':' :: padded 2 t.minute ++ ':' :: padded 2 t.second ++
    if t.fraction = 0 then []
    else '.' :: ((padded 9 t.fraction).reverse.dropWhile (· == '0')).reverse

/-- The text of an offset. -/
def offsetText : Offset → List Char
  | .universal => ['Z']
  | .minutes n =>
    (if n < 0 then '-' else '+') :: padded 2 (n.natAbs / 60) ++ ':' :: padded 2 (n.natAbs % 60)

/-- The text of a moment. -/
def text : Moment → List Char
  | .date d => dateText d
  | .time t => timeText t
  | .both d t offset => dateText d ++ 'T' :: timeText t ++ (offset.map offsetText).getD []

end Moment

end LayeredEnv.Toml
