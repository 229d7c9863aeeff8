import LayeredEnv.Json.Basic
import LayeredEnv.Text.Blank

/-!
# Conversions of raw values

A conversion turns the raw text that a file or the environment gave to a key into a typed value, or
says why it cannot.  The readers here trim the text first.  A reader of integers works digit by
digit and stops at the first digit that is none or that takes the number out of its range.
-/

namespace LayeredEnv

/-- Why a text cannot be converted. -/
inductive ConversionError
  | emptyInteger
  | invalidDigit
  | tooLarge
  | tooSmall
  | emptyFloat
  | invalidFloat
  | notBoolean
  | emptyCharacter
  | tooManyCharacters
  /-- A reason of the caller's own. -/
  | refused (reason : String)
  deriving DecidableEq, Repr

/-- The words for a failed conversion. -/
def ConversionError.message : ConversionError → String
  | emptyInteger => "cannot parse integer from empty string"
  | invalidDigit => "invalid digit found in string"
  | tooLarge => "number too large to fit in target type"
  | tooSmall => "number too small to fit in target type"
  | emptyFloat => "cannot parse float from empty string"
  | invalidFloat => "invalid float literal"
  | notBoolean => "provided string was not `true` or `false`"
  | emptyCharacter => "cannot parse char from empty string"
  | tooManyCharacters => "too many characters in string"
  | refused reason => reason

/-- A conversion of the raw text of a key. -/
abbrev Conversion := String → Except ConversionError Json

/-- The integers from `least` to `greatest`. -/
structure IntegerRange where
  least : Int
  greatest : Int
  deriving DecidableEq, Repr

namespace IntegerRange

/-- The integers that `bits` bits hold without a sign. -/
def unsigned (bits : Nat) : IntegerRange := ⟨0, Int.pow 2 bits - 1⟩

/-- The integers that `bits` bits hold with a sign. -/
def signed (bits : Nat) : IntegerRange := ⟨-Int.pow 2 (bits - 1), Int.pow 2 (bits - 1) - 1⟩

/-- Reads on from `n`, each digit counted with the sign of the number. -/
def readDigits (range : IntegerRange) (negative : Bool) (n : Int) :
    List Char → Except ConversionError Int
  | [] => .ok n
  | c :: rest =>
    match Numeral.decimalDigit? c with
    | none => .error .invalidDigit
    | some d =>
      let next := if negative then n * 10 - d else n * 10 + d
      if range.greatest < next then .error .tooLarge
      else if next < range.least then .error .tooSmall
      else readDigits range negative next rest

/-- Reads an integer of the range.  A plus sign may stand first, and a minus sign if the range has
negative numbers; a sign alone is no number. -/
def read (range : IntegerRange) : List Char → Except ConversionError Int
  | [] => .error .emptyInteger
  | '+' :: c :: rest => range.readDigits false 0 (c :: rest)
  | '-' :: c :: rest =>
    if range.least < 0 then range.readDigits true 0 (c :: rest) else .error .invalidDigit
  | s => range.readDigits false 0 s

end IntegerRange

namespace Conversion

/-- A text in which the ASCII letters are in lower case. -/
def lower (s : List Char) : List Char :=
  s.map Char.toLower

/-- The texts that mean that a flag is set. -/
def flagWords : List (List Char) :=
  [['t', 'r', 'u', 'e'], ['1'], ['y', 'e', 's'], ['o', 'n']]

/-- Whether a flag is set.  Letters count in either case; the words hold none of the two ASCII
letters, i and k, that other letters have as their lower case. -/
def flag : Conversion := fun raw =>
  .ok (.bool (flagWords.contains (lower (Text.trim raw.toList))))

/-- Reads `true` or `false`. -/
def boolean : Conversion := fun raw =>
  match String.ofList (Text.trim raw.toList) with
  | "true" => .ok (.bool true)
  | "false" => .ok (.bool false)
  | _ => .error .notBoolean

/-- Reads a single character. -/
def character : Conversion := fun raw =>
  match Text.trim raw.toList with
  | [] => .error .emptyCharacter
  | [c] => .ok (.string (String.ofList [c]))
  | _ => .error .tooManyCharacters

/-- Reads an integer of a range. -/
def integer (range : IntegerRange) : Conversion := fun raw =>
  (range.read (Text.trim raw.toList)).map .int

/-- The words for what is no finite number. -/
def notFiniteWords : List (List Char) :=
  [['i', 'n', 'f'], ['i', 'n', 'f', 'i', 'n', 'i', 't', 'y'], ['n', 'a', 'n']]

/-- Reads a binary number.  What is not finite, written out or past the greatest number, becomes
null. -/
def float : Conversion := fun raw =>
  let s := Text.trim raw.toList
  if s.isEmpty then .error .emptyFloat
  else if notFiniteWords.contains (lower (DecimalNumeral.takeSign s).2) then .ok .null
  else
    match DecimalNumeral.read? s with
    | none => .error .invalidFloat
    | some d =>
      match d.toBinary64? with
      | some x => .ok (.float x)
      | none => .ok .null

/-- The trimmed text itself. -/
def text : Conversion := fun raw =>
  .ok (.string (String.ofList (Text.trim raw.toList)))

end Conversion

end LayeredEnv
