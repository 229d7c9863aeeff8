/-!
# Decoding UTF-8

A decoder over bytes with one state: either it is between characters, or it has read the start of a
sequence and knows which bytes may come next.  A byte that cannot continue the sequence ends it as
one ill-formed sequence and is then read afresh, so every longest ill-formed start counts once.

`decode` gives `none` for an ill-formed sequence.  The lossy text puts U+FFFD there, the strict
text exists only when there is none.  A line feed is never part of a longer sequence, so the two
sides of a line feed are decoded apart (`decode_append_lineFeed`).
-/

namespace LayeredEnv.Utf8

/-- Which continuation bytes may come next.  The narrow classes follow the four first bytes that
would otherwise begin an overlong form, a surrogate or a number past the last code point. -/
inductive Continuation
  | any
  | notOverlongInThree
  | notSurrogate
  | notOverlongInFour
  | notTooLarge
  deriving DecidableEq, Repr

/-- The bytes of a class. -/
def Continuation.admits : Continuation → Nat → Bool
  | any, n => 0x80 ≤ n && n ≤ 0xBF
  | notOverlongInThree, n => 0xA0 ≤ n && n ≤ 0xBF
  | notSurrogate, n => 0x80 ≤ n && n ≤ 0x9F
  | notOverlongInFour, n => 0x90 ≤ n && n ≤ 0xBF
  | notTooLarge, n => 0x80 ≤ n && n ≤ 0x8F

/-- What the decoder knows between two bytes: nothing is open, or a byte of the class `next` and
then `more` further bytes are due to finish the character whose bits so far are `bits`. -/
inductive State
  | between
  | inside (next : Continuation) (more : Nat) (bits : Nat)
  deriving DecidableEq, Repr

/-- Reading a byte with nothing open. -/
def start (byte : UInt8) : List (Option Char) × State :=
  let n := byte.toNat
  if n < 0x80 then ([some (Char.ofNat n)], .between)
  else if n < 0xC2 then ([none], .between)
  else if n < 0xE0 then ([], .inside .any 0 (n - 0xC0))
  else if n = 0xE0 then ([], .inside .notOverlongInThree 1 0)
  else if n = 0xED then ([], .inside .notSurrogate 1 0xD)
  else if n < 0xF0 then ([], .inside .any 1 (n - 0xE0))
  else if n = 0xF0 then ([], .inside .notOverlongInFour 2 0)
  else if n < 0xF4 then ([], .inside .any 2 (n - 0xF0))
  else if n = 0xF4 then ([], .inside .notTooLarge 2 4)
  else ([none], .between)

/-- Reading one byte: what is decoded by it, and the state after it. -/
def feed : State → UInt8 → List (Option Char) × State
  | .between, byte => start byte
  | .inside next more bits, byte =>
    if next.admits byte.toNat then
      let bits := bits * 64 + (byte.toNat - 0x80)
      match more with
      | 0 => ([some (Char.ofNat bits)], .between)
      | more + 1 => ([], .inside .any more bits)
    else
      let (decoded, after) := start byte
      (none :: decoded, after)

/-- What is left when the bytes end: a sequence that is still open is ill-formed. -/
def finish : State → List (Option Char)
  | .between => []
  | .inside .. => [none]

/-- Decoding from a state to the end of the bytes. -/
def decodeFrom : State → List UInt8 → List (Option Char)
  | state, [] => finish state
  | state, byte :: bytes => (feed state byte).1 ++ decodeFrom (feed state byte).2 bytes

/-- The characters of a byte string, with `none` for every longest ill-formed start. -/
def decode (bytes : List UInt8) : List (Option Char) :=
  decodeFrom .between bytes

/-- Whether all of the bytes are well-formed. -/
def isWellFormed (bytes : List UInt8) : Bool :=
  (decode bytes).all Option.isSome

/-- The text of the bytes, with U+FFFD for every longest ill-formed start. -/
def lossyText (bytes : List UInt8) : List Char :=
  (decode bytes).map fun c => c.getD '\uFFFD'

/-- The text of the bytes if all of them are well-formed. -/
def text? (bytes : List UInt8) : Option (List Char) :=
  if isWellFormed bytes then some (lossyText bytes) else none

/-- The bytes of a text. -/
def encode (s : String) : List UInt8 :=
  s.toUTF8.toList

/-! ### Bytes as characters -/

/-- A text in which each byte is a character. -/
def bytewise (s : List Char) : List Char :=
  (encode (String.ofList s)).map fun b => Char.ofNat b.toNat

/-- The text whose bytes are the characters of another one. -/
def ofBytewise (s : List Char) : List Char :=
  lossyText (s.map fun c => c.toNat.toUInt8)

/-! ### Small laws -/

@[simp] theorem decode_nil : decode [] = [] := rfl

/-- No class of continuation bytes holds the line feed. -/
@[simp] theorem Continuation.not_admits_lineFeed (next : Continuation) :
    next.admits 10 = false := by
  cases next <;> decide

/-- A line feed closes whatever is open. -/
theorem feed_lineFeed (state : State) :
    feed state 10 = (finish state ++ [some '\n'], .between) := by
  cases state with
  | between => decide
  | inside next more bits =>
    have h : start 10 = ([some '\n'], .between) := by decide
    simp [feed, finish, h]

theorem decodeFrom_append_lineFeed (state : State) (a b : List UInt8) :
    decodeFrom state (a ++ 10 :: b) = decodeFrom state a ++ some '\n' :: decode b := by
  induction a generalizing state with
  | nil => simp [decodeFrom, feed_lineFeed, decode]
  | cons byte bytes ih => simp [decodeFrom, ih]

/-- What comes before a line feed and what comes after it are decoded apart. -/
theorem decode_append_lineFeed (a b : List UInt8) :
    decode (a ++ 10 :: b) = decode a ++ some '\n' :: decode b :=
  decodeFrom_append_lineFeed .between a b

end LayeredEnv.Utf8
