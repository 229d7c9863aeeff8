import LayeredEnv.Text.Utf8
import Mathlib.Algebra.Group.Nat.Defs
import Mathlib.Data.Nat.Find
import Mathlib.Tactic.SplitIfs

/-!
# Lossy decoding

The decoder is a machine over bytes.  What it computes is told here without the machine, from the
bytes of characters alone.  At the start of any bytes either the bytes of a character begin, and the
character is decoded, or there is a longest ill-formed start, which counts as one ill-formed
sequence: the longest start from which a character could still have come, or a single byte if there
is none.  `Utf8.Replaces` puts U+FFFD in the place of each such start.

The link between the two is what the machine knows inside a sequence.  It knows the class of the
next byte, and every byte of the class can be completed to a character (`Utf8.Awaits`), so the
machine gives a sequence up at the first byte after which no character is left.

Main statements: `Utf8.replaces_iff`, `Utf8.isWellFormed_iff`.
-/

namespace LayeredEnv.Utf8

open String (utf8EncodeChar)

variable {bytes bad done rest p q : List UInt8} {byte : UInt8} {next : Continuation}
  {more bits point : Nat} {c : Char} {text : List Char}

/-! ### First bytes -/

/-- The first byte of a longer sequence, the class of the byte after it, how many bytes come after
that one, and the bits of the code point in the first byte. -/
inductive Lead : Nat → Continuation → Nat → Nat → Prop
  | two {bits : Nat} : 2 ≤ bits → bits < 32 → Lead (bits + 0xC0) .any 0 bits
  | threeLow : Lead 0xE0 .notOverlongInThree 1 0
  | three {bits : Nat} : 0 < bits → bits < 16 → bits ≠ 0xD → Lead (bits + 0xE0) .any 1 bits
  | threeSurrogates : Lead 0xED .notSurrogate 1 0xD
  | fourLow : Lead 0xF0 .notOverlongInFour 2 0
  | four {bits : Nat} : 0 < bits → bits < 4 → Lead (bits + 0xF0) .any 2 bits
  | fourHigh : Lead 0xF4 .notTooLarge 2 4

/-- Which bytes are first bytes of longer sequences. -/
theorem exists_lead {n : Nat} (hlow : 0xC2 ≤ n) (hhigh : n ≤ 0xF4) :
    ∃ next more bits, Lead n next more bits := by
  by_cases htwo : n < 0xE0
  · obtain ⟨bits, rfl⟩ := Nat.exists_eq_add_of_le' (show 0xC0 ≤ n by omega)
    exact ⟨_, _, _, .two (by omega) (by omega)⟩
  by_cases hthree : n < 0xF0
  · obtain ⟨bits, rfl⟩ := Nat.exists_eq_add_of_le' (show 0xE0 ≤ n by omega)
    rcases Nat.eq_zero_or_pos bits with rfl | hpos
    · exact ⟨_, _, _, .threeLow⟩
    rcases Decidable.em (bits = 0xD) with rfl | hother
    · exact ⟨_, _, _, .threeSurrogates⟩
    · exact ⟨_, _, _, .three hpos (by omega) hother⟩
  · obtain ⟨bits, rfl⟩ := Nat.exists_eq_add_of_le' (show 0xF0 ≤ n by omega)
    rcases Nat.eq_zero_or_pos bits with rfl | hpos
    · exact ⟨_, _, _, .fourLow⟩
    rcases Decidable.em (bits = 4) with rfl | hother
    · exact ⟨_, _, _, .fourHigh⟩
    · exact ⟨_, _, _, .four hpos (by omega)⟩

/-- The first byte of a longer sequence is one of the second half. -/
theorem Lead.le {n : Nat} (h : Lead n next more bits) : 0x80 ≤ n := by
  cases h <;> omega

/-- The first byte of a longer sequence opens it. -/
theorem Lead.start_eq (h : Lead byte.toNat next more bits) :
    start byte = ([], .inside next more bits) := by
  unfold start
  generalize byte.toNat = n at h
  cases h with
  | two hlow hhigh =>
    dsimp only
    rw [if_neg (by omega), if_neg (by omega), if_pos (by omega), Nat.add_sub_cancel]
  | threeLow => rfl
  | three hlow hhigh hother =>
    dsimp only
    rw [if_neg (by omega), if_neg (by omega), if_neg (by omega), if_neg (by omega),
      if_neg (by omega), if_pos (by omega), Nat.add_sub_cancel]
  | threeSurrogates => rfl
  | fourLow => rfl
  | four hlow hhigh =>
    dsimp only
    rw [if_neg (by omega), if_neg (by omega), if_neg (by omega), if_neg (by omega),
      if_neg (by omega), if_neg (by omega), if_neg (by omega), if_pos (by omega),
      Nat.add_sub_cancel]
  | fourHigh => rfl

/-- With nothing open a byte is a character, opens a sequence, or is ill-formed. -/
theorem start_cases (byte : UInt8) :
    (byte.toNat < 0x80 ∧ start byte = ([some (Char.ofNat byte.toNat)], .between)) ∨
      start byte = ([none], .between) ∨
      ∃ next more bits, Lead byte.toNat next more bits ∧
        start byte = ([], .inside next more bits) := by
  by_cases hlead : 0xC2 ≤ byte.toNat ∧ byte.toNat ≤ 0xF4
  · obtain ⟨next, more, bits, h⟩ := exists_lead hlead.1 hlead.2
    exact .inr (.inr ⟨next, more, bits, h, h.start_eq⟩)
  unfold start
  dsimp only
  generalize byte.toNat = n at hlead ⊢
  by_cases hascii : n < 0x80
  · exact .inl ⟨hascii, if_pos hascii⟩
  refine .inr (.inl ?_)
  rw [if_neg hascii]
  by_cases hlow : n < 0xC2
  · exact if_pos hlow
  · rw [if_neg hlow, if_neg (by omega), if_neg (by omega), if_neg (by omega), if_neg (by omega),
      if_neg (by omega), if_neg (by omega), if_neg (by omega)]

/-! ### Continuation bytes -/

/-- The byte for the six bits of a code point at a place, counted from the end. -/
def continuation (place point : Nat) : UInt8 :=
  .ofNat (point / 64 ^ place % 64 + 128)

/-- The last bytes of a code point, `count` of them. -/
def trail : Nat → Nat → List UInt8
  | 0, _ => []
  | count + 1, point => continuation count point :: trail count point

theorem toNat_continuation (place point : Nat) :
    (continuation place point).toNat = point / 64 ^ place % 64 + 128 := by
  have hlt : point / 64 ^ place % 64 < 64 := Nat.mod_lt _ (by decide)
  rw [continuation, UInt8.toNat_ofNat', Nat.mod_eq_of_lt (by omega)]

theorem toNat_ofNat_of_lt {n : Nat} (h : n < 256) : (UInt8.ofNat n).toNat = n := by
  rw [UInt8.toNat_ofNat', Nat.mod_eq_of_lt h]

/-- What a class demands of the six bits at a place. -/
theorem admits_continuation_iff (place point : Nat) :
    next.admits (continuation place point).toNat = true ↔ match next with
      | .any => True
      | .notOverlongInThree => 32 ≤ point / 64 ^ place % 64
      | .notSurrogate => point / 64 ^ place % 64 < 32
      | .notOverlongInFour => 16 ≤ point / 64 ^ place % 64
      | .notTooLarge => point / 64 ^ place % 64 < 16 := by
  have hlt : point / 64 ^ place % 64 < 64 := Nat.mod_lt _ (by decide)
  rw [toNat_continuation]
  cases next <;>
    simp only [Continuation.admits, Bool.and_eq_true, decide_eq_true_eq, iff_true] <;> omega

/-- No class is empty. -/
theorem Continuation.exists_admits (next : Continuation) :
    ∃ byte : UInt8, next.admits byte.toNat = true := by
  cases next with
  | any | notSurrogate | notTooLarge => exact ⟨0x80, by decide⟩
  | notOverlongInThree => exact ⟨0xA0, by decide⟩
  | notOverlongInFour => exact ⟨0x90, by decide⟩

theorem any_admits_continuation (place point : Nat) :
    Continuation.any.admits (continuation place point).toNat = true :=
  (admits_continuation_iff place point).mpr trivial

/-- The bits up to a place are those before it and the six at it. -/
theorem bits_step (place point : Nat) :
    point / 64 ^ (place + 1) * 64 + ((continuation place point).toNat - 0x80) =
      point / 64 ^ place := by
  rw [toNat_continuation, Nat.pow_succ, ← Nat.div_div_eq_div_mul]
  omega

/-- Bits followed by the six of a byte that a class admits are those before a place together with
that byte at the place. -/
theorem bits_split {place : Nat} (h : next.admits byte.toNat = true)
    (hpoint : point / 64 ^ place = bits * 64 + (byte.toNat - 0x80)) :
    point / 64 ^ (place + 1) = bits ∧ continuation place point = byte := by
  have hbounds : 0x80 ≤ byte.toNat ∧ byte.toNat ≤ 0xBF := by
    cases next <;>
      simp only [Continuation.admits, Bool.and_eq_true, decide_eq_true_eq] at h <;> omega
  constructor
  · rw [Nat.pow_succ, ← Nat.div_div_eq_div_mul, hpoint]
    omega
  · apply UInt8.toNat_inj.mp
    rw [toNat_continuation, hpoint]
    omega

/-! ### The bytes of a character -/

/-- The bytes of a code point, by how large it is. -/
theorem utf8EncodeChar_eq (c : Char) :
    utf8EncodeChar c =
      if c.toNat < 0x80 then [.ofNat c.toNat]
      else if c.toNat < 0x800 then .ofNat (c.toNat / 64 ^ 1 + 0xC0) :: trail 1 c.toNat
      else if c.toNat < 0x10000 then .ofNat (c.toNat / 64 ^ 2 + 0xE0) :: trail 2 c.toNat
      else .ofNat (c.toNat / 64 ^ 3 + 0xF0) :: trail 3 c.toNat := by
  have hvalid : c.toNat < 0xD800 ∨ 0xDFFF < c.toNat ∧ c.toNat < 0x110000 := c.valid
  have htoNat : c.val.toNat = c.toNat := rfl
  simp only [utf8EncodeChar, trail, continuation, htoNat]
  generalize c.toNat = v at *
  by_cases hone : v < 0x80
  · rw [if_pos hone, if_pos (by omega)]
  rw [if_neg hone, if_neg (by omega)]
  by_cases htwo : v < 0x800
  · rw [if_pos htwo, if_pos (by omega), Nat.mod_eq_of_lt (show v / 64 < 32 by omega)]
    simp
  rw [if_neg htwo, if_neg (by omega)]
  by_cases hthree : v < 0x10000
  · rw [if_pos hthree, if_pos (by omega), Nat.mod_eq_of_lt (show v / 4096 < 16 by omega)]
    simp
  · rw [if_neg hthree, if_neg (by omega), Nat.mod_eq_of_lt (show v / 262144 < 8 by omega)]
    simp

theorem utf8EncodeChar_cases (c : Char) :
    (c.toNat < 0x80 ∧ utf8EncodeChar c = [.ofNat c.toNat]) ∨
      ∃ lead next more, utf8EncodeChar c = lead :: trail (more + 1) c.toNat ∧
        Lead lead.toNat next more (c.toNat / 64 ^ (more + 1)) ∧
        next.admits (continuation more c.toNat).toNat = true := by
  have hvalid : c.toNat < 0xD800 ∨ 0xDFFF < c.toNat ∧ c.toNat < 0x110000 := c.valid
  rw [utf8EncodeChar_eq]
  generalize c.toNat = v at *
  split_ifs with hone htwo hthree
  · exact .inl ⟨hone, rfl⟩
  · refine .inr ⟨_, .any, 0, rfl, ?_, any_admits_continuation ..⟩
    rw [toNat_ofNat_of_lt (by omega)]
    exact .two (by omega) (by omega)
  · have hlead : (UInt8.ofNat (v / 64 ^ 2 + 0xE0)).toNat = v / 64 ^ 2 + 0xE0 :=
      toNat_ofNat_of_lt (by omega)
    rcases Decidable.em (v / 64 ^ 2 = 0) with hlow | hlow
    · refine .inr ⟨_, .notOverlongInThree, 1, rfl, ?_, (admits_continuation_iff ..).mpr ?_⟩
      · rw [hlead, hlow]
        exact .threeLow
      · dsimp only; omega
    rcases Decidable.em (v / 64 ^ 2 = 0xD) with hsurrogates | hsurrogates
    · refine .inr ⟨_, .notSurrogate, 1, rfl, ?_, (admits_continuation_iff ..).mpr ?_⟩
      · rw [hlead, hsurrogates]
        exact .threeSurrogates
      · dsimp only; omega
    · refine .inr ⟨_, .any, 1, rfl, ?_, any_admits_continuation ..⟩
      rw [hlead]
      exact .three (by omega) (by omega) (by omega)
  · have hlead : (UInt8.ofNat (v / 64 ^ 3 + 0xF0)).toNat = v / 64 ^ 3 + 0xF0 :=
      toNat_ofNat_of_lt (by omega)
    rcases Decidable.em (v / 64 ^ 3 = 0) with hlow | hlow
    · refine .inr ⟨_, .notOverlongInFour, 2, rfl, ?_, (admits_continuation_iff ..).mpr ?_⟩
      · rw [hlead, hlow]
        exact .fourLow
      · dsimp only; omega
    rcases Decidable.em (v / 64 ^ 3 = 4) with hhigh | hhigh
    · refine .inr ⟨_, .notTooLarge, 2, rfl, ?_, (admits_continuation_iff ..).mpr ?_⟩
      · rw [hlead, hhigh]
        exact .fourHigh
      · dsimp only; omega
    · refine .inr ⟨_, .any, 2, rfl, ?_, any_admits_continuation ..⟩
      rw [hlead]
      exact .four (by omega) (by omega)

/-- A byte of the first half is that of a character. -/
theorem exists_char_one (h : byte.toNat < 0x80) : ∃ c : Char, utf8EncodeChar c = [byte] := by
  have hvalid : byte.toNat.isValidChar := .inl (by omega)
  have htoNat : (Char.ofNatAux byte.toNat hvalid).toNat = byte.toNat := rfl
  refine ⟨Char.ofNatAux byte.toNat hvalid, ?_⟩
  rw [utf8EncodeChar_eq, htoNat, if_pos h, UInt8.ofNat_toNat]

/-- A code point that takes two bytes is one of a character. -/
theorem exists_char_two (hlow : 0x80 ≤ point) (hhigh : point < 0x800) :
    ∃ c : Char, utf8EncodeChar c = .ofNat (point / 64 ^ 1 + 0xC0) :: trail 1 point := by
  have hvalid : point.isValidChar := .inl (by omega)
  have htoNat : (Char.ofNatAux point hvalid).toNat = point := rfl
  refine ⟨Char.ofNatAux point hvalid, ?_⟩
  rw [utf8EncodeChar_eq, htoNat, if_neg (by omega), if_pos hhigh]

/-- A code point that takes three bytes is one of a character if it is no surrogate. -/
theorem exists_char_three (hlow : 0x800 ≤ point) (hhigh : point < 0x10000)
    (hsurrogate : point < 0xD800 ∨ 0xDFFF < point) :
    ∃ c : Char, utf8EncodeChar c = .ofNat (point / 64 ^ 2 + 0xE0) :: trail 2 point := by
  have hvalid : point.isValidChar := hsurrogate.imp id fun h => ⟨h, by omega⟩
  have htoNat : (Char.ofNatAux point hvalid).toNat = point := rfl
  refine ⟨Char.ofNatAux point hvalid, ?_⟩
  rw [utf8EncodeChar_eq, htoNat, if_neg (by omega), if_neg (by omega), if_pos hhigh]

/-- A code point that takes four bytes is one of a character up to the last one. -/
theorem exists_char_four (hlow : 0x10000 ≤ point) (hhigh : point < 0x110000) :
    ∃ c : Char, utf8EncodeChar c = .ofNat (point / 64 ^ 3 + 0xF0) :: trail 3 point := by
  have hvalid : point.isValidChar := .inr ⟨by omega, hhigh⟩
  have htoNat : (Char.ofNatAux point hvalid).toNat = point := rfl
  refine ⟨Char.ofNatAux point hvalid, ?_⟩
  rw [utf8EncodeChar_eq, htoNat, if_neg (by omega), if_neg (by omega), if_neg (by omega)]

/-- Whatever the class of a first byte admits leads to a character. -/
theorem Lead.exists_char (h : Lead byte.toNat next more bits)
    (hbits : point / 64 ^ (more + 1) = bits)
    (hadmits : next.admits (continuation more point).toNat = true) :
    ∃ c : Char, utf8EncodeChar c = byte :: trail (more + 1) point := by
  have hbyte : byte = .ofNat byte.toNat := by simp
  rw [admits_continuation_iff] at hadmits
  rw [hbyte]
  generalize byte.toNat = n at h ⊢
  cases h with
  | two =>
    obtain ⟨c, hc⟩ := exists_char_two (show 0x80 ≤ point by omega) (by omega)
    exact ⟨c, by rw [hc, hbits]⟩
  | threeLow | threeSurrogates | three =>
    dsimp only at hadmits
    obtain ⟨c, hc⟩ := exists_char_three (show 0x800 ≤ point by omega) (by omega) (by omega)
    exact ⟨c, by rw [hc, hbits]⟩
  | fourLow | four | fourHigh =>
    dsimp only at hadmits
    obtain ⟨c, hc⟩ := exists_char_four (show 0x10000 ≤ point by omega) (by omega)
    exact ⟨c, by rw [hc, hbits]⟩

/-- The bytes of a longer sequence are all of the second half. -/
theorem le_of_mem_trail {count : Nat} (h : byte ∈ trail count point) : 0x80 ≤ byte.toNat := by
  induction count with
  | zero => simp [trail] at h
  | succ count ih =>
    rcases List.mem_cons.mp h with rfl | h
    · rw [toNat_continuation]
      omega
    · exact ih h

/-- A byte of the first half is among the bytes of its own character only, and is all of them. -/
theorem utf8EncodeChar_of_mem (h : byte ∈ utf8EncodeChar c) (hascii : byte.toNat < 0x80) :
    c = Char.ofNat byte.toNat ∧ utf8EncodeChar c = [byte] := by
  rcases utf8EncodeChar_cases c with ⟨hc, hbytes⟩ | ⟨lead, next, more, hbytes, hlead, -⟩
  · rw [hbytes] at h
    obtain rfl := List.mem_singleton.mp h
    rw [toNat_ofNat_of_lt (by omega), Char.ofNat_toNat]
    exact ⟨rfl, hbytes⟩
  · have hhigh := hlead.le
    rw [hbytes] at h
    rcases List.mem_cons.mp h with rfl | h
    · omega
    · have htrail := le_of_mem_trail h
      omega

/-! ### Decoding a character -/

/-- The bytes that are due finish the character. -/
theorem decodeFrom_trail (hbits : point / 64 ^ (more + 1) = bits)
    (hadmits : next.admits (continuation more point).toNat = true) (rest : List UInt8) :
    decodeFrom (.inside next more bits) (trail (more + 1) point ++ rest) =
      some (Char.ofNat point) :: decode rest := by
  induction more generalizing next bits with
  | zero =>
    have hpoint := bits_step 0 point
    rw [hbits, Nat.pow_zero, Nat.div_one] at hpoint
    simp [trail, decodeFrom, feed, hadmits, hpoint, decode]
  | succ more ih =>
    have hpoint := bits_step (more + 1) point
    rw [hbits] at hpoint
    have hrest := ih hpoint.symm (any_admits_continuation ..)
    rw [trail, List.cons_append, decodeFrom, feed, if_pos hadmits]
    exact hrest

/-- The bytes of a character at the start are decoded to it. -/
theorem decode_utf8EncodeChar (c : Char) (rest : List UInt8) :
    decode (utf8EncodeChar c ++ rest) = some c :: decode rest := by
  rcases utf8EncodeChar_cases c with ⟨hascii, hbytes⟩ | ⟨lead, next, more, hbytes, hlead, hadmits⟩
  · have htoNat : (UInt8.ofNat c.toNat).toNat = c.toNat := toNat_ofNat_of_lt (by omega)
    have hstart : start (.ofNat c.toNat) = ([some c], .between) := by
      rw [start, htoNat, if_pos hascii, Char.ofNat_toNat]
    rw [hbytes, decode, List.singleton_append, decodeFrom, feed, hstart]
    rfl
  · rw [hbytes, decode, List.cons_append, decodeFrom, feed, hlead.start_eq, List.nil_append,
      decodeFrom_trail rfl hadmits, Char.ofNat_toNat]

/-! ### Ill-formed starts -/

/-- The bytes are a start of the bytes of some character. -/
def Begins (s : List UInt8) : Prop :=
  ∃ c, s <+: utf8EncodeChar c

/-- At the start of `bad ++ rest` no character is encoded, and `bad` is the longest start from which
a character could have come, or one byte if there is none. -/
structure IllFormedStart (bad rest : List UInt8) : Prop where
  noChar : ∀ c, ¬ utf8EncodeChar c <+: bad ++ rest
  nonempty : bad ≠ []
  begins : Begins bad ∨ bad.length = 1
  longest : ∀ longer, longer <+: bad ++ rest → Begins longer → longer.length ≤ bad.length

/-- After the bytes of `done` a sequence is open, and whatever it can go on with completes them to a
character. -/
def Awaits (done : List UInt8) (next : Continuation) (more bits : Nat) : Prop :=
  ∀ point, point / 64 ^ (more + 1) = bits → next.admits (continuation more point).toNat = true →
    ∃ c : Char, utf8EncodeChar c = done ++ trail (more + 1) point

/-- The first byte of a sequence awaits the rest of a character. -/
theorem Lead.awaits (h : Lead byte.toNat next more bits) : Awaits [byte] next more bits :=
  fun _ hbits hadmits => h.exists_char hbits hadmits

/-- One more byte of the sequence leaves less to wait for. -/
theorem Awaits.push (h : Awaits done next (more + 1) bits)
    (hadmits : next.admits byte.toNat = true) :
    Awaits (done ++ [byte]) .any more (bits * 64 + (byte.toNat - 0x80)) := by
  intro point hpoint _
  obtain ⟨hbits, hbyte⟩ := bits_split hadmits hpoint
  obtain ⟨c, hc⟩ := h point hbits (by rw [hbyte]; exact hadmits)
  refine ⟨c, ?_⟩
  rw [hc, trail, hbyte, List.append_assoc, List.singleton_append]

/-- A byte that is awaited keeps up the start of a character. -/
theorem Awaits.begins (h : Awaits done next more bits) (hadmits : next.admits byte.toNat = true) :
    Begins (done ++ [byte]) := by
  -- the code point with the bits so far and zeros behind them
  obtain ⟨point, hpoint⟩ : ∃ point, point / 64 ^ more = bits * 64 + (byte.toNat - 0x80) :=
    ⟨_, Nat.mul_div_cancel _ (Nat.pow_pos (by decide))⟩
  obtain ⟨hbits, hbyte⟩ := bits_split hadmits hpoint
  obtain ⟨c, hc⟩ := h point hbits (by rw [hbyte]; exact hadmits)
  refine ⟨c, trail more point, ?_⟩
  rw [hc, trail, hbyte, List.append_assoc, List.singleton_append]

/-- The bytes `done` have been read, nothing has been decoded by them, and the decoder knows what
completes them to a character. -/
structure Opened (done : List UInt8) (next : Continuation) (more bits : Nat) : Prop where
  decode_eq : ∀ rest, decode (done ++ rest) = decodeFrom (.inside next more bits) rest
  awaits : Awaits done next more bits

theorem Lead.opened (h : Lead byte.toNat next more bits) : Opened [byte] next more bits where
  decode_eq rest := by
    rw [decode, List.singleton_append, decodeFrom, feed, h.start_eq, List.nil_append]
  awaits := h.awaits

theorem Opened.push (h : Opened done next (more + 1) bits)
    (hadmits : next.admits byte.toNat = true) :
    Opened (done ++ [byte]) .any more (bits * 64 + (byte.toNat - 0x80)) where
  decode_eq rest := by
    rw [List.append_assoc, h.decode_eq, List.singleton_append, decodeFrom, feed, if_pos hadmits,
      List.nil_append]
  awaits := h.awaits.push hadmits

/-- Going on with bytes of the character, but not all of them, leaves a sequence open. -/
theorem Opened.exists_of_trail (h : Opened done next more bits)
    (hbits : point / 64 ^ (more + 1) = bits)
    (hadmits : next.admits (continuation more point).toNat = true)
    (htrail : p ++ q = trail (more + 1) point) (hq : q ≠ []) :
    ∃ next more bits, Opened (done ++ p) next more bits := by
  induction p generalizing done next more bits with
  | nil => exact ⟨next, more, bits, by rwa [List.append_nil]⟩
  | cons byte p ih =>
    obtain ⟨rfl, hrest⟩ := List.cons.inj htrail
    cases more with
    | zero => exact absurd (List.append_eq_nil_iff.mp hrest).2 hq
    | succ more =>
      have hpoint := bits_step (more + 1) point
      rw [hbits] at hpoint
      have hopened := ih (h.push hadmits) hpoint.symm (any_admits_continuation ..) hrest
      rwa [List.append_assoc, List.singleton_append] at hopened

/-- A start of a character's bytes, but not all of them, leaves a sequence open. -/
theorem exists_opened (hp : p ≠ []) (hq : q ≠ []) (hchar : p ++ q = utf8EncodeChar c) :
    ∃ next more bits, Opened p next more bits := by
  rcases utf8EncodeChar_cases c with ⟨-, hbytes⟩ | ⟨lead, next, more, hbytes, hlead, hadmits⟩
  · rw [hbytes, List.append_eq_singleton_iff] at hchar
    rcases hchar with ⟨hnil, -⟩ | ⟨-, hnil⟩
    · exact absurd hnil hp
    · exact absurd hnil hq
  · cases p with
    | nil => exact absurd rfl hp
    | cons byte p =>
      obtain ⟨rfl, htrail⟩ := List.cons.inj (hchar.trans hbytes)
      exact hlead.opened.exists_of_trail rfl hadmits htrail hq

/-- Where nothing awaited follows, an open sequence is ill-formed. -/
theorem Opened.decode_eq_none_cons (h : Opened done next more bits)
    (hrest : ∀ byte ∈ rest.head?, next.admits byte.toNat = false) :
    decode (done ++ rest) = none :: decode rest := by
  rw [h.decode_eq]
  cases rest with
  | nil => rfl
  | cons byte rest =>
    have hrefused : next.admits byte.toNat = false := hrest byte rfl
    rw [decodeFrom, feed, if_neg (by simp [hrefused]), decode, decodeFrom, feed, List.cons_append]

/-- A byte that begins no character is ill-formed by itself. -/
theorem start_eq_of_not_begins (h : ¬ Begins [byte]) : start byte = ([none], .between) := by
  rcases start_cases byte with ⟨hascii, -⟩ | hnone | ⟨next, more, bits, hlead, -⟩
  · obtain ⟨c, hc⟩ := exists_char_one hascii
    exact absurd ⟨c, hc ▸ List.prefix_refl _⟩ h
  · exact hnone
  · obtain ⟨second, hadmits⟩ := next.exists_admits
    obtain ⟨c, hc⟩ := hlead.awaits.begins hadmits
    exact absurd ⟨c, (List.prefix_append [byte] [second]).trans hc⟩ h

/-- An ill-formed start is decoded to one ill-formed sequence. -/
theorem IllFormedStart.decode_eq (h : IllFormedStart bad rest) :
    decode (bad ++ rest) = none :: decode rest := by
  by_cases hbegins : Begins bad
  · obtain ⟨c, q, hq⟩ := hbegins
    have hproper : q ≠ [] := by
      rintro rfl
      rw [List.append_nil] at hq
      exact h.noChar c (hq ▸ List.prefix_append bad rest)
    obtain ⟨next, more, bits, hopened⟩ := exists_opened h.nonempty hproper hq
    refine hopened.decode_eq_none_cons fun byte hbyte => ?_
    by_contra hadmits
    obtain ⟨rest, rfl⟩ := List.head?_eq_some_iff.mp hbyte
    have hlonger : bad ++ [byte] <+: bad ++ byte :: rest := ⟨rest, by simp⟩
    have hlength := h.longest _ hlonger (hopened.awaits.begins (by simpa using hadmits))
    rw [List.length_append, List.length_singleton] at hlength
    omega
  · obtain ⟨byte, rfl⟩ := List.length_eq_one_iff.mp (h.begins.resolve_left hbegins)
    rw [decode, List.singleton_append, decodeFrom, feed, start_eq_of_not_begins hbegins]
    rfl

/-! ### Whole byte strings -/

/-- Among the starts of some bytes from which a character could have come one is the longest. -/
theorem exists_longest (bytes : List UInt8) :
    ∃ n ≤ bytes.length, Begins (bytes.take n) ∧
      ∀ longer, longer <+: bytes → Begins longer → longer.length ≤ n := by
  classical
  let begins := fun n => Begins (bytes.take n)
  have hzero : begins 0 := ⟨'a', List.nil_prefix⟩
  refine ⟨Nat.findGreatest begins bytes.length, Nat.findGreatest_le _,
    Nat.findGreatest_spec (Nat.zero_le _) hzero, fun longer hlonger hbegins => ?_⟩
  have htake : longer = bytes.take longer.length := List.prefix_iff_eq_take.mp hlonger
  have hbegins' : begins longer.length := by
    change Begins (bytes.take longer.length)
    rw [← htake]
    exact hbegins
  exact Nat.le_findGreatest hlonger.length_le hbegins'

/-- At the start of any bytes there is a character, or else a longest ill-formed start. -/
theorem exists_start (h : bytes ≠ []) :
    (∃ c rest, bytes = utf8EncodeChar c ++ rest) ∨
      ∃ bad rest, bytes = bad ++ rest ∧ IllFormedStart bad rest := by
  by_cases hchar : ∃ c, utf8EncodeChar c <+: bytes
  · obtain ⟨c, rest, hrest⟩ := hchar
    exact .inl ⟨c, rest, hrest.symm⟩
  · obtain ⟨n, hn, hbegins, hlongest⟩ := exists_longest bytes
    have hpos : 0 < bytes.length := List.length_pos_iff.mpr h
    have hsplit : bytes.take (max n 1) ++ bytes.drop (max n 1) = bytes := List.take_append_drop ..
    have hlength : (bytes.take (max n 1)).length = max n 1 := by
      rw [List.length_take]
      omega
    refine .inr ⟨bytes.take (max n 1), bytes.drop (max n 1), hsplit.symm, ?_, ?_, ?_, ?_⟩
    · rw [hsplit]
      exact fun c hc => hchar ⟨c, hc⟩
    · rw [← List.length_pos_iff, hlength]
      omega
    · rcases Nat.eq_zero_or_pos n with rfl | hn
      · exact .inr hlength
      · rw [Nat.max_eq_left hn]
        exact .inl hbegins
    · intro longer hlonger hbegins
      rw [hsplit] at hlonger
      have hle := hlongest longer hlonger hbegins
      rw [hlength]
      omega

/-- The text of the bytes, with U+FFFD in the place of every longest ill-formed start. -/
inductive Replaces : List UInt8 → List Char → Prop
  | nil : Replaces [] []
  | char (c : Char) {rest : List UInt8} {text : List Char} : Replaces rest text →
      Replaces (utf8EncodeChar c ++ rest) (c :: text)
  | illFormed {bad rest : List UInt8} {text : List Char} : IllFormedStart bad rest →
      Replaces rest text → Replaces (bad ++ rest) ('\uFFFD' :: text)

/-- Each text that stands for the bytes in this sense is the lossy one. -/
theorem Replaces.eq_lossyText (h : Replaces bytes text) : text = lossyText bytes := by
  induction h with
  | nil => rfl
  | char c _ ih =>
    rw [ih, lossyText, lossyText, decode_utf8EncodeChar]
    rfl
  | illFormed hbad _ ih =>
    rw [ih, lossyText, lossyText, hbad.decode_eq]
    rfl

/-- The lossy text stands for the bytes. -/
theorem replaces_lossyText (bytes : List UInt8) : Replaces bytes (lossyText bytes) := by
  induction hn : bytes.length using Nat.strongRecOn generalizing bytes with
  | ind n ih =>
    by_cases hnil : bytes = []
    · rw [hnil]
      exact .nil
    rcases exists_start hnil with ⟨c, rest, rfl⟩ | ⟨bad, rest, rfl, hbad⟩
    · have hpos : 0 < (utf8EncodeChar c).length :=
        List.length_pos_iff.mpr String.utf8EncodeChar_ne_nil
      rw [List.length_append] at hn
      rw [lossyText, decode_utf8EncodeChar]
      exact .char c (ih rest.length (by omega) rest rfl)
    · have hpos : 0 < bad.length := List.length_pos_iff.mpr hbad.nonempty
      rw [List.length_append] at hn
      rw [lossyText, hbad.decode_eq]
      exact .illFormed hbad (ih rest.length (by omega) rest rfl)

/-- Lossy decoding puts U+FFFD in the place of every longest ill-formed start, and does nothing
else. -/
theorem replaces_iff : Replaces bytes text ↔ text = lossyText bytes := by
  constructor
  · exact Replaces.eq_lossyText
  · rintro rfl
    exact replaces_lossyText bytes

/-- The bytes of characters are decoded to them. -/
theorem decode_flatMap_append (text : List Char) (rest : List UInt8) :
    decode (text.flatMap utf8EncodeChar ++ rest) = text.map some ++ decode rest := by
  induction text with
  | nil => rfl
  | cons c text ih =>
    rw [List.flatMap_cons, List.append_assoc, decode_utf8EncodeChar, ih, List.map_cons,
      List.cons_append]

/-- Bytes are well-formed exactly if they are those of some characters. -/
theorem isWellFormed_iff :
    isWellFormed bytes = true ↔ ∃ text : List Char, bytes = text.flatMap utf8EncodeChar := by
  constructor
  · intro h
    refine ⟨lossyText bytes, ?_⟩
    generalize htext : lossyText bytes = text
    have hreplaces := replaces_iff.mpr htext.symm
    clear htext
    induction hreplaces with
    | nil => rfl
    | char c _ ih =>
      rw [isWellFormed, decode_utf8EncodeChar, List.all_cons, Bool.and_eq_true] at h
      rw [List.flatMap_cons, ← ih h.2]
    | illFormed hbad =>
      rw [isWellFormed, hbad.decode_eq] at h
      simp at h
  · rintro ⟨text, rfl⟩
    have hdecode := decode_flatMap_append text []
    rw [List.append_nil, decode_nil, List.append_nil] at hdecode
    simp [isWellFormed, hdecode]

/-! ### Encoding -/

/-- Reading an array of bytes one by one from a place on adds the bytes from there. -/
theorem toList_loop (bytes : ByteArray) (place : Nat) (before : List UInt8) :
    ByteArray.toList.loop bytes place before = before.reverse ++ bytes.data.toList.drop place := by
  induction place, before using ByteArray.toList.loop.induct bytes with
  | case1 place before hplace ih =>
    have hlt : place < bytes.data.toList.length := hplace
    have hget : bytes.get! place = bytes.data.toList[place] := getElem!_pos bytes.data place hplace
    rw [ByteArray.toList.loop, if_pos hplace, ih, List.drop_eq_getElem_cons hlt, hget]
    simp
  | case2 place before hplace =>
    have hle : bytes.data.toList.length ≤ place := Nat.le_of_not_lt hplace
    rw [ByteArray.toList.loop, if_neg hplace, List.drop_eq_nil_of_le hle, List.append_nil]

/-- The bytes of a text are those of its characters. -/
theorem encode_eq_flatMap (s : String) : encode s = s.toList.flatMap utf8EncodeChar := by
  have hbytes : s.toUTF8 = (s.toList.flatMap utf8EncodeChar).toByteArray :=
    String.utf8Encode_toList.symm
  rw [encode, hbytes, ByteArray.toList, toList_loop, List.data_toByteArray]
  rfl

/-- A text is read back from its bytes. -/
theorem lossyText_encode (s : String) : lossyText (encode s) = s.toList := by
  have hdecode := decode_flatMap_append s.toList []
  rw [List.append_nil, decode_nil, List.append_nil] at hdecode
  rw [encode_eq_flatMap, lossyText, hdecode, List.map_map]
  exact List.map_id _

end LayeredEnv.Utf8
