import LayeredEnv.Proofs.ChildEnvironment
import LayeredEnv.Proofs.ConversionStage
import LayeredEnv.Proofs.EnvironmentOrigin

/-!
# Values that are read back by a child

A child is handed a text for every value, and it may convert that text as its parent converted the
one that the value was made of.  The text of a value is not the text that it was made of: blanks, a
plus sign, leading zeros and the spelling of a flag are gone.  But it is one that the same
conversion accepts, and what it makes of it is the value again (`Conversion.Stable`).  For integers
that is a numeral written digit by digit and read digit by digit: every start of it stands for a
number between zero and the whole one, so no digit leads out of a range that has both
(`IntegerRange.readDigits_ofNat`).

Binary numbers are left out, as one that is not finite becomes null, whose text is no number
(`Conversion.not_stable_float`).

Main statement: `Conversion.converts_exported`.
-/

namespace LayeredEnv

/-! ### Numerals -/

namespace Numeral

variable {n d : Nat} {c : Char}

theorem decimalDigit?_digitChar (h : d < 10) : decimalDigit? (digitChar d) = some d := by
  have hall : ∀ d < 10, decimalDigit? (digitChar d) = some d := by decide
  exact hall d h

theorem isBlank_digitChar (h : d < 10) : Text.isBlank (digitChar d) = false := by
  have hall : ∀ d < 10, Text.isBlank (digitChar d) = false := by decide
  exact hall d h

theorem ofNat_digit (h : d < 10) : ofNat d = [digitChar d] := by
  rw [ofNat, digits, dif_pos (.inl h)]

theorem ofNat_append (hn : 0 < n) (hd : d < 10) :
    ofNat (n * 10 + d) = ofNat n ++ [digitChar d] := by
  have hdiv : (n * 10 + d) / 10 = n := by omega
  have hmod : (n * 10 + d) % 10 = d := by omega
  rw [ofNat, digits, dif_neg (by omega), hdiv, hmod, ofNat]

/-- A number is a digit, or a further digit behind a number that is not zero. -/
@[elab_as_elim]
theorem decimal_induction {motive : Nat → Prop} (digit : ∀ d, d < 10 → motive d)
    (append : ∀ n d, 0 < n → d < 10 → motive n → motive (n * 10 + d)) (n : Nat) : motive n := by
  induction n using Nat.strongRecOn with
  | ind n ih =>
    by_cases hn : n < 10
    · exact digit n hn
    · have hstep := append (n / 10) (n % 10) (by omega) (by omega) (ih (n / 10) (by omega))
      rwa [Nat.div_add_mod'] at hstep

/-- A numeral is made of digits. -/
theorem exists_digit_of_mem_ofNat (h : c ∈ ofNat n) : ∃ d < 10, c = digitChar d := by
  induction n using decimal_induction with
  | digit d hd =>
    rw [ofNat_digit hd, List.mem_singleton] at h
    exact ⟨d, hd, h⟩
  | append n d hn hd ih =>
    rw [ofNat_append hn hd, List.mem_append, List.mem_singleton] at h
    rcases h with h | h
    · exact ih h
    · exact ⟨d, hd, h⟩

theorem ofNat_ne_nil (n : Nat) : ofNat n ≠ [] := by
  induction n using decimal_induction with
  | digit d hd => simp [ofNat_digit hd]
  | append n d hn hd => simp [ofNat_append hn hd]

/-- A numeral has a first digit. -/
theorem exists_ofNat_eq_cons (n : Nat) : ∃ d < 10, ∃ rest, ofNat n = digitChar d :: rest := by
  obtain ⟨c, rest, hcons⟩ := List.exists_cons_of_ne_nil (ofNat_ne_nil n)
  obtain ⟨d, hd, rfl⟩ := exists_digit_of_mem_ofNat (hcons ▸ List.mem_cons_self : c ∈ ofNat n)
  exact ⟨d, hd, rest, hcons⟩

/-- There is no blank in the numeral of an integer. -/
theorem isBlank_of_mem_ofInt {n : Int} (h : c ∈ ofInt n) : Text.isBlank c = false := by
  have hdigits : ∀ m, c ∈ ofNat m → Text.isBlank c = false := by
    intro m hm
    obtain ⟨d, hd, rfl⟩ := exists_digit_of_mem_ofNat hm
    exact isBlank_digitChar hd
  cases n with
  | ofNat m => exact hdigits m h
  | negSucc m =>
    rcases List.mem_cons.mp h with rfl | h
    · decide
    · exact hdigits (m + 1) h

theorem trim_ofInt (n : Int) : Text.trim (ofInt n) = ofInt n := by
  refine Text.Trimmed.trim_eq ⟨fun c hc => ?_, fun c hc => ?_⟩
  · exact isBlank_of_mem_ofInt (List.mem_of_mem_head? hc)
  · exact isBlank_of_mem_ofInt (List.mem_of_mem_getLast? hc)

/-- A number with the sign that its digits are read with. -/
def withSign (negative : Bool) (n : Nat) : Int :=
  if negative then -n else n

@[simp] theorem withSign_false (n : Nat) : withSign false n = n := rfl

@[simp] theorem withSign_true (n : Nat) : withSign true n = -n := rfl

end Numeral

/-! ### Integers of a range -/

namespace IntegerRange

open Numeral

variable {range : IntegerRange} {negative : Bool} {s t : List Char} {n m : Int} {k l d : Nat}

/-- The integer is one of the range. -/
structure Contains (range : IntegerRange) (n : Int) : Prop where
  least_le : range.least ≤ n
  le_greatest : n ≤ range.greatest

theorem contains_zero_unsigned (bits : Nat) : (unsigned bits).Contains 0 := by
  have hpos : 0 < Int.pow 2 bits := Int.pow_pos (by decide)
  exact ⟨Int.le_refl 0, by simp only [unsigned]; omega⟩

theorem contains_zero_signed (bits : Nat) : (signed bits).Contains 0 := by
  have hpos : 0 < Int.pow 2 (bits - 1) := Int.pow_pos (by decide)
  exact ⟨by simp only [signed]; omega, by simp only [signed]; omega⟩

/-- A range with zero has everything between zero and what it has. -/
theorem Contains.of_le (hzero : range.Contains 0) (h : range.Contains (withSign negative k))
    (hle : l ≤ k) : range.Contains (withSign negative l) := by
  obtain ⟨hleast, hgreatest⟩ := h
  cases negative with
  | false =>
    rw [withSign_false] at *
    exact ⟨by have := hzero.least_le; omega, by omega⟩
  | true =>
    rw [withSign_true] at *
    exact ⟨by omega, by have := hzero.le_greatest; omega⟩

/-- One text after another is read on from what was read of the first. -/
theorem readDigits_append (range : IntegerRange) (negative : Bool) (n : Int) (s t : List Char) :
    range.readDigits negative n (s ++ t) =
      (range.readDigits negative n s).bind fun m => range.readDigits negative m t := by
  induction s generalizing n with
  | nil => rfl
  | cons c s ih =>
    rw [List.cons_append, readDigits, readDigits]
    cases decimalDigit? c with
    | none => rfl
    | some d =>
      simp only [ih]
      generalize (if negative then n * 10 - (d : Int) else n * 10 + d) = next
      split
      · rfl
      · split <;> rfl

/-- A further digit is read if the number that it leads to is one of the range. -/
theorem readDigits_digit (hd : d < 10) (h : range.Contains (withSign negative (k * 10 + d))) :
    range.readDigits negative (withSign negative k) [digitChar d] =
      .ok (withSign negative (k * 10 + d)) := by
  have hnext : (if negative then withSign negative k * 10 - d else withSign negative k * 10 + d) =
      withSign negative (k * 10 + d) := by
    cases negative with
    | false => simp
    | true => simp; omega
  simp only [readDigits, decimalDigit?_digitChar hd, hnext]
  rw [if_neg (Int.not_lt.mpr h.le_greatest), if_neg (Int.not_lt.mpr h.least_le)]

/-- The digits of a number are read as that number, if the range has it and zero. -/
theorem readDigits_ofNat (hzero : range.Contains 0) (h : range.Contains (withSign negative k)) :
    range.readDigits negative 0 (ofNat k) = .ok (withSign negative k) := by
  have hstart : withSign negative 0 = 0 := by cases negative <;> rfl
  induction k using decimal_induction with
  | digit d hd =>
    have hdigit := readDigits_digit (k := 0) hd (by simpa using h)
    rwa [hstart, Nat.zero_mul, Nat.zero_add, ← ofNat_digit hd] at hdigit
  | append k d hk hd ih =>
    -- without its last digit the number is nearer to zero, so the range has it too
    have hbefore : range.Contains (withSign negative k) := hzero.of_le h (by omega)
    rw [ofNat_append hk hd, readDigits_append, ih hbefore]
    exact readDigits_digit hd h

theorem read_of_digit (hd : d < 10) (rest : List Char) :
    range.read (digitChar d :: rest) = range.readDigits false 0 (digitChar d :: rest) := by
  have hsign : ∀ d < 10, digitChar d ≠ '+' ∧ digitChar d ≠ '-' := by decide
  obtain ⟨hplus, hminus⟩ := hsign d hd
  generalize digitChar d = c at *
  unfold read
  split <;> simp_all

/-- The numeral of an integer is read as that integer, if the range has it and zero. -/
theorem read_ofInt (hzero : range.Contains 0) (h : range.Contains n) :
    range.read (ofInt n) = .ok n := by
  cases n with
  | ofNat k =>
    obtain ⟨d, hd, rest, hcons⟩ := exists_ofNat_eq_cons k
    have hsigned : range.Contains (withSign false k) := h
    rw [ofInt, hcons, read_of_digit hd, ← hcons]
    exact readDigits_ofNat hzero hsigned
  | negSucc k =>
    obtain ⟨d, hd, rest, hcons⟩ := exists_ofNat_eq_cons (k + 1)
    have hsigned : range.Contains (withSign true (k + 1)) := h
    have hnegative : range.least < 0 := Int.lt_of_le_of_lt h.least_le (Int.negSucc_lt_zero k)
    rw [ofInt, hcons, read, if_pos hnegative, ← hcons]
    exact readDigits_ofNat hzero hsigned

theorem contains_of_readDigits (hn : range.Contains n)
    (h : range.readDigits negative n s = .ok m) : range.Contains m := by
  induction s generalizing n with
  | nil =>
    obtain rfl := Except.ok.inj h
    exact hn
  | cons c s ih =>
    rw [readDigits] at h
    cases hdigit : decimalDigit? c with
    | none => simp [hdigit] at h
    | some d =>
      simp only [hdigit] at h
      generalize (if negative then n * 10 - (d : Int) else n * 10 + d) = next at h
      split at h
      · simp at h
      · next hgreatest =>
        split at h
        · simp at h
        · next hleast => exact ih ⟨Int.not_lt.mp hleast, Int.not_lt.mp hgreatest⟩ h

/-- What is read is in the range, if zero is. -/
theorem contains_of_read (hzero : range.Contains 0) (h : range.read s = .ok n) :
    range.Contains n := by
  unfold read at h
  split at h
  · simp at h
  · exact contains_of_readDigits hzero h
  · split at h
    · exact contains_of_readDigits hzero h
    · simp at h
  · exact contains_of_readDigits hzero h

end IntegerRange

/-! ### Stable conversions -/

theorem Json.display_int (n : Int) : (int n).display = String.ofList (Numeral.ofInt n) := rfl

namespace Conversion

open Text (Trimmed trim)

variable {convert : Conversion} {range : IntegerRange} {raw : String} {v : Json}

/-- The conversions whose values are exact: flags, truth values, characters, texts, and integers of
any number of bits. -/
inductive Exact : Conversion → Prop
  | flag : Exact flag
  | boolean : Exact boolean
  | character : Exact character
  | text : Exact text
  | unsigned (bits : Nat) : Exact (integer (.unsigned bits))
  | signed (bits : Nat) : Exact (integer (.signed bits))

/-- What a text is converted to, the text that it is exported as is converted to as well. -/
def Stable (convert : Conversion) : Prop :=
  ∀ raw v, convert raw = .ok v → convert v.display = .ok v

theorem stable_flag : Stable flag := by
  intro raw v h
  obtain rfl := Except.ok.inj h
  cases flagWords.contains (lower (trim raw.toList)) with
  | true => rfl
  | false => rfl

theorem stable_boolean : Stable boolean := by
  intro raw v h
  unfold boolean at h
  split at h
  · obtain rfl := Except.ok.inj h
    rfl
  · obtain rfl := Except.ok.inj h
    rfl
  · simp at h

theorem stable_character : Stable character := by
  intro raw v h
  unfold character at h
  split at h
  · simp at h
  · next c hc =>
    obtain rfl := Except.ok.inj h
    -- a single character that trimming leaves is no blank
    have htrim : trim [c] = [c] := (hc ▸ Text.trimmed_trim raw.toList : Trimmed [c]).trim_eq
    simp only [Json.display, character, String.toList_ofList, htrim]
  · simp at h

theorem stable_text : Stable text := by
  intro raw v h
  obtain rfl := Except.ok.inj h
  simp only [Json.display, text, String.toList_ofList, (Text.trimmed_trim raw.toList).trim_eq]

/-- Integers of a range that has zero are read back from their numerals. -/
theorem stable_integer (hzero : range.Contains 0) : Stable (integer range) := by
  intro raw v h
  unfold integer at h ⊢
  cases hread : range.read (trim raw.toList) with
  | error e => simp [hread, Except.map] at h
  | ok n =>
    rw [hread] at h
    obtain rfl := Except.ok.inj h
    have hn : range.Contains n := IntegerRange.contains_of_read hzero hread
    rw [Json.display_int, String.toList_ofList, Numeral.trim_ofInt,
      IntegerRange.read_ofInt hzero hn]
    rfl

theorem Exact.stable (h : convert.Exact) : convert.Stable := by
  cases h with
  | flag => exact stable_flag
  | boolean => exact stable_boolean
  | character => exact stable_character
  | text => exact stable_text
  | unsigned bits => exact stable_integer (IntegerRange.contains_zero_unsigned bits)
  | signed bits => exact stable_integer (IntegerRange.contains_zero_signed bits)

/-- A binary number that is not finite becomes null, whose text is no number. -/
theorem not_stable_float : ¬ Stable float := by
  intro h
  have hinfinite : float "inf" = .ok .null := by rfl
  have hempty : float Json.null.display = .error .emptyFloat := by rfl
  rw [h "inf" .null hinfinite] at hempty
  simp at hempty

end Conversion

/-! ### What a child finds -/

namespace Request

variable {r : Request} {tree : FileTree} {env : LiveEnvironment} {c : Cascade} {key text : String}
  {convert : Conversion} {v : Json}

/-- The text that is converted for the key is told as the live environment's, and it is not a mode
given outright. -/
def TakesLive (r : Request) (env : LiveEnvironment) (c : Cascade) (key : String) : Prop :=
  (key = r.modeKey → r.mode = none) ∧
    ∃ b, (r.rawBindings env c).get? key = some b ∧ b.origin = .environment

/-- A key other than the mode key is taken from the live environment exactly if that one fills in
and no file that is read has the key. -/
theorem takesLive_iff (hkey : key ≠ r.modeKey) (htext : env.get? key = some text) :
    r.TakesLive env c key ↔
      r.useEnvironment = true ∧ ∀ scan ∈ c.scans, scan.binding? key = none := by
  unfold TakesLive
  rw [get?_rawBindings hkey, ← List.findSome?_eq_none_iff]
  cases hscan : c.scans.findSome? fun scan => scan.binding? key with
  | none => cases r.useEnvironment <;> simp [hkey, htext]
  | some b =>
    -- what a scan binds has a file as its origin
    obtain ⟨scan, -, hbinding⟩ := List.exists_of_findSome?_eq_some hscan
    obtain ⟨e, -, rfl⟩ := Option.map_eq_some_iff.mp hbinding
    simp [Scan.originOf]

/-- What is taken from the live environment is its text of the key. -/
theorem TakesLive.get?_rawBindings (htakes : r.TakesLive env c key)
    (hcascade : r.cascade tree env = .ok c) (htext : env.get? key = some text) :
    (r.rawBindings env c).get? key = some ⟨text, .environment⟩ := by
  obtain ⟨hmode, ⟨value, origin⟩, hb, horigin⟩ := htakes
  obtain rfl : origin = .environment := horigin
  rcases text_of_rawBindings_environment hcascade hb rfl with ⟨hkey, hgiven⟩ | ⟨-, hlive⟩
  · simp [hmode hkey] at hgiven
  · obtain rfl : text = value := Option.some.inj (htext.symm.trans hlive)
    exact hb

/-- The resolution finds the value for the key in the live environment: the conversion of the key
does not make it fail, if no other conversion does then all of them go through, and without a schema
any result has the value. -/
structure ReadsBack (r : Request) (tree : FileTree) (env : LiveEnvironment) (c : Cascade)
    (key : String) (v : Json) : Prop where
  accepted : ∀ e, r.resolve tree env ≠ .error (.conversion key e)
  converted : (∀ key' e, key' ≠ key → ¬ r.Refuses (r.rawBindings env c) key' e) →
    ∃ converted, r.convert (r.rawBindings env c) = .ok converted ∧
      converted.get? key = some ⟨v, .environment⟩
  value : r.schema = none → ∀ result, r.resolve tree env = .ok result →
    result.bindings.get? key = some ⟨v, .environment⟩

/-- A text of the live environment that is converted to a value is read back as that value. -/
theorem TakesLive.readsBack (htakes : r.TakesLive env c key)
    (hcascade : r.cascade tree env = .ok c) (htext : env.get? key = some text)
    (hconvert : r.conversions.get? key = some convert) (h : convert text = .ok v) :
    r.ReadsBack tree env c key v := by
  have hraw := htakes.get?_rawBindings hcascade htext
  have hconverts : r.Converts key text v := .converted hconvert h
  have haccepts : ∀ e, ¬ r.Refuses (r.rawBindings env c) key e := by
    rintro e ⟨b, convert', hb, hconvert', he⟩
    obtain rfl := Option.some.inj (hraw.symm.trans hb)
    obtain rfl := Option.some.inj (hconvert.symm.trans hconvert')
    simp [h] at he
  constructor
  · intro e hfault
    rw [resolve_eq_conversion_iff hcascade, convert_eq_error_iff] at hfault
    obtain ⟨key', e', hsame, hrefuses, -⟩ := hfault
    obtain ⟨rfl, rfl⟩ := Fault.conversion.inj hsame
    exact haccepts e hrefuses
  · intro hothers
    have hnone : ∀ key' e, ¬ r.Refuses (r.rawBindings env c) key' e := by
      intro key' e
      by_cases hkey : key' = key
      · exact hkey ▸ haccepts e
      · exact hothers key' e hkey
    obtain ⟨converted, hall⟩ := exists_convert_of_not_refuses hnone
    refine ⟨converted, hall, ?_⟩
    rcases get?_of_convert hall key with ⟨habsent, -⟩ | ⟨b, value, hb, hvalue, hbound⟩
    · simp [hraw] at habsent
    · obtain rfl := Option.some.inj (hraw.symm.trans hb)
      rw [hbound, hconverts.unique hvalue]
  · intro hschema result hresult
    obtain ⟨c', hcascade', hcomplete⟩ := exists_cascade_of_resolve hresult
    obtain rfl := Except.ok.inj (hcascade.symm.trans hcascade')
    obtain ⟨-, -, hkeys⟩ := get?_of_complete hschema hcomplete
    rcases hkeys key with ⟨b, value, hb, hvalue, hbound⟩ | ⟨habsent, -⟩
    · obtain rfl := Option.some.inj (hraw.symm.trans hb)
      rw [hbound, hconverts.unique hvalue]
    · simp [hraw] at habsent

end Request

namespace Conversion

variable {convert : Conversion} {raw : String} {v : Json}

/-- If a text is converted to an exact value, so is the text that the value is exported as.  A child
that is started with the exported variables finds that text under the key of the value, and if it
takes the key from its live environment and has the same conversion for it, it gets the value again.
Of the keys other than its mode key it takes those that none of its files has. -/
theorem converts_exported (hexact : convert.Exact) (h : convert raw = .ok v) :
    convert v.display = .ok v ∧
      ∀ (parent : Resolution) (inherited : EnvironmentBlock) (key : String),
        parent.values.get? key = some v →
        (∀ p ∈ parent.environment, EnvironmentBlock.IsName p.1) →
        (parent.childEnvironment inherited).get? key = some v.display ∧
        ∀ (child : Request) (tree : FileTree) (c : Cascade),
          child.cascade tree (parent.childEnvironment inherited) = .ok c →
          child.conversions.get? key = some convert →
          (child.TakesLive (parent.childEnvironment inherited) c key →
            child.ReadsBack tree (parent.childEnvironment inherited) c key v) ∧
          (key ≠ child.modeKey →
            (child.TakesLive (parent.childEnvironment inherited) c key ↔
              child.useEnvironment = true ∧ ∀ scan ∈ c.scans, scan.binding? key = none)) := by
  have hagain : convert v.display = .ok v := hexact.stable raw v h
  refine ⟨hagain, fun parent inherited key hvalue hnames => ?_⟩
  have hfound : (parent.childEnvironment inherited).get? key = some v.display :=
    Resolution.get?_childEnvironment hnames hvalue
  refine ⟨hfound, fun child tree c hcascade hconvert => ⟨fun htakes => ?_, fun hkey => ?_⟩⟩
  · exact htakes.readsBack hcascade hfound hconvert hagain
  · exact Request.takesLive_iff hkey hfound

/-- A port that was read from the live environment. -/
def portResolution : Resolution where
  bindings := KeyMap.ofList [("PORT", ⟨.int 80, .environment⟩)]
  layers := []
  mode := none

/-- The port is a number of sixteen bits. -/
def portRequest : Request where
  conversions := KeyMap.empty.insert "PORT" (integer (.unsigned 16))

open Request (layeredTree)

/-- A port that is written with a blank, a sign and zeros is exported without them.  A child that
was started by a process with the long text finds the short one, and reads the port from it. -/
theorem converts_exported_port :
    Exact (integer (.unsigned 16)) ∧ integer (.unsigned 16) " +0080" = .ok (.int 80) ∧
      integer (.unsigned 16) "80" = .ok (.int 80) ∧
      portResolution.values.get? "PORT" = some (.int 80) ∧
      (∀ p ∈ portResolution.environment, EnvironmentBlock.IsName p.1) ∧
      (portResolution.childEnvironment [("PORT", " +0080")]).get? "PORT" = some "80" ∧
      ∃ child, portRequest.resolve layeredTree
          (portResolution.childEnvironment [("PORT", " +0080")]) = .ok child ∧
        child.bindings.get? "PORT" = some ⟨.int 80, .environment⟩ := by
  have hread : integer (.unsigned 16) " +0080" = .ok (.int 80) := rfl
  have hvalue : portResolution.values.get? "PORT" = some (.int 80) := rfl
  have htext : (Json.int 80).display = "80" := by decide +kernel
  have hnames : ∀ p ∈ portResolution.environment, EnvironmentBlock.IsName p.1 := by
    have hlisted : portResolution.environment = [("PORT", "80")] := by decide +kernel
    rw [hlisted, List.forall_mem_singleton]
    exact ⟨by decide, by decide⟩
  obtain ⟨hagain, hchild⟩ := converts_exported (.unsigned 16) hread
  obtain ⟨hfound, hchild⟩ := hchild portResolution [("PORT", " +0080")] "PORT" hvalue hnames
  have hcascade : ((portRequest.cascade layeredTree
      (portResolution.childEnvironment [("PORT", " +0080")])).toOption.map fun c =>
        c.scans.all fun scan => (scan.binding? "PORT").isNone) = some true := by
    decide +kernel
  have hresolves : (portRequest.resolve layeredTree
      (portResolution.childEnvironment [("PORT", " +0080")])).toOption.isSome = true := by
    decide +kernel
  obtain ⟨c, hcascade, hscans⟩ := Option.map_eq_some_iff.mp hcascade
  rw [toOption_eq_some_iff] at hcascade
  simp only [List.all_eq_true, Option.isNone_iff_eq_none] at hscans
  obtain ⟨child, hresult⟩ := Option.isSome_iff_exists.mp hresolves
  rw [toOption_eq_some_iff] at hresult
  obtain ⟨hreads, htakes⟩ := hchild portRequest layeredTree c hcascade rfl
  have htaken := (htakes (by decide)).mpr ⟨rfl, hscans⟩
  rw [htext] at hagain hfound
  exact ⟨.unsigned 16, hread, hagain, hvalue, hnames, hfound, child, hresult,
    (hreads htaken).value rfl child hresult⟩

end Conversion

end LayeredEnv
