import LayeredEnv.Proofs.LeafTruth
import LayeredEnv.Proofs.ResolvedNames
import LayeredEnv.Proofs.SideTables

/-!
# Keys that a project file may name

A key name is an ASCII letter or `_`, followed by letters, digits, `_`, `.` and `-`.  The rule is
stated twice: by the characters of a name (`ProjectFile.KeyName`), and as a pattern that is searched
in a text and held to both of its ends (`ProjectFile.keyPattern`).  The end of a text is where no
character follows, so a line break at the end is not passed over.

A file is checked along one list of all keys that it names.  What is told is the first key of that
list that is no key name, and `ProjectFile.FirstMisnamed` says by rules which one that is: the mode
key before the defaults, a default before those with greater keys, and among the requirements the
first one that has such a key at a leaf, left to right and at whatever depth
(`Requirement.FirstMisnamed`).

Main statement: `ProjectFile.check_tells_first_misnamed`.
-/

namespace LayeredEnv

/-! ### Patterns that are searched in a text -/

/-- A pattern of characters, in which the two ends of the text may be asked for. -/
inductive TextPattern
  | textStart
  | textEnd
  | oneOf (allowed : Char → Prop)
  | many (part : TextPattern)
  | seq (first second : TextPattern)

namespace TextPattern

variable {before middle after text : List Char} {allowed : Char → Prop} {p q : TextPattern}

/-- The pattern fits the text in the middle, with the other two around it. -/
inductive Fits : List Char → List Char → List Char → TextPattern → Prop
  /-- Nothing stands before the start. -/
  | textStart {after : List Char} : Fits [] [] after .textStart
  /-- Nothing stands behind the end, not even a line break. -/
  | textEnd {before : List Char} : Fits before [] [] .textEnd
  | oneOf {before after : List Char} {c : Char} {allowed : Char → Prop} : allowed c →
      Fits before [c] after (.oneOf allowed)
  | none {before after : List Char} {part : TextPattern} : Fits before [] after (.many part)
  | more {before x y after : List Char} {part : TextPattern} : Fits before x (y ++ after) part →
      Fits (before ++ x) y after (.many part) → Fits before (x ++ y) after (.many part)
  | seq {before x y after : List Char} {first second : TextPattern} :
      Fits before x (y ++ after) first → Fits (before ++ x) y after second →
      Fits before (x ++ y) after (.seq first second)

/-- The pattern fits some part of the text. -/
def Found (p : TextPattern) (text : List Char) : Prop :=
  ∃ before middle after, text = before ++ middle ++ after ∧ Fits before middle after p

theorem fits_textStart_iff : Fits before middle after .textStart ↔ before = [] ∧ middle = [] := by
  constructor
  · intro h
    cases h
    exact ⟨rfl, rfl⟩
  · rintro ⟨rfl, rfl⟩
    exact .textStart

theorem fits_textEnd_iff : Fits before middle after .textEnd ↔ middle = [] ∧ after = [] := by
  constructor
  · intro h
    cases h
    exact ⟨rfl, rfl⟩
  · rintro ⟨rfl, rfl⟩
    exact .textEnd

theorem fits_oneOf_iff :
    Fits before middle after (.oneOf allowed) ↔ ∃ c, middle = [c] ∧ allowed c := by
  constructor
  · rintro (_ | _ | hallowed)
    exact ⟨_, rfl, hallowed⟩
  · rintro ⟨c, rfl, hallowed⟩
    exact .oneOf hallowed

theorem fits_seq_iff :
    Fits before middle after (.seq p q) ↔
      ∃ x y, middle = x ++ y ∧ Fits before x (y ++ after) p ∧ Fits (before ++ x) y after q := by
  constructor
  · intro h
    cases h with
    | seq hfirst hsecond => exact ⟨_, _, rfl, hfirst, hsecond⟩
  · rintro ⟨x, y, rfl, hfirst, hsecond⟩
    exact .seq hfirst hsecond

/-- Many characters fit exactly if all of them are allowed. -/
theorem fits_many_oneOf_iff :
    Fits before middle after (.many (.oneOf allowed)) ↔ ∀ c ∈ middle, allowed c := by
  constructor
  · intro h
    generalize hp : TextPattern.many (.oneOf allowed) = p at h
    induction h with
    | none => simp
    | more hpart _ _ ih =>
      obtain rfl := TextPattern.many.inj hp
      obtain ⟨c, rfl, hallowed⟩ := fits_oneOf_iff.mp hpart
      rw [List.singleton_append, List.forall_mem_cons]
      exact ⟨hallowed, ih rfl⟩
    | textStart => simp at hp
    | textEnd => simp at hp
    | oneOf => simp at hp
    | seq => simp at hp
  · intro h
    induction middle generalizing before with
    | nil => exact .none
    | cons c rest ih =>
      obtain ⟨hc, hrest⟩ := List.forall_mem_cons.mp h
      exact Fits.more (.oneOf hc) (ih hrest)

end TextPattern

/-! ### Key names -/

namespace ProjectFile

variable {c : Char} {key : String}

/-- An ASCII letter. -/
def IsLetter (c : Char) : Prop :=
  ('A' ≤ c ∧ c ≤ 'Z') ∨ ('a' ≤ c ∧ c ≤ 'z')

/-- A character that a key name may begin with. -/
def BeginsKey (c : Char) : Prop :=
  IsLetter c ∨ c = '_'

/-- A character that a key name may go on with. -/
def ContinuesKey (c : Char) : Prop :=
  BeginsKey c ∨ ('0' ≤ c ∧ c ≤ '9') ∨ c = '.' ∨ c = '-'

/-- The rule for key names. -/
structure KeyName (key : String) : Prop where
  nonempty : key ≠ ""
  begins : ∀ c rest, key.toList = c :: rest → BeginsKey c
  continues : ∀ c ∈ key.toList, ContinuesKey c

/-- The pattern of key names, from one end of the text to the other. -/
def keyPattern : TextPattern :=
  .seq .textStart (.seq (.oneOf BeginsKey) (.seq (.many (.oneOf ContinuesKey)) .textEnd))

theorem isAlpha_iff : c.isAlpha = true ↔ IsLetter c := by
  have hupper : c.isUpper = true ↔ 'A' ≤ c ∧ c ≤ 'Z' := decide_eq_true_iff
  have hlower : c.isLower = true ↔ 'a' ≤ c ∧ c ≤ 'z' := by
    show (decide ('a' ≤ c) && decide (c ≤ 'z')) = true ↔ _
    rw [Bool.and_eq_true, decide_eq_true_eq, decide_eq_true_eq]
  show (c.isUpper || c.isLower) = true ↔ _
  rw [Bool.or_eq_true, hupper, hlower, IsLetter]

theorem isKeyStart_iff : isKeyStart c = true ↔ BeginsKey c := by
  rw [isKeyStart, Bool.or_eq_true, isAlpha_iff, beq_iff_eq, BeginsKey]

theorem isKeyChar_iff : isKeyChar c = true ↔ ContinuesKey c := by
  simp only [isKeyChar, ContinuesKey, isKeyStart_iff, Char.isDigit,
    Bool.or_eq_true, Bool.and_eq_true, decide_eq_true_eq, beq_iff_eq, Char.le_def, ge_iff_le,
    or_assoc]

/-- A key name is a character that it may begin with and others that it may go on with. -/
theorem keyName_iff :
    KeyName key ↔ ∃ c rest, key.toList = c :: rest ∧ BeginsKey c ∧ ∀ d ∈ rest, ContinuesKey d := by
  constructor
  · rintro ⟨hnonempty, hbegins, hcontinues⟩
    cases hkey : key.toList with
    | nil => exact absurd (String.toList_eq_nil_iff.mp hkey) hnonempty
    | cons c rest =>
      rw [hkey, List.forall_mem_cons] at hcontinues
      exact ⟨c, rest, rfl, hbegins c rest hkey, hcontinues.2⟩
  · rintro ⟨c, rest, hkey, hbegins, hcontinues⟩
    refine ⟨?_, ?_, ?_⟩
    · rintro rfl
      simp at hkey
    · intro c' rest' hkey'
      obtain ⟨rfl, rfl⟩ := List.cons.inj (hkey.symm.trans hkey')
      exact hbegins
    · rw [hkey, List.forall_mem_cons]
      exact ⟨.inl hbegins, hcontinues⟩

/-- The test for key names decides the rule. -/
theorem isKeyName_iff : isKeyName key = true ↔ KeyName key := by
  rw [keyName_iff]
  unfold isKeyName
  cases key.toList with
  | nil => simp
  | cons c rest =>
    rw [Bool.and_eq_true, isKeyStart_iff, List.all_eq_true]
    simp only [isKeyChar_iff]
    constructor
    · rintro ⟨hbegins, hcontinues⟩
      exact ⟨c, rest, rfl, hbegins, hcontinues⟩
    · rintro ⟨c', rest', hkey, hbegins, hcontinues⟩
      obtain ⟨rfl, rfl⟩ := List.cons.inj hkey
      exact ⟨hbegins, hcontinues⟩

/-- A search finds the pattern exactly in key names. -/
theorem found_keyPattern_iff : keyPattern.Found key.toList ↔ KeyName key := by
  rw [keyName_iff]
  constructor
  · rintro ⟨before, middle, after, hkey, hfits⟩
    simp only [keyPattern, TextPattern.fits_seq_iff, TextPattern.fits_textStart_iff,
      TextPattern.fits_oneOf_iff, TextPattern.fits_many_oneOf_iff,
      TextPattern.fits_textEnd_iff] at hfits
    obtain ⟨_, _, rfl, ⟨rfl, rfl⟩, _, _, rfl, ⟨c, rfl, hbegins⟩, rest, _, rfl, hcontinues, rfl, rfl⟩
      := hfits
    refine ⟨c, rest, ?_, hbegins, hcontinues⟩
    simpa using hkey
  · rintro ⟨c, rest, hkey, hbegins, hcontinues⟩
    refine ⟨[], [] ++ ([c] ++ (rest ++ [])), [], by simp [hkey], ?_⟩
    exact .seq .textStart (.seq (.oneOf hbegins)
      (.seq (TextPattern.fits_many_oneOf_iff.mpr hcontinues) .textEnd))

/-- The characters of key names are ASCII characters other than the line break. -/
theorem ContinuesKey.isAscii (h : ContinuesKey c) : c.toNat < 128 ∧ c ≠ '\n' := by
  have hbounds : ∀ {low high : Char}, 45 ≤ low.toNat → high.toNat < 128 → low ≤ c → c ≤ high →
      45 ≤ c.toNat ∧ c.toNat < 128 := by
    intro low high hlow hhigh hle hge
    exact ⟨Nat.le_trans hlow hle, Nat.lt_of_le_of_lt hge hhigh⟩
  have hrange : 45 ≤ c.toNat ∧ c.toNat < 128 := by
    rcases h with ((⟨hle, hge⟩ | ⟨hle, hge⟩) | rfl) | ⟨hle, hge⟩ | rfl | rfl
    · exact hbounds (by decide) (by decide) hle hge
    · exact hbounds (by decide) (by decide) hle hge
    · decide
    · exact hbounds (by decide) (by decide) hle hge
    · decide
    · decide
  refine ⟨hrange.2, ?_⟩
  rintro rfl
  exact absurd hrange.1 (by decide)

end ProjectFile

/-! ### Keys at leaves -/

namespace Requirement

open ProjectFile (keysOf keysOfParts isKeyName KeyName)

variable {r : Requirement} {k : String}

/-- The key stands at a leaf of the requirement, at whatever depth. -/
inductive Names : Requirement → String → Prop
  | key {k : String} : Names (.key k) k
  | equals {k text : String} : Names (.equals k text) k
  | all {parts : List Requirement} {part : Requirement} {k : String} : part ∈ parts →
      Names part k → Names (.all parts) k
  | any {parts : List Requirement} {part : Requirement} {k : String} : part ∈ parts →
      Names part k → Names (.any parts) k

/-- All keys at the leaves of the requirement are key names. -/
def WellNamed (r : Requirement) : Prop :=
  ∀ k, r.Names k → KeyName k

/-- The key is the first one at the leaves, left to right, that is no key name. -/
inductive FirstMisnamed : Requirement → String → Prop
  | key {k : String} : ¬ KeyName k → FirstMisnamed (.key k) k
  | equals {k text : String} : ¬ KeyName k → FirstMisnamed (.equals k text) k
  | all {before after : List Requirement} {part : Requirement} {k : String} :
      (∀ earlier ∈ before, earlier.WellNamed) → FirstMisnamed part k →
      FirstMisnamed (.all (before ++ part :: after)) k
  | any {before after : List Requirement} {part : Requirement} {k : String} :
      (∀ earlier ∈ before, earlier.WellNamed) → FirstMisnamed part k →
      FirstMisnamed (.any (before ++ part :: after)) k

/-- The keys at the leaves are those that are listed. -/
theorem mem_keysOf_iff : k ∈ keysOf r ↔ r.Names k := by
  induction r using tree_induction with
  | key k' =>
    rw [keysOf, List.mem_singleton]
    constructor
    · rintro rfl
      exact .key
    · rintro ⟨⟩
      rfl
  | equals k' text =>
    rw [keysOf, List.mem_singleton]
    constructor
    · rintro rfl
      exact .equals
    · rintro ⟨⟩
      rfl
  | all parts ih =>
    rw [keysOf, keysOfParts_eq_flatMap, List.mem_flatMap]
    constructor
    · rintro ⟨part, hpart, hk⟩
      exact .all hpart ((ih part hpart).mp hk)
    · rintro (_ | _ | ⟨hpart, hnames⟩)
      exact ⟨_, hpart, (ih _ hpart).mpr hnames⟩
  | any parts ih =>
    rw [keysOf, keysOfParts_eq_flatMap, List.mem_flatMap]
    constructor
    · rintro ⟨part, hpart, hk⟩
      exact .any hpart ((ih part hpart).mp hk)
    · rintro (_ | _ | _ | ⟨hpart, hnames⟩)
      exact ⟨_, hpart, (ih _ hpart).mpr hnames⟩
  | predicate label check =>
    rw [keysOf]
    constructor
    · intro h
      exact absurd h List.not_mem_nil
    · rintro ⟨⟩

/-- No key is found among the listed ones exactly if all of them are key names. -/
theorem find?_keysOf_eq_none_iff :
    (keysOf r).find? (fun k => !isKeyName k) = none ↔ r.WellNamed := by
  rw [List.find?_eq_none]
  constructor
  · intro h k hnames
    have hname := h k (mem_keysOf_iff.mpr hnames)
    exact ProjectFile.isKeyName_iff.mp (by simpa using hname)
  · intro h k hk
    have hname := ProjectFile.isKeyName_iff.mpr (h k (mem_keysOf_iff.mp hk))
    simp [hname]

/-- Among the keys of several requirements the first that is no key name is the one of the first
requirement that has such a key. -/
theorem find?_keysOfParts_eq_some_iff {parts : List Requirement} :
    (keysOfParts parts).find? (fun k => !isKeyName k) = some k ↔
      ∃ before part after, parts = before ++ part :: after ∧
        (keysOf part).find? (fun k => !isKeyName k) = some k ∧
        ∀ earlier ∈ before, earlier.WellNamed := by
  rw [keysOfParts_eq_flatMap, List.find?_flatMap, List.findSome?_eq_some_iff]
  simp only [find?_keysOf_eq_none_iff]

/-- The first of the listed keys that is no key name is the first one at the leaves. -/
theorem find?_keysOf_eq_some_iff :
    (keysOf r).find? (fun k => !isKeyName k) = some k ↔ r.FirstMisnamed k := by
  have hleaf : ∀ k', [k'].find? (fun k => !isKeyName k) = some k ↔ k' = k ∧ ¬ KeyName k := by
    intro k'
    rw [← ProjectFile.isKeyName_iff]
    by_cases hname : isKeyName k' = true
    · simp only [List.find?_singleton, hname, Bool.not_true, Bool.false_eq_true, if_false,
        reduceCtorEq, false_iff, not_and, Decidable.not_not]
      rintro rfl
      exact hname
    · simp only [List.find?_singleton, hname, Bool.not_false, if_true, Option.some.injEq]
      constructor
      · rintro rfl
        exact ⟨rfl, hname⟩
      · rintro ⟨rfl, -⟩
        rfl
  induction r using tree_induction with
  | key k' =>
    rw [keysOf, hleaf]
    constructor
    · rintro ⟨rfl, hmisnamed⟩
      exact .key hmisnamed
    · rintro ⟨hmisnamed⟩
      exact ⟨rfl, hmisnamed⟩
  | equals k' text =>
    rw [keysOf, hleaf]
    constructor
    · rintro ⟨rfl, hmisnamed⟩
      exact .equals hmisnamed
    · rintro (_ | hmisnamed)
      exact ⟨rfl, hmisnamed⟩
  | all parts ih =>
    rw [keysOf, find?_keysOfParts_eq_some_iff]
    constructor
    · rintro ⟨before, part, after, rfl, hpart, hbefore⟩
      exact .all hbefore ((ih part (by simp)).mp hpart)
    · rintro (_ | _ | @⟨before, after, part, _, hbefore, hpart⟩)
      exact ⟨before, part, after, rfl, (ih part (by simp)).mpr hpart, hbefore⟩
  | any parts ih =>
    rw [keysOf, find?_keysOfParts_eq_some_iff]
    constructor
    · rintro ⟨before, part, after, rfl, hpart, hbefore⟩
      exact .any hbefore ((ih part (by simp)).mp hpart)
    · rintro (_ | _ | _ | @⟨before, after, part, _, hbefore, hpart⟩)
      exact ⟨before, part, after, rfl, (ih part (by simp)).mpr hpart, hbefore⟩
  | predicate label check =>
    rw [keysOf]
    constructor
    · intro h
      simp at h
    · rintro ⟨⟩

end Requirement

/-! ### Keys of a file -/

/-- Among the keys of a map the first that passes a test is the least one. -/
theorem KeyMap.find?_keys_eq_some_iff {α : Type u} {m : KeyMap α} {test : String → Bool}
    {key : String} :
    m.keys.find? test = some key ↔
      key ∈ m.keys ∧ test key = true ∧ ∀ key' ∈ m.keys, key' < key → test key' = false := by
  have hentries : m.keys.find? test =
      m.entries.findSome? fun p => Option.guard (test ·) p.1 := by
    rw [keys, List.find?_eq_findSome?_guard, List.findSome?_map]
    rfl
  have hleast := findSome?_entries_eq_some_iff (f := fun key (_ : α) => Option.guard (test ·) key)
    (m := m) (c := key)
  rw [hentries, hleast]
  simp only [Option.guard_eq_some_iff, Option.guard_eq_none_iff, mem_keys_iff]
  constructor
  · rintro ⟨k, a, ha, ⟨rfl, htest⟩, hlower⟩
    refine ⟨⟨a, ha⟩, htest, ?_⟩
    rintro key' ⟨a', ha'⟩ hlt
    exact hlower key' a' ha' hlt
  · rintro ⟨⟨a, ha⟩, htest, hlower⟩
    refine ⟨key, a, ha, ⟨rfl, htest⟩, ?_⟩
    intro key' a' ha' hlt
    exact hlower key' ⟨a', ha'⟩ hlt

namespace ProjectFile

variable {p : ProjectFile} {field key : String}

/-- The file names the key in the field. -/
inductive Names (p : ProjectFile) : String → String → Prop
  | modeKey {key : String} : p.modeKey = some key → Names p "mode-key" key
  | defaults {key : String} {value : Json} : p.defaults.get? key = some value →
      Names p "defaults" key
  | required {r : Requirement} {key : String} : r ∈ p.required → r.Names key →
      Names p "required" key

/-- All keys that the file names in the field are key names. -/
def WellNamed (p : ProjectFile) (field : String) : Prop :=
  ∀ key, p.Names field key → KeyName key

/-- The key is the first one that the file names, in the field, and that is no key name. -/
inductive FirstMisnamed (p : ProjectFile) : String → String → Prop
  | modeKey {key : String} : p.modeKey = some key → ¬ KeyName key → FirstMisnamed p "mode-key" key
  | defaults {key : String} : p.WellNamed "mode-key" → p.Names "defaults" key → ¬ KeyName key →
      (∀ lower, p.Names "defaults" lower → lower < key → KeyName lower) →
      FirstMisnamed p "defaults" key
  | required {before after : List Requirement} {r : Requirement} {key : String} :
      p.WellNamed "mode-key" → p.WellNamed "defaults" → p.required = before ++ r :: after →
      (∀ earlier ∈ before, earlier.WellNamed) → r.FirstMisnamed key →
      FirstMisnamed p "required" key

theorem names_iff :
    p.Names field key ↔
      (field = "mode-key" ∧ p.modeKey = some key) ∨
      (field = "defaults" ∧ key ∈ p.defaults.keys) ∨
      (field = "required" ∧ key ∈ keysOfParts p.required) := by
  have hrequired : key ∈ keysOfParts p.required ↔ ∃ r ∈ p.required, r.Names key := by
    rw [Requirement.keysOfParts_eq_flatMap, List.mem_flatMap]
    simp only [Requirement.mem_keysOf_iff]
  rw [hrequired, KeyMap.mem_keys_iff]
  constructor
  · intro h
    cases h with
    | modeKey hkey => exact .inl ⟨rfl, hkey⟩
    | defaults hvalue => exact .inr (.inl ⟨rfl, _, hvalue⟩)
    | required hr hnames => exact .inr (.inr ⟨rfl, _, hr, hnames⟩)
  · rintro (⟨rfl, hkey⟩ | ⟨rfl, value, hvalue⟩ | ⟨rfl, r, hr, hnames⟩)
    · exact .modeKey hkey
    · exact .defaults hvalue
    · exact .required hr hnames

/-- The named keys are those that are listed. -/
theorem mem_namedKeys_iff : (field, key) ∈ p.namedKeys ↔ p.Names field key := by
  rw [names_iff, namedKeys]
  simp only [List.mem_append, List.mem_map, Option.mem_toList, Prod.mk.injEq]
  constructor
  · rintro ((⟨_, hkey, rfl, rfl⟩ | ⟨_, hkey, rfl, rfl⟩) | ⟨_, hkey, rfl, rfl⟩)
    · exact .inl ⟨rfl, hkey⟩
    · exact .inr (.inl ⟨rfl, hkey⟩)
    · exact .inr (.inr ⟨rfl, hkey⟩)
  · rintro (⟨rfl, hkey⟩ | ⟨rfl, hkey⟩ | ⟨rfl, hkey⟩)
    · exact .inl (.inl ⟨key, hkey, rfl, rfl⟩)
    · exact .inl (.inr ⟨key, hkey, rfl, rfl⟩)
    · exact .inr ⟨key, hkey, rfl, rfl⟩

/-- In one field the first key that is no key name is told with that field. -/
theorem find?_field (field : String) (keys : List String) :
    (keys.map fun key => (field, key)).find? (fun named => !isKeyName named.2) =
      (keys.find? fun key => !isKeyName key).map (field, ·) := by
  rw [List.find?_map]
  rfl

/-- No key of a field is found exactly if all keys of the field are key names. -/
theorem find?_eq_none_iff_wellNamed {keys : List String}
    (h : ∀ key, p.Names field key ↔ key ∈ keys) :
    (keys.find? fun key => !isKeyName key) = none ↔ p.WellNamed field := by
  rw [List.find?_eq_none]
  simp only [WellNamed, h, ← isKeyName_iff, Bool.not_eq_true', Bool.not_eq_false]

theorem not_isKeyName_iff : (!isKeyName key) = true ↔ ¬ KeyName key := by
  rw [← isKeyName_iff, Bool.not_eq_true']
  exact (Bool.not_eq_true _).symm.to_iff

theorem find?_modeKey_eq_some_iff :
    (p.modeKey.toList.find? fun key => !isKeyName key) = some key ↔
      p.modeKey = some key ∧ ¬ KeyName key := by
  rw [← not_isKeyName_iff]
  cases p.modeKey with
  | none => simp
  | some own =>
    rw [Option.toList_some, List.find?_singleton, Option.ite_none_right_eq_some, Option.some.injEq]
    constructor
    · rintro ⟨hmisnamed, rfl⟩
      exact ⟨rfl, hmisnamed⟩
    · rintro ⟨rfl, hmisnamed⟩
      exact ⟨hmisnamed, rfl⟩

/-- The first of the listed keys that is no key name is the first one that the file names. -/
theorem find?_namedKeys_eq_some_iff :
    p.namedKeys.find? (fun named => !isKeyName named.2) = some (field, key) ↔
      p.FirstMisnamed field key := by
  have hmodeKey : (p.modeKey.toList.find? fun key => !isKeyName key) = none ↔
      p.WellNamed "mode-key" := by
    apply find?_eq_none_iff_wellNamed
    intro key
    simp [names_iff]
  have hnames : ∀ key, p.Names "defaults" key ↔ key ∈ p.defaults.keys := by
    intro key
    simp [names_iff]
  have hdefaults : (p.defaults.keys.find? fun key => !isKeyName key) = none ↔
      p.WellNamed "defaults" :=
    find?_eq_none_iff_wellNamed hnames
  rw [namedKeys, List.find?_append, List.find?_append, find?_field, find?_field, find?_field]
  simp only [Option.or_eq_some_iff, Option.or_eq_none_iff, Option.map_eq_some_iff,
    Option.map_eq_none_iff, Prod.mk.injEq, hmodeKey, hdefaults, find?_modeKey_eq_some_iff,
    KeyMap.find?_keys_eq_some_iff, Requirement.find?_keysOfParts_eq_some_iff,
    Requirement.find?_keysOf_eq_some_iff, not_isKeyName_iff, Bool.not_eq_false', isKeyName_iff]
  constructor
  · rintro ((⟨_, ⟨hkey, hmisnamed⟩, rfl, rfl⟩ | ⟨hmode, _, ⟨hkey, hmisnamed, hlower⟩, rfl, rfl⟩) |
      ⟨⟨hmode, hdefault⟩, _, ⟨before, r, after, hparts, hmisnamed, hbefore⟩, rfl, rfl⟩)
    · exact .modeKey hkey hmisnamed
    · exact .defaults hmode ((hnames _).mpr hkey) hmisnamed fun lower hnamed hlt =>
        hlower lower ((hnames lower).mp hnamed) hlt
    · exact .required hmode hdefault hparts hbefore hmisnamed
  · intro h
    cases h with
    | modeKey hkey hmisnamed => exact .inl (.inl ⟨key, ⟨hkey, hmisnamed⟩, rfl, rfl⟩)
    | defaults hmode hnamed hmisnamed hlower =>
      refine .inl (.inr ⟨hmode, key, ⟨(hnames key).mp hnamed, hmisnamed, ?_⟩, rfl, rfl⟩)
      intro lower hmem hlt
      exact hlower lower ((hnames lower).mpr hmem) hlt
    | required hmode hdefault hparts hbefore hmisnamed =>
      exact .inr ⟨⟨hmode, hdefault⟩, key, ⟨_, _, _, hparts, hmisnamed, hbefore⟩, rfl, rfl⟩

/-- The check fails exactly with the first key that is no key name. -/
theorem check_eq_error_iff {fault : Fault} :
    p.check = .error fault ↔
      ∃ field key, p.FirstMisnamed field key ∧ fault = .badKeyName field key := by
  unfold check
  cases hfind : p.namedKeys.find? fun named => !isKeyName named.2 with
  | none =>
    simp only [reduceCtorEq, false_iff, not_exists, not_and]
    intro field key hfirst
    have hfound := find?_namedKeys_eq_some_iff.mpr hfirst
    exact absurd (hfound.symm.trans hfind) (Option.some_ne_none _)
  | some named =>
    obtain ⟨field, key⟩ := named
    have hfirst := find?_namedKeys_eq_some_iff.mp hfind
    simp only [Except.error.injEq]
    constructor
    · rintro rfl
      exact ⟨field, key, hfirst, rfl⟩
    · rintro ⟨field', key', hfirst', rfl⟩
      have hfind' := find?_namedKeys_eq_some_iff.mpr hfirst'
      obtain ⟨rfl, rfl⟩ := Prod.mk.inj (Option.some.inj (hfind.symm.trans hfind'))
      rfl

/-- What is told is named by the file and no key name. -/
theorem FirstMisnamed.names (h : p.FirstMisnamed field key) :
    p.Names field key ∧ ¬ KeyName key := by
  have hfind := find?_namedKeys_eq_some_iff.mpr h
  have hmisnamed := List.find?_some hfind
  exact ⟨mem_namedKeys_iff.mp (List.mem_of_find?_eq_some hfind), not_isKeyName_iff.mp hmisnamed⟩

/-- A file passes the check exactly if its mode key, the keys of its defaults and the keys at all
leaves of its requirements are key names.  Otherwise the check fails with the first key that is
none, in the order mode key, defaults, requirements, and with the field that names it.  Key names
are what a search from one end of a text to the other finds, and no other character than the ASCII
ones goes into them, a line break at the end included. -/
theorem check_tells_first_misnamed (p : ProjectFile) :
    (∀ p', p.check = .ok p' ↔ p' = p ∧ ∀ field key, p.Names field key → KeyName key) ∧
      (∀ fault, p.check = .error fault ↔
        ∃ field key, p.FirstMisnamed field key ∧ fault = .badKeyName field key) ∧
      (∀ field key, p.FirstMisnamed field key →
        p.Names field key ∧ ¬ KeyName key ∧
        (Fault.badKeyName field key).message =
          "Invalid config value for " ++ field ++ ": " ++
            ("invalid key name " ++ Text.quoted key)) ∧
      ∀ key, (keyPattern.Found key.toList ↔ KeyName key) ∧
        (KeyName key → ∀ c ∈ key.toList, c.toNat < 128 ∧ c ≠ '\n') := by
  refine ⟨?_, ?_, ?_, ?_⟩
  · intro p'
    rw [check_eq_ok_iff, Prod.forall]
    simp only [mem_namedKeys_iff, isKeyName_iff]
  · intro fault
    exact check_eq_error_iff
  · intro field key hfirst
    obtain ⟨hnames, hmisnamed⟩ := hfirst.names
    exact ⟨hnames, hmisnamed, rfl⟩
  · intro key
    refine ⟨found_keyPattern_iff, ?_⟩
    intro hname c hc
    exact (hname.continues c hc).isAscii

/-- Of the keys at the leaves three are no key names, and one of these ends in a line break. -/
def misnamedFile : ProjectFile where
  modeKey := some "STAGE"
  required := [.key "A.b-1", .any [.all [.equals "_x" "", .key "PORT\n"], .key "9"], .key ""]
  defaults := KeyMap.empty.insert "HOST" .null

/-- The one with the line break comes first, and keys with dots and dashes are passed over. -/
theorem check_misnamedFile :
    misnamedFile.FirstMisnamed "required" "PORT\n" ∧
      misnamedFile.check = .error (.badKeyName "required" "PORT\n") ∧
      misnamedFile.Names "required" "PORT\n" ∧ ¬ KeyName "PORT\n" ∧
      KeyName "A.b-1" ∧ ∀ c ∈ "A.b-1".toList, c.toNat < 128 ∧ c ≠ '\n' := by
  have hfirst : misnamedFile.FirstMisnamed "required" "PORT\n" :=
    find?_namedKeys_eq_some_iff.mp (by decide +kernel)
  have hname : KeyName "A.b-1" := isKeyName_iff.mp (by decide +kernel)
  obtain ⟨-, hfails, htold, hkeys⟩ := check_tells_first_misnamed misnamedFile
  obtain ⟨hnames, hmisnamed, -⟩ := htold _ _ hfirst
  exact ⟨hfirst, (hfails _).mpr ⟨_, _, hfirst, rfl⟩, hnames, hmisnamed, hname,
    (hkeys "A.b-1").2 hname⟩

end ProjectFile

end LayeredEnv
