import LayeredEnv.Layer
import Mathlib.Data.List.Basic

/-!
# Files of one name

A file name is made of an optional name and of the mark of machine-local files.  Names are free
texts, so a name can look like the mark, and then two files of the cascade are one file.

If names and the mark go on the same side of the stem, every local file has the name of a shared
one: its name is that of the local file with the mark put on the outside (`NameScheme.markedName`).
If they go on different sides, a local file is told from every shared one by the first character or
by the last one.  Apart from that nothing is shared: as long as the mark is the same, all file names
are made by putting the name between two fixed texts (`NameScheme.fileName_some`), and these can be
taken away.

Main statement: `NameScheme.fileName_eq_iff_clash`.
-/

namespace LayeredEnv

namespace NameScheme

variable {s : NameScheme} {name name' : Option String} {isLocal isLocal' : Bool}

/-! ### Local files that go by the name of a shared one -/

/-- The name with the local mark put on the outside. -/
def markedName (s : NameScheme) : Option String → String
  | none => localMark
  | some name =>
    match s.nameSide with
    | .before => localMark ++ "." ++ name
    | .after => name ++ "." ++ localMark

/-- The first is a local file that goes by the name of the second one, which is a shared file. -/
inductive Clash (s : NameScheme) : Option String × Bool → Option String × Bool → Prop
  /-- The local neighbour of the base file, and a file with the mark as its name. -/
  | mark : s.localSide = s.nameSide → Clash s (none, true) (some "local", false)
  /-- With both qualifiers before the stem, the mark before the name. -/
  | before {name : String} : s.localSide = .before → s.nameSide = .before →
      Clash s (some name, true) (some ("local." ++ name), false)
  /-- With both qualifiers behind the stem, the mark behind the name. -/
  | after {name : String} : s.localSide = .after → s.nameSide = .after →
      Clash s (some name, true) (some (name ++ ".local"), false)

/-- A name with the mark is not empty. -/
theorem markedName_ne_empty (s : NameScheme) (name : Option String) : s.markedName name ≠ "" := by
  intro hempty
  have hlength := congrArg String.length hempty
  unfold markedName localMark at hlength
  split at hlength
  · simp at hlength
  · split at hlength <;> simp at hlength

/-- What clashes are a local file and the shared one of the marked name. -/
theorem clash_iff :
    Clash s (name, isLocal) (name', isLocal') ↔
      isLocal = true ∧ isLocal' = false ∧ s.localSide = s.nameSide ∧
        name' = some (s.markedName name) := by
  constructor
  · intro h
    cases h with
    | mark hside => exact ⟨rfl, rfl, hside, rfl⟩
    | before hlocal hname =>
      refine ⟨rfl, rfl, hlocal.trans hname.symm, ?_⟩
      simp [markedName, hname, localMark]
    | after hlocal hname =>
      refine ⟨rfl, rfl, hlocal.trans hname.symm, ?_⟩
      simp [markedName, hname, localMark, String.append_assoc]
  · rintro ⟨rfl, rfl, hside, rfl⟩
    cases name with
    | none => exact .mark hside
    | some name =>
      cases hname : s.nameSide with
      | before =>
        have hmarked : s.markedName (some name) = "local." ++ name := by
          simp [markedName, hname, localMark]
        rw [hmarked]
        exact .before (hside.trans hname) hname
      | after =>
        have hmarked : s.markedName (some name) = name ++ ".local" := by
          simp [markedName, hname, localMark, String.append_assoc]
        rw [hmarked]
        exact .after (hside.trans hname) hname

/-- With both qualifiers on one side, a local file goes by the name of the shared file of the marked
name. -/
theorem fileName_true (h : s.localSide = s.nameSide) (name : Option String) :
    s.fileName name true = s.fileName (some (s.markedName name)) false := by
  obtain ⟨localSide, nameSide⟩ := s
  obtain rfl : localSide = nameSide := h
  cases localSide <;> cases name <;>
    simp [fileName, qualifiers, markedName, String.append_assoc]

/-- With the qualifiers on different sides, a local file goes by the name of no shared one. -/
theorem fileName_true_ne (h : s.localSide ≠ s.nameSide) (name name' : Option String) :
    s.fileName name true ≠ s.fileName name' false := by
  obtain ⟨localSide, nameSide⟩ := s
  intro hsame
  have hchars := congrArg String.toList hsame
  cases localSide with
  | before =>
    -- the local file begins with the mark, the shared one with the stem
    obtain rfl : nameSide = .after := by
      cases nameSide with
      | before => exact absurd rfl h
      | after => rfl
    have hhead := congrArg List.head? hchars
    cases name <;> cases name' <;> simp [fileName, qualifiers, stem, localMark] at hhead
  | after =>
    -- the local file ends in the mark, the shared one in the stem
    obtain rfl : nameSide = .before := by
      cases nameSide with
      | before => rfl
      | after => exact absurd rfl h
    have hlast := congrArg List.getLast? hchars
    cases name <;> cases name' <;> simp [fileName, qualifiers, stem, localMark] at hlast

/-! ### Files with the same mark -/

/-- What stands before the name in a file name. -/
def leftOf (s : NameScheme) (isLocal : Bool) : String :=
  match s.nameSide with
  | .before => if s.localSide = .before ∧ isLocal then localMark ++ "." else ""
  | .after => (if s.localSide = .before ∧ isLocal then localMark else "") ++ stem ++ "."

/-- What stands behind the name in a file name. -/
def rightOf (s : NameScheme) (isLocal : Bool) : String :=
  (if s.nameSide = .before then stem else "") ++
    if s.localSide = .after ∧ isLocal then "." ++ localMark else ""

/-- A name is put between texts that do not depend on it. -/
theorem fileName_some (s : NameScheme) (name : String) (isLocal : Bool) :
    s.fileName (some name) isLocal = s.leftOf isLocal ++ name ++ s.rightOf isLocal := by
  obtain ⟨localSide, nameSide⟩ := s
  cases localSide <;> cases nameSide <;> cases isLocal <;>
    simp [fileName, qualifiers, leftOf, rightOf, String.append_assoc]

/-- Without a name, a file name is no longer than what is put around names. -/
theorem length_fileName_none_le (s : NameScheme) (isLocal : Bool) :
    (s.fileName none isLocal).length ≤ (s.leftOf isLocal).length + (s.rightOf isLocal).length := by
  obtain ⟨localSide, nameSide⟩ := s
  cases localSide <;> cases nameSide <;> cases isLocal <;> decide

/-- A name that is not empty makes a file name other than the one without a name. -/
theorem fileName_some_ne_none {name : String} (h : name ≠ "") (s : NameScheme) (isLocal : Bool) :
    s.fileName (some name) isLocal ≠ s.fileName none isLocal := by
  intro hsame
  have hlength := congrArg String.length hsame
  have hnone := s.length_fileName_none_le isLocal
  have hpos : 0 < name.length := by
    apply Nat.pos_of_ne_zero
    intro hzero
    exact h (String.length_eq_zero_iff.mp hzero)
  rw [fileName_some, String.length_append, String.length_append] at hlength
  omega

/-- Files with the same mark have one file name only if they have one name. -/
theorem fileName_inj (hname : name ≠ some "") (hname' : name' ≠ some "") :
    s.fileName name isLocal = s.fileName name' isLocal ↔ name = name' := by
  constructor
  · intro hsame
    cases name with
    | none =>
      cases name' with
      | none => rfl
      | some n' =>
        have hne : n' ≠ "" := fun hempty => hname' (congrArg some hempty)
        exact absurd hsame.symm (fileName_some_ne_none hne s isLocal)
    | some n =>
      have hne : n ≠ "" := fun hempty => hname (congrArg some hempty)
      cases name' with
      | none => exact absurd hsame (fileName_some_ne_none hne s isLocal)
      | some n' =>
        rw [fileName_some, fileName_some, String.append_left_inj, String.append_right_inj] at hsame
        exact congrArg some hsame
  · intro hsame
    rw [hsame]

/-! ### All files -/

/-- A local file goes by the name of a shared one exactly if the two clash. -/
theorem fileName_true_eq_false_iff (hname' : name' ≠ some "") :
    s.fileName name true = s.fileName name' false ↔ Clash s (name, true) (name', false) := by
  rw [clash_iff]
  by_cases hside : s.localSide = s.nameSide
  · have hmarked : some (s.markedName name) ≠ some "" := by
      intro hempty
      exact s.markedName_ne_empty name (Option.some.inj hempty)
    rw [fileName_true hside, fileName_inj hmarked hname']
    constructor
    · intro hsame
      exact ⟨rfl, rfl, hside, hsame.symm⟩
    · rintro ⟨-, -, -, hsame⟩
      exact hsame.symm
  · constructor
    · intro hsame
      exact absurd hsame (fileName_true_ne hside name name')
    · rintro ⟨-, -, hside', -⟩
      exact absurd hside' hside

/-- Two files have one file name exactly if they have one name and one mark, or clash. -/
theorem fileName_eq_iff (hname : name ≠ some "") (hname' : name' ≠ some "") :
    s.fileName name isLocal = s.fileName name' isLocal' ↔
      (name = name' ∧ isLocal = isLocal') ∨ Clash s (name, isLocal) (name', isLocal') ∨
        Clash s (name', isLocal') (name, isLocal) := by
  have hnever : ∀ a b, ¬ Clash s (a, isLocal) (b, isLocal) := by
    intro a b hclash
    obtain ⟨htrue, hfalse, -, -⟩ := clash_iff.mp hclash
    exact absurd (htrue.symm.trans hfalse) (by decide)
  cases isLocal <;> cases isLocal'
  · simp [fileName_inj hname hname', hnever]
  · rw [eq_comm, fileName_true_eq_false_iff hname]
    simp [clash_iff]
  · rw [fileName_true_eq_false_iff hname']
    simp [clash_iff]
  · simp [fileName_inj hname hname', hnever]

/-- Where no name is empty, two files have one file name exactly if they have one name and one mark,
or one of them is a local file and the other one the shared file that it clashes with.  So with the
qualifiers on different sides no file name is shared, and with any scheme the file of a name, local
or shared, is not the base file. -/
theorem fileName_eq_iff_clash (hname : name ≠ some "") (hname' : name' ≠ some "") :
    (s.fileName name isLocal = s.fileName name' isLocal' ↔
        (name = name' ∧ isLocal = isLocal') ∨ Clash s (name, isLocal) (name', isLocal') ∨
          Clash s (name', isLocal') (name, isLocal)) ∧
      (s.localSide ≠ s.nameSide → s.fileName name isLocal = s.fileName name' isLocal' →
        name = name' ∧ isLocal = isLocal') ∧
      s.fileName none false = ".env" ∧
      (name ≠ none → s.fileName name isLocal ≠ ".env") := by
  have hbase : s.fileName none false = ".env" := by
    simp [fileName, qualifiers, stem]
  refine ⟨fileName_eq_iff hname hname', ?_, hbase, ?_⟩
  · intro hside hsame
    rcases (fileName_eq_iff hname hname').mp hsame with hequal | hclash | hclash
    · exact hequal
    · obtain ⟨-, -, hside', -⟩ := clash_iff.mp hclash
      exact absurd hside' hside
    · obtain ⟨-, -, hside', -⟩ := clash_iff.mp hclash
      exact absurd hside' hside
  · intro hsome hsame
    rcases (fileName_eq_iff hname (by simp)).mp (hsame.trans hbase.symm) with
      hequal | hclash | hclash
    · exact hsome hequal.1
    · -- the base file has no name, and what a local file clashes with has one
      obtain ⟨-, -, -, hmarked⟩ := clash_iff.mp hclash
      exact absurd hmarked.symm (Option.some_ne_none _)
    · obtain ⟨hlocal, -, -, -⟩ := clash_iff.mp hclash
      exact absurd hlocal (by decide)

/-- With the qualifiers behind the stem the local file of `eu` is the shared file of `eu.local`, and
with the local mark before the stem it is not. -/
theorem fileName_dottedName :
    (some "eu" : Option String) ≠ some "" ∧ (some "eu.local" : Option String) ≠ some "" ∧
      NameScheme.fileName ⟨.after, .after⟩ (some "eu") true =
        NameScheme.fileName ⟨.after, .after⟩ (some "eu.local") false ∧
      NameScheme.fileName ⟨.before, .after⟩ (some "eu") true ≠
        NameScheme.fileName ⟨.before, .after⟩ (some "eu.local") false := by
  have hname : (some "eu" : Option String) ≠ some "" := by decide
  have hname' : (some "eu.local" : Option String) ≠ some "" := by decide
  refine ⟨hname, hname', ?_, ?_⟩
  · apply (fileName_eq_iff_clash hname hname').1.mpr
    have hclash : Clash ⟨.after, .after⟩ (some "eu", true) (some ("eu" ++ ".local"), false) :=
      .after rfl rfl
    exact .inr (.inl hclash)
  · intro hsame
    have hequal := (fileName_eq_iff_clash hname hname').2.1 (by decide) hsame
    exact absurd hequal.1 (by decide)

end NameScheme

end LayeredEnv
