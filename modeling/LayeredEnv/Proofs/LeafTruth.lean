import LayeredEnv.ProjectFile
import LayeredEnv.Proofs.RequirementMeaning

/-!
# What a shortfall reveals

A requirement looks at the values through its leaves only, and of a leaf nothing but its truth
counts.  Two maps of values that agree on the truth of every leaf (`Requirement.AgreeOn`) lead to
the same shortfall, and so to the same words for it: an `all` stops at the same part, and an `any`
goes on equally far.

Values agree on a leaf that names a key if they hold the same for the key, and they agree on an
`equals` that both of them fail.  So the values of keys that a requirement does not name leave its
shortfall as it is, and so does another value that matches no better than the one before.

Main statement: `Requirement.examine_reveals_leaves`.
-/

namespace LayeredEnv

namespace Requirement

variable {values values' : Values} {r leaf : Requirement} {parts : List Requirement}

/-! ### Leaves -/

mutual

/-- The leaves of a requirement, left to right: the requirements in it that have no parts. -/
def leaves : Requirement → List Requirement
  | .all parts => leavesOf parts
  | .any parts => leavesOf parts
  | .key k => [.key k]
  | .equals k text => [.equals k text]
  | .predicate label check => [.predicate label check]

/-- The leaves of requirements. -/
def leavesOf : List Requirement → List Requirement
  | [] => []
  | part :: parts => leaves part ++ leavesOf parts

end

/-- Every leaf of the requirement is true of both maps of values or of neither. -/
def AgreeOn (r : Requirement) (values values' : Values) : Prop :=
  ∀ leaf ∈ r.leaves, leaf.Holds values ↔ leaf.Holds values'

theorem leavesOf_eq_flatMap (parts : List Requirement) : leavesOf parts = parts.flatMap leaves := by
  induction parts with
  | nil => rfl
  | cons part parts ih => rw [leavesOf, ih, List.flatMap_cons]

theorem keysOfParts_eq_flatMap (parts : List Requirement) :
    ProjectFile.keysOfParts parts = parts.flatMap ProjectFile.keysOf := by
  induction parts with
  | nil => rfl
  | cons part parts ih => rw [ProjectFile.keysOfParts, ih, List.flatMap_cons]

/-- The leaves of requirements are those of each of them. -/
theorem mem_leavesOf {part : Requirement} (hpart : part ∈ parts) (hleaf : leaf ∈ part.leaves) :
    leaf ∈ leavesOf parts := by
  rw [leavesOf_eq_flatMap]
  exact List.mem_flatMap.mpr ⟨part, hpart, hleaf⟩

/-- A leaf asks for a key, for a key and its text, or for a check. -/
theorem cases_of_mem_leaves (h : leaf ∈ r.leaves) :
    (∃ k, leaf = .key k) ∨ (∃ k text, leaf = .equals k text) ∨
      ∃ label check, leaf = .predicate label check := by
  induction r using tree_induction with
  | key k => exact .inl ⟨k, List.mem_singleton.mp h⟩
  | equals k text => exact .inr (.inl ⟨k, text, List.mem_singleton.mp h⟩)
  | all parts ih =>
    rw [leaves, leavesOf_eq_flatMap] at h
    obtain ⟨part, hpart, hleaf⟩ := List.mem_flatMap.mp h
    exact ih part hpart hleaf
  | any parts ih =>
    rw [leaves, leavesOf_eq_flatMap] at h
    obtain ⟨part, hpart, hleaf⟩ := List.mem_flatMap.mp h
    exact ih part hpart hleaf
  | predicate label check => exact .inr (.inr ⟨label, check, List.mem_singleton.mp h⟩)

/-- A requirement without checks has none as a leaf. -/
theorem PredicateFree.not_mem_leaves {label : Option String} {check : Values → Bool}
    (hfree : r.PredicateFree) : .predicate label check ∉ r.leaves := by
  induction hfree with
  | key => simp [leaves]
  | equals => simp [leaves]
  | all _ ih =>
    rw [leaves, leavesOf_eq_flatMap, List.mem_flatMap]
    rintro ⟨part, hpart, hleaf⟩
    exact ih part hpart hleaf
  | any _ ih =>
    rw [leaves, leavesOf_eq_flatMap, List.mem_flatMap]
    rintro ⟨part, hpart, hleaf⟩
    exact ih part hpart hleaf

/-- The keys that a requirement names are those that its leaves name. -/
theorem keysOf_eq_flatMap_leaves (r : Requirement) :
    ProjectFile.keysOf r = r.leaves.flatMap ProjectFile.keysOf := by
  have hparts : ∀ parts : List Requirement,
      (∀ part ∈ parts, ProjectFile.keysOf part = part.leaves.flatMap ProjectFile.keysOf) →
      ProjectFile.keysOfParts parts = (leavesOf parts).flatMap ProjectFile.keysOf := by
    intro parts h
    rw [keysOfParts_eq_flatMap, leavesOf_eq_flatMap, List.flatMap_assoc]
    exact List.flatMap_congr h
  induction r using tree_induction with
  | key k => rfl
  | equals k text => rfl
  | all parts ih => exact hparts parts ih
  | any parts ih => exact hparts parts ih
  | predicate label check => rfl

/-- A key that a leaf names is named by the requirement. -/
theorem mem_keysOf_of_mem_leaves {k : String} (h : leaf ∈ r.leaves)
    (hk : k ∈ ProjectFile.keysOf leaf) : k ∈ ProjectFile.keysOf r := by
  rw [keysOf_eq_flatMap_leaves]
  exact List.mem_flatMap.mpr ⟨leaf, h, hk⟩

/-! ### Values that agree on the leaves -/

/-- Values agree on a leaf for a key if both of them have the key or neither does, on a leaf for a
key and a text if both have that text or neither does, and on a check if it says the same of both.
-/
theorem agreeOn_iff :
    r.AgreeOn values values' ↔
      (∀ k, .key k ∈ r.leaves → values.contains k = values'.contains k) ∧
      (∀ k text, .equals k text ∈ r.leaves → hasText values k text = hasText values' k text) ∧
      ∀ label check, .predicate label check ∈ r.leaves → check values = check values' := by
  constructor
  · intro h
    refine ⟨fun k hleaf => ?_, fun k text hleaf => ?_, fun label check hleaf => ?_⟩
    · rw [Bool.eq_iff_iff, ← holds_key_iff, ← holds_key_iff]
      exact h _ hleaf
    · rw [Bool.eq_iff_iff, ← holds_equals_iff, ← holds_equals_iff]
      exact h _ hleaf
    · have hsame := h _ hleaf
      rw [holds_predicate_iff, holds_predicate_iff] at hsame
      exact Bool.eq_iff_iff.mpr hsame
  · rintro ⟨hkey, hequals, hpredicate⟩ leaf hleaf
    obtain ⟨k, rfl⟩ | ⟨k, text, rfl⟩ | ⟨label, check, rfl⟩ := cases_of_mem_leaves hleaf
    · rw [holds_key_iff, holds_key_iff, hkey k hleaf]
    · rw [holds_equals_iff, holds_equals_iff, hequals k text hleaf]
    · rw [holds_predicate_iff, holds_predicate_iff, hpredicate label check hleaf]

/-- Values that agree on the leaves of parts agree on each of them. -/
theorem AgreeOn.of_mem {part : Requirement}
    (h : ∀ leaf ∈ leavesOf parts, leaf.Holds values ↔ leaf.Holds values') (hpart : part ∈ parts) :
    part.AgreeOn values values' := by
  intro leaf hleaf
  exact h leaf (mem_leavesOf hpart hleaf)

/-- Without checks, values agree on a requirement if they hold the same for the keys it names. -/
theorem AgreeOn.of_keysOf (hfree : r.PredicateFree)
    (h : ∀ k ∈ ProjectFile.keysOf r, values.get? k = values'.get? k) :
    r.AgreeOn values values' := by
  refine agreeOn_iff.mpr ⟨fun k hleaf => ?_, fun k text hleaf => ?_, fun label check hleaf => ?_⟩
  · have hk := mem_keysOf_of_mem_leaves hleaf (List.mem_singleton_self k)
    rw [KeyMap.contains, KeyMap.contains, h k hk]
  · have hk := mem_keysOf_of_mem_leaves hleaf (List.mem_singleton_self k)
    rw [hasText, hasText, h k hk]
  · exact absurd hleaf hfree.not_mem_leaves

/-- Values agree on a requirement if they differ in one key only, whose value has in neither of them
a text that the requirement asks for, and the checks say the same of both. -/
theorem AgreeOn.of_mismatch {k : String} {v v' : Json} (hv : values.get? k = some v)
    (hequals : ∀ text, .equals k text ∈ r.leaves → v.comparedText ≠ text ∧ v'.comparedText ≠ text)
    (hpredicate : ∀ label check, .predicate label check ∈ r.leaves →
      check values = check (values.insert k v')) :
    r.AgreeOn values (values.insert k v') := by
  refine agreeOn_iff.mpr ⟨fun other _ => ?_, fun other text hleaf => ?_, hpredicate⟩
  · rw [KeyMap.contains, KeyMap.contains, KeyMap.get?_insert]
    by_cases hother : other = k
    · rw [if_pos hother, hother, hv]
      rfl
    · rw [if_neg hother]
  · rw [hasText, hasText, KeyMap.get?_insert]
    by_cases hother : other = k
    · subst hother
      obtain ⟨hbefore, hafter⟩ := hequals text hleaf
      simp [hv, hbefore, hafter]
    · rw [if_neg hother]

/-! ### Shortfalls -/

/-- Parts with the same shortfalls have the same first one. -/
theorem examineAll_congr
    (h : ∀ part ∈ parts, examine values part = examine values' part) (index : Nat) :
    examineAll values index parts = examineAll values' index parts := by
  induction parts generalizing index with
  | nil => rfl
  | cons part rest ih =>
    obtain ⟨hpart, hrest⟩ := List.forall_mem_cons.mp h
    rw [examineAll, examineAll, hpart]
    cases examine values' part with
    | some shortfall => rfl
    | none => exact ih hrest (index + 1)

/-- Parts with the same shortfalls have the same list of them. -/
theorem examineAny_congr (h : ∀ part ∈ parts, examine values part = examine values' part) :
    examineAny values parts = examineAny values' parts := by
  induction parts with
  | nil => rfl
  | cons part rest ih =>
    obtain ⟨hpart, hrest⟩ := List.forall_mem_cons.mp h
    rw [examineAny, examineAny, hpart]
    cases examine values' part with
    | none => rfl
    | some shortfall => exact congrArg (Option.map (shortfall :: ·)) (ih hrest)

/-- Values that agree on the leaves of a requirement lead to the same shortfall. -/
theorem AgreeOn.examine_eq (h : r.AgreeOn values values') :
    r.examine values = r.examine values' := by
  induction r using tree_induction with
  | key k => rw [examine, examine, (agreeOn_iff.mp h).1 k (List.mem_singleton_self _)]
  | equals k text =>
    rw [examine, examine, (agreeOn_iff.mp h).2.1 k text (List.mem_singleton_self _)]
  | all parts ih =>
    have hparts : ∀ part ∈ parts, examine values part = examine values' part := by
      intro part hpart
      exact ih part hpart (AgreeOn.of_mem h hpart)
    rw [examine, examine]
    exact examineAll_congr hparts 0
  | any parts ih =>
    have hparts : ∀ part ∈ parts, examine values part = examine values' part := by
      intro part hpart
      exact ih part hpart (AgreeOn.of_mem h hpart)
    rw [examine, examine, examineAny_congr hparts]
  | predicate label check =>
    rw [examine, examine, (agreeOn_iff.mp h).2.2 label check (List.mem_singleton_self _)]

/-- The shortfall of a requirement and the words for it depend on the values by the truth of the
leaves only, and so does the shortfall of requirements that all have to hold.  Hence, without
checks of the caller's own, the values of keys that the requirement does not name are of no account;
and where a key has none of the texts that the requirement asks for, another value without any of
them changes nothing, as long as it changes no check. -/
theorem examine_reveals_leaves (r : Requirement) (values values' : Values) :
    (r.AgreeOn values values' →
        r.examine values = r.examine values' ∧
        (r.examine values).map Shortfall.message = (r.examine values').map Shortfall.message) ∧
      (∀ parts : List Requirement, (∀ part ∈ parts, part.AgreeOn values values') →
        examineAll values 0 parts = examineAll values' 0 parts ∧
        (examineAll values 0 parts).map Shortfall.message =
          (examineAll values' 0 parts).map Shortfall.message) ∧
      (r.PredicateFree → (∀ k ∈ ProjectFile.keysOf r, values.get? k = values'.get? k) →
        r.examine values = r.examine values') ∧
      ∀ k v v', values.get? k = some v →
        (∀ text, .equals k text ∈ r.leaves → v.comparedText ≠ text ∧ v'.comparedText ≠ text) →
        (∀ label check, .predicate label check ∈ r.leaves →
          check values = check (values.insert k v')) →
        r.examine (values.insert k v') = r.examine values := by
  refine ⟨?_, ?_, ?_, ?_⟩
  · intro h
    exact ⟨h.examine_eq, congrArg _ h.examine_eq⟩
  · intro parts h
    have hparts := examineAll_congr (fun part hpart => (h part hpart).examine_eq) 0
    exact ⟨hparts, congrArg _ hparts⟩
  · intro hfree h
    exact (AgreeOn.of_keysOf hfree h).examine_eq
  · intro k v v' hv hequals hpredicate
    exact (AgreeOn.of_mismatch hv hequals hpredicate).examine_eq.symm

/-- The mode has to be one of two, the second one with a debug key; otherwise a check decides. -/
def stagedRequirement : Requirement :=
  .any [.equals "MODE" "dev", .all [.equals "MODE" "test", .key "DEBUG"],
    .predicate (some "forced") fun values => values.contains "FORCE"]

/-- One mode that is neither of the two falls short like another one, and with the same words. -/
theorem examine_stagedRequirement :
    stagedRequirement.examine
        ((KeyMap.empty.insert "MODE" (.string "prod")).insert "MODE" (.int 7)) =
        stagedRequirement.examine (KeyMap.empty.insert "MODE" (.string "prod")) ∧
      (stagedRequirement.examine (KeyMap.empty.insert "MODE" (.string "prod"))).map
        Shortfall.message = some "[MODE=dev, MODE=test, forced]" := by
  refine ⟨?_, by decide +kernel⟩
  obtain ⟨-, -, -, hmismatch⟩ := examine_reveals_leaves stagedRequirement
    (KeyMap.empty.insert "MODE" (.string "prod")) .empty
  refine hmismatch "MODE" (.string "prod") (.int 7) (KeyMap.get?_insert_self ..) ?_ ?_
  · intro text hleaf
    obtain rfl | rfl : text = "dev" ∨ text = "test" := by
      simpa [stagedRequirement, leaves, leavesOf] using hleaf
    · decide +kernel
    · decide +kernel
  · intro label check hleaf
    obtain ⟨-, rfl⟩ : label = some "forced" ∧ check = fun values => values.contains "FORCE" := by
      simpa [stagedRequirement, leaves, leavesOf] using hleaf
    decide +kernel

end Requirement

end LayeredEnv
