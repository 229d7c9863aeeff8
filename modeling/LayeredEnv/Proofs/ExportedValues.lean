import LayeredEnv.Proofs.ChildEnvironment
import LayeredEnv.Proofs.LeafTruth

/-!
# Requirements and exported values

A requirement compares a value by its text, and a child is handed a text for every value.  The two
texts are written by rules of their own (`Json.comparedText`, `Json.display`), which agree on every
value but null (`Json.display_eq_comparedText`): null is compared as a word and exported as nothing.

So the values and the texts that a child finds for them (`Resolution.exported`) agree on every leaf
of a requirement that does not ask for the text of null, and what holds of the one or is short in it
is so in the other.

Main statement: `Resolution.examine_exported`.
-/

namespace LayeredEnv

/-- A map is the map of its pairs. -/
theorem KeyMap.ofList_entries {α : Type u} (m : KeyMap α) : ofList m.entries = m := by
  refine ext_get? fun key => ?_
  rw [get?_ofList, find?_perm (List.reverse_perm m.entries) ?_, get?]
  rw [List.map_reverse, List.nodup_reverse]
  exact LiveEnvironment.nodup_keys m

namespace Json

/-- A value other than null is exported with the text that it is compared by. -/
theorem display_eq_comparedText {v : Json} (h : v ≠ .null) : v.display = v.comparedText := by
  cases v with
  | null => exact absurd rfl h
  | _ => rfl

theorem comparedText_null : null.comparedText = "null" := by decide

end Json

/-- Examining for a text gives nothing exactly if the value of the key is compared by it. -/
theorem Requirement.examine_equals_eq_none_iff {values : Values} {k text : String} {v : Json}
    (h : values.get? k = some v) :
    (Requirement.equals k text).examine values = none ↔ v.comparedText = text := by
  rw [examine_eq_none_iff, holds_equals_iff, hasText, h]
  exact beq_iff_eq

namespace Resolution

/-- The values as a child finds them: a string for every variable of the environment. -/
def exported (result : Resolution) : Values :=
  KeyMap.ofList (result.environment.map fun p => (p.1, .string p.2))

theorem exported_eq (result : Resolution) :
    result.exported = result.values.map fun v => .string v.display := by
  have hpairs : result.environment.map (fun p => (p.1, Json.string p.2)) =
      (result.values.map fun v => .string v.display).entries := by
    simp [environment, KeyMap.map, KeyMap.mapWithKey]
  rw [exported, hpairs, KeyMap.ofList_entries]

variable {result : Resolution} {r : Requirement}

/-- Values and their exported texts agree on a requirement that has no checks and does not ask for
the text of null. -/
theorem agreeOn_exported (hfree : r.PredicateFree)
    (hnull : ∀ k text, .equals k text ∈ r.leaves → result.values.get? k ≠ some .null) :
    r.AgreeOn result.values result.exported := by
  rw [exported_eq]
  refine Requirement.agreeOn_iff.mpr ⟨fun k _ => ?_, fun k text hleaf => ?_,
    fun label check hleaf => ?_⟩
  · rw [KeyMap.contains_map]
  · have hvalue := hnull k text hleaf
    rw [Requirement.hasText, Requirement.hasText, KeyMap.get?_map]
    cases hget : result.values.get? k with
    | none => rfl
    | some v =>
      have hne : v ≠ .null := fun heq => hvalue (heq ▸ hget)
      simp only [Option.map_some, Json.display_eq_comparedText hne]
      rfl
  · exact absurd hleaf hfree.not_mem_leaves

/-- Without checks, and without a text asked for where the value is null, a requirement falls short
of the values exactly as it falls short of what a child finds for them.  Where the value is null, it
has the text `null` for a requirement and none for a child. -/
theorem examine_exported (result : Resolution) :
    (∀ r : Requirement, r.PredicateFree →
        (∀ k text, .equals k text ∈ r.leaves → result.values.get? k ≠ some .null) →
        r.examine result.exported = r.examine result.values) ∧
      ∀ k text, result.values.get? k = some .null →
        ((Requirement.equals k text).examine result.values = none ↔ text = "null") ∧
        ((Requirement.equals k text).examine result.exported = none ↔ text = "") ∧
        (k, "") ∈ result.environment := by
  constructor
  · intro r hfree hnull
    exact (agreeOn_exported hfree hnull).examine_eq.symm
  · intro k text hnull
    have hexported : result.exported.get? k = some (.string "") := by
      rw [exported_eq, KeyMap.get?_map, hnull]
      rfl
    refine ⟨?_, ?_, ?_⟩
    · rw [Requirement.examine_equals_eq_none_iff hnull, Json.comparedText_null, eq_comm]
    · rw [Requirement.examine_equals_eq_none_iff hexported, eq_comm]
      rfl
    · exact List.mem_map.mpr ⟨(k, .null), KeyMap.mem_entries_iff.mpr hnull, rfl⟩

/-- Values of several types. -/
def typedResolution : Resolution where
  bindings := KeyMap.ofList [("DEBUG", ⟨.bool true, .default⟩), ("NOTE", ⟨.null, .default⟩),
    ("PORT", ⟨.int 8080, .default⟩), ("TAGS", ⟨.array [.int 1, .string "a"], .default⟩)]
  layers := []
  mode := none

/-- The port has to be there together with other tags, or the flag with another text. -/
def typedRequirement : Requirement :=
  .any [.all [.equals "PORT" "8080", .key "NOTE", .equals "TAGS" "[1,\"b\"]"],
    .equals "DEBUG" "1"]

/-- What is short in the values is short in the texts, where the note is there though it is null. -/
theorem examine_typedRequirement :
    typedRequirement.PredicateFree ∧
      (∀ k text, .equals k text ∈ typedRequirement.leaves →
        typedResolution.values.get? k ≠ some .null) ∧
      (typedRequirement.examine typedResolution.exported).map Shortfall.message =
        some "[TAGS=[1,\"b\"], DEBUG=1]" ∧
      typedResolution.values.get? "NOTE" = some .null ∧
      (Requirement.equals "NOTE" "null").examine typedResolution.values = none := by
  have hall : Requirement.PredicateFree
      (.all [.equals "PORT" "8080", .key "NOTE", .equals "TAGS" "[1,\"b\"]"]) :=
    .all (List.forall_mem_cons.mpr ⟨.equals, List.forall_mem_cons.mpr
      ⟨.key, List.forall_mem_singleton.mpr .equals⟩⟩)
  have hfree : typedRequirement.PredicateFree :=
    .any (List.forall_mem_cons.mpr ⟨hall, List.forall_mem_singleton.mpr .equals⟩)
  have hnull : ∀ k text, .equals k text ∈ typedRequirement.leaves →
      typedResolution.values.get? k ≠ some .null := by
    intro k text hleaf
    obtain rfl | rfl | rfl : k = "PORT" ∨ k = "TAGS" ∨ k = "DEBUG" := by
      simp [typedRequirement, Requirement.leaves, Requirement.leavesOf] at hleaf
      tauto
    all_goals simp [typedResolution, values, KeyMap.get?_ofList, KeyMap.find?]
  have hnote : typedResolution.values.get? "NOTE" = some .null := by
    simp [typedResolution, values, KeyMap.get?_ofList, KeyMap.find?]
  obtain ⟨hexamine, htext⟩ := examine_exported typedResolution
  refine ⟨hfree, hnull, ?_, hnote, ((htext "NOTE" "null" hnote).1).mpr rfl⟩
  rw [hexamine _ hfree hnull]
  decide +kernel

end Resolution

end LayeredEnv
