import LayeredEnv.Requirement.Basic
import Mathlib.Data.List.Forall2

/-!
# What requirements mean

A requirement is a formula over the resolved values, and `Requirement.Holds` gives its meaning by
rules, one for each way in which a formula can be true.  A shortfall is a certificate that a formula
is false: `Requirement.FallsShort` says which shortfalls fit a requirement, again by rules, and a
shortfall has the shape of its requirement.

Examining decides the meaning and finds the one shortfall that fits.  In an `all` it stops at the
first part that falls short, and in an `any` it goes on until a part holds, so both are described by
what is found in a list of parts (`Requirement.examineAll_eq_some_iff`,
`Requirement.examineAny_eq_some_iff`); the rest is an induction over the tree, for which
`Requirement.tree_induction` hands over what holds of every part.

Values for further keys make no requirement false, unless a check of the caller's own is part of it
(`Requirement.Holds.of_extends`).

Main statement: `Requirement.examine_decides`.
-/

namespace LayeredEnv

namespace Requirement

variable {values : Values} {parts : List Requirement}

/-- What holds of a tree whenever it holds of its parts, holds of every tree. -/
@[elab_as_elim]
theorem tree_induction {motive : Requirement → Prop}
    (key : ∀ k, motive (.key k))
    (equals : ∀ k text, motive (.equals k text))
    (all : ∀ parts, (∀ part ∈ parts, motive part) → motive (.all parts))
    (any : ∀ parts, (∀ part ∈ parts, motive part) → motive (.any parts))
    (predicate : ∀ label check, motive (.predicate label check)) (r : Requirement) : motive r :=
  Requirement.rec (motive_1 := motive) (motive_2 := fun parts => ∀ part ∈ parts, motive part)
    key equals all any predicate (fun _ h => absurd h List.not_mem_nil)
    (fun _ _ hfirst hrest => List.forall_mem_cons.mpr ⟨hfirst, hrest⟩) r

/-! ### Meaning -/

/-- The requirement is true of the values. -/
inductive Holds (values : Values) : Requirement → Prop
  /-- The key is present, whatever it holds. -/
  | key {k : String} : k ∈ values.keys → Holds values (.key k)
  /-- The key is present with a value of this text. -/
  | equals {k text : String} {v : Json} : values.get? k = some v → v.comparedText = text →
      Holds values (.equals k text)
  /-- Every part is true. -/
  | all {parts : List Requirement} : (∀ part ∈ parts, Holds values part) →
      Holds values (.all parts)
  /-- Some part is true. -/
  | any {parts : List Requirement} {part : Requirement} : part ∈ parts → Holds values part →
      Holds values (.any parts)
  /-- The check says so. -/
  | predicate {label : Option String} {check : Values → Bool} : check values = true →
      Holds values (.predicate label check)

/-- The shortfall tells why the requirement is not true of the values. -/
inductive FallsShort (values : Values) : Requirement → Shortfall → Prop
  /-- The key is absent. -/
  | missing {k : String} : k ∉ values.keys → FallsShort values (.key k) (.missing k)
  /-- The key is absent or its value has another text. -/
  | mismatch {k text : String} : (∀ v, values.get? k = some v → v.comparedText ≠ text) →
      FallsShort values (.equals k text) (.mismatch k text)
  /-- The parts before this one are true, and it falls short. -/
  | all {before after : List Requirement} {part : Requirement} {shortfall : Shortfall} :
      (∀ earlier ∈ before, Holds values earlier) → FallsShort values part shortfall →
      FallsShort values (.all (before ++ part :: after)) (.all before.length shortfall)
  /-- Every part falls short. -/
  | any {parts : List Requirement} {shortfalls : List Shortfall} :
      List.Forall₂ (FallsShort values) parts shortfalls →
      FallsShort values (.any parts) (.any shortfalls)
  /-- The check does not say so. -/
  | predicate {label : Option String} {check : Values → Bool} : check values = false →
      FallsShort values (.predicate label check) (.predicate label)

theorem holds_key_iff {k : String} :
    (Requirement.key k).Holds values ↔ values.contains k = true := by
  rw [KeyMap.contains, Option.isSome_iff_exists, ← KeyMap.mem_keys_iff]
  constructor
  · rintro ⟨hmem⟩
    exact hmem
  · exact .key

theorem holds_equals_iff {k text : String} :
    (Requirement.equals k text).Holds values ↔ hasText values k text = true := by
  unfold hasText
  constructor
  · rintro (_ | ⟨hget, htext⟩)
    simp [hget, htext]
  · intro h
    split at h
    · next v hget => exact .equals hget (by simpa using h)
    · simp at h

theorem holds_predicate_iff {label : Option String} {check : Values → Bool} :
    (Requirement.predicate label check).Holds values ↔ check values = true := by
  constructor
  · rintro (_ | _ | _ | _ | hcheck)
    exact hcheck
  · exact .predicate

/-! ### Lists of parts -/

/-- Parts that all have to hold are without a shortfall if each of them is. -/
theorem examineAll_eq_none_iff {index : Nat} :
    examineAll values index parts = none ↔ ∀ part ∈ parts, examine values part = none := by
  induction parts generalizing index with
  | nil => simp [examineAll]
  | cons part parts ih =>
    rw [examineAll, List.forall_mem_cons]
    cases examine values part with
    | some shortfall => simp
    | none => simp [ih]

/-- The shortfall of parts that all have to hold is that of the first part with one, with the place
of that part. -/
theorem examineAll_eq_some_iff {index : Nat} {shortfall : Shortfall} :
    examineAll values index parts = some shortfall ↔
      ∃ before part after first, parts = before ++ part :: after ∧
        (∀ earlier ∈ before, examine values earlier = none) ∧ examine values part = some first ∧
        shortfall = .all (index + before.length) first := by
  induction parts generalizing index with
  | nil => simp [examineAll]
  | cons part parts ih =>
    rw [examineAll]
    cases hpart : examine values part with
    | some first =>
      constructor
      · intro h
        obtain rfl := Option.some.inj h
        exact ⟨[], part, parts, first, rfl, by simp, hpart, rfl⟩
      · rintro ⟨before, other, after, first', hparts, hbefore, hother, rfl⟩
        cases before with
        | nil =>
          obtain ⟨rfl, rfl⟩ := List.cons.inj hparts
          obtain rfl := Option.some.inj (hpart.symm.trans hother)
          rfl
        | cons earlier before =>
          obtain ⟨rfl, rfl⟩ := List.cons.inj hparts
          simp [hpart] at hbefore
    | none =>
      rw [ih]
      constructor
      · rintro ⟨before, other, after, first, rfl, hbefore, hother, rfl⟩
        refine ⟨part :: before, other, after, first, rfl, ?_, hother, ?_⟩
        · exact List.forall_mem_cons.mpr ⟨hpart, hbefore⟩
        · rw [List.length_cons, Nat.add_assoc, Nat.add_comm 1]
      · rintro ⟨before, other, after, first, hparts, hbefore, hother, rfl⟩
        cases before with
        | nil =>
          obtain ⟨rfl, rfl⟩ := List.cons.inj hparts
          simp [hpart] at hother
        | cons earlier before =>
          obtain ⟨rfl, rfl⟩ := List.cons.inj hparts
          refine ⟨before, other, after, first, rfl, (List.forall_mem_cons.mp hbefore).2, hother, ?_⟩
          rw [List.length_cons, Nat.add_assoc, Nat.add_comm 1]

/-- Parts of which one has to hold are without shortfalls if one of them is without one. -/
theorem examineAny_eq_none_iff :
    examineAny values parts = none ↔ ∃ part ∈ parts, examine values part = none := by
  induction parts with
  | nil => simp [examineAny]
  | cons part parts ih =>
    rw [examineAny]
    cases hpart : examine values part with
    | none => simp [hpart]
    | some shortfall => simp [hpart, ih]

/-- The shortfalls of parts of which one has to hold are those of all of them, in order. -/
theorem examineAny_eq_some_iff {shortfalls : List Shortfall} :
    examineAny values parts = some shortfalls ↔
      List.Forall₂ (fun part shortfall => examine values part = some shortfall) parts
        shortfalls := by
  induction parts generalizing shortfalls with
  | nil => simp [examineAny, eq_comm]
  | cons part parts ih =>
    rw [examineAny, List.forall₂_cons_left_iff]
    cases hpart : examine values part with
    | none => simp
    | some first =>
      simp only [Option.map_eq_some_iff, ih, Option.some.injEq]
      constructor
      · rintro ⟨others, hothers, rfl⟩
        exact ⟨first, others, rfl, hothers, rfl⟩
      · rintro ⟨_, others, rfl, hothers, rfl⟩
        exact ⟨others, hothers, rfl⟩

/-! ### Trees -/

/-- Examining finds nothing exactly if the requirement is true. -/
theorem examine_eq_none_iff (r : Requirement) : r.examine values = none ↔ r.Holds values := by
  induction r using tree_induction with
  | key k =>
    rw [examine, holds_key_iff]
    cases values.contains k <;> simp
  | equals k text =>
    rw [examine, holds_equals_iff]
    cases hasText values k text <;> simp
  | all parts ih =>
    rw [examine, examineAll_eq_none_iff]
    constructor
    · intro h
      exact .all fun part hpart => (ih part hpart).mp (h part hpart)
    · rintro (_ | _ | h) part hpart
      exact (ih part hpart).mpr (h part hpart)
  | any parts ih =>
    rw [examine, Option.map_eq_none_iff, examineAny_eq_none_iff]
    constructor
    · rintro ⟨part, hpart, hnone⟩
      exact .any hpart ((ih part hpart).mp hnone)
    · rintro (_ | _ | _ | ⟨hpart, hholds⟩)
      exact ⟨_, hpart, (ih _ hpart).mpr hholds⟩
  | predicate label check =>
    rw [examine]
    constructor
    · intro h
      refine .predicate ?_
      by_contra hcheck
      simp [hcheck] at h
    · rintro (_ | _ | _ | _ | hcheck)
      rw [if_pos hcheck]

/-- What examining finds is the shortfall that fits the requirement. -/
theorem examine_eq_some_iff (r : Requirement) :
    ∀ shortfall, r.examine values = some shortfall ↔ r.FallsShort values shortfall := by
  induction r using tree_induction with
  | key k =>
    intro shortfall
    rw [examine, Option.ite_none_left_eq_some, ← holds_key_iff]
    constructor
    · rintro ⟨habsent, ⟨⟩⟩
      exact .missing fun hmem => habsent (.key hmem)
    · rintro ⟨habsent⟩
      refine ⟨?_, rfl⟩
      rintro ⟨hmem⟩
      exact habsent hmem
  | equals k text =>
    intro shortfall
    rw [examine, Option.ite_none_left_eq_some, ← holds_equals_iff]
    constructor
    · rintro ⟨hother, ⟨⟩⟩
      exact .mismatch fun v hget htext => hother (.equals hget htext)
    · rintro (_ | hother)
      refine ⟨?_, rfl⟩
      rintro (_ | ⟨hget, htext⟩)
      exact hother _ hget htext
  | all parts ih =>
    intro shortfall
    rw [examine, examineAll_eq_some_iff]
    constructor
    · rintro ⟨before, part, after, first, rfl, hbefore, hpart, rfl⟩
      rw [Nat.zero_add]
      refine .all (fun earlier hearlier => ?_) ((ih part (by simp) first).mp hpart)
      exact (examine_eq_none_iff earlier).mp (hbefore earlier hearlier)
    · rintro (_ | _ | @⟨before, after, part, first, hbefore, hpart⟩)
      refine ⟨before, part, after, first, rfl, fun earlier hearlier => ?_,
        (ih part (by simp) first).mpr hpart, by rw [Nat.zero_add]⟩
      exact (examine_eq_none_iff earlier).mpr (hbefore earlier hearlier)
  | any parts ih =>
    intro shortfall
    -- the two relations of a part and its shortfall agree on the parts of this tree only
    have hparts : ∀ shortfalls, examineAny values parts = some shortfalls ↔
        List.Forall₂ (FallsShort values) parts shortfalls := by
      intro shortfalls
      rw [examineAny_eq_some_iff, List.forall₂_iff_get, List.forall₂_iff_get]
      refine and_congr_right fun _ => forall_congr' fun i => forall₂_congr fun hi _ => ?_
      exact ih _ (List.getElem_mem hi) _
    rw [examine, Option.map_eq_some_iff]
    constructor
    · rintro ⟨shortfalls, hsome, rfl⟩
      exact .any ((hparts shortfalls).mp hsome)
    · rintro (_ | _ | _ | hall)
      exact ⟨_, (hparts _).mpr hall, rfl⟩
  | predicate label check =>
    intro shortfall
    rw [examine, Option.ite_none_left_eq_some, Bool.not_eq_true]
    constructor
    · rintro ⟨hcheck, ⟨⟩⟩
      exact .predicate hcheck
    · rintro (_ | _ | _ | _ | hcheck)
      exact ⟨hcheck, rfl⟩

/-! ### More values -/

/-- The requirement has no check of the caller's own anywhere in it. -/
inductive PredicateFree : Requirement → Prop
  | key {k : String} : PredicateFree (.key k)
  | equals {k text : String} : PredicateFree (.equals k text)
  | all {parts : List Requirement} : (∀ part ∈ parts, PredicateFree part) →
      PredicateFree (.all parts)
  | any {parts : List Requirement} : (∀ part ∈ parts, PredicateFree part) →
      PredicateFree (.any parts)

/-- Without checks, what is true of some values stays true if further keys are given values. -/
theorem Holds.of_extends {values' : Values} (hextends : values.Extends values') {r : Requirement}
    (hfree : r.PredicateFree) (h : r.Holds values) : r.Holds values' := by
  induction r using tree_induction with
  | key k =>
    obtain ⟨hmem⟩ := h
    obtain ⟨v, hv⟩ := KeyMap.mem_keys_iff.mp hmem
    exact .key (KeyMap.mem_keys_iff.mpr ⟨v, hextends k v hv⟩)
  | equals k text =>
    obtain _ | ⟨hget, htext⟩ := h
    exact .equals (hextends _ _ hget) htext
  | all parts ih =>
    obtain _ | _ | hparts := h
    cases hfree with
    | all hfree => exact .all fun part hpart => ih part hpart (hfree part hpart) (hparts part hpart)
  | any parts ih =>
    obtain _ | _ | _ | ⟨hpart, hholds⟩ := h
    cases hfree with
    | any hfree => exact .any hpart (ih _ hpart (hfree _ hpart) hholds)
  | predicate label check => cases hfree

/-- Requirements without checks that have no shortfall have none among more values. -/
theorem examineAll_eq_none_of_extends {values' : Values} (hextends : values.Extends values')
    (hfree : ∀ part ∈ parts, part.PredicateFree) {index index' : Nat}
    (h : examineAll values index parts = none) : examineAll values' index' parts = none := by
  rw [examineAll_eq_none_iff] at h ⊢
  intro part hpart
  have hholds := (examine_eq_none_iff part).mp (h part hpart)
  exact (examine_eq_none_iff part).mpr (hholds.of_extends hextends (hfree part hpart))

/-- Examining gives nothing exactly for the requirements that are true of the values, and otherwise
the one shortfall that fits: the first part of an `all` that falls short, with its place and its own
shortfall, and for an `any` the shortfalls of all its parts.  Requirements that all have to hold are
examined as an `all` of them, and their order does not matter to whether they do. -/
theorem examine_decides (values : Values) (r : Requirement) :
    (r.examine values = none ↔ r.Holds values) ∧
      (∀ shortfall, r.examine values = some shortfall ↔ r.FallsShort values shortfall) ∧
      (∀ parts, examineAll values 0 parts = (Requirement.all parts).examine values) ∧
      ∀ parts parts', List.Perm parts parts' →
        (examineAll values 0 parts = none ↔ examineAll values 0 parts' = none) := by
  refine ⟨examine_eq_none_iff r, examine_eq_some_iff r, fun parts => by rw [examine], ?_⟩
  intro parts parts' hperm
  rw [examineAll_eq_none_iff, examineAll_eq_none_iff]
  exact ⟨fun h part hpart => h part (hperm.mem_iff.mpr hpart),
    fun h part hpart => h part (hperm.mem_iff.mp hpart)⟩

example (values : Values) : (Requirement.all []).examine values = none ∧
    (Requirement.any []).examine values = some (.any []) := ⟨rfl, rfl⟩

end Requirement

end LayeredEnv
