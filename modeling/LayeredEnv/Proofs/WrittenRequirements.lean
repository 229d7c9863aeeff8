import LayeredEnv.Proofs.RequirementMeaning
import LayeredEnv.Requirement.Form

/-!
# Written requirements

A value may fit several forms of a requirement at once, and whether it fits one of the forms with
parts is known only once all parts are read.  So there are two sets of rules.
`Requirement.Readable` says which values can be read at all, without an order among the forms.
`Requirement.ReadsAs` says as what a value is read: a form counts only where no earlier one fits,
and a list does not fit as soon as one of its items, at whatever depth, is not readable.

What the reader looks at are the four fields `key`, `value`, `and` and `or` of an object; items of a
list in one of them are smaller than the object (`Requirement.form_induction`), on which all proofs
by induction rest.  `Requirement.form?` writes a requirement down; only checks of the caller's own
have no form.

Main statement: `Requirement.reads_written_forms`.
-/

namespace LayeredEnv

namespace Requirement

variable {v : Json} {r : Requirement} {items : List Json} {parts : List Requirement}
  {entries : List (String × Json)} {name : String}

/-! ### The forms -/

mutual

/-- The written form of a requirement, if it has no check in it. -/
def form? : Requirement → Option Json
  | .key k => some (.string k)
  | .equals k text => some (.fields [("key", .string k), ("value", .string text)])
  | .all parts => (forms? parts).map fun items => .fields [("and", .array items)]
  | .any parts => (forms? parts).map fun items => .fields [("or", .array items)]
  | .predicate _ _ => none

/-- The written forms of requirements. -/
def forms? : List Requirement → Option (List Json)
  | [] => some []
  | part :: parts =>
    match form? part with
    | none => none
    | some item => (forms? parts).map (item :: ·)

end

/-- The value has the two strings of an equality. -/
def HasEquality (v : Json) (k text : String) : Prop :=
  v.field? "key" = some (.string k) ∧ v.field? "value" = some (.string text)

/-- The value fits a form. -/
inductive Readable : Json → Prop
  | key {k : String} : Readable (.string k)
  | equals {v : Json} {k text : String} : HasEquality v k text → Readable v
  | all {v : Json} {items : List Json} : v.field? "and" = some (.array items) →
      (∀ item ∈ items, Readable item) → Readable v
  | any {v : Json} {items : List Json} : v.field? "or" = some (.array items) →
      (∀ item ∈ items, Readable item) → Readable v

/-- The requirement is what the first form that the value fits says. -/
inductive ReadsAs : Json → Requirement → Prop
  | key {k : String} : ReadsAs (.string k) (.key k)
  | equals {v : Json} {k text : String} : HasEquality v k text → ReadsAs v (.equals k text)
  | all {v : Json} {items : List Json} {parts : List Requirement} :
      (∀ k text, ¬ HasEquality v k text) → v.field? "and" = some (.array items) →
      List.Forall₂ ReadsAs items parts → ReadsAs v (.all parts)
  | any {v : Json} {items : List Json} {parts : List Requirement} :
      (∀ k text, ¬ HasEquality v k text) →
      (∀ others, v.field? "and" = some (.array others) → ∃ item ∈ others, ¬ Readable item) →
      v.field? "or" = some (.array items) →
      List.Forall₂ ReadsAs items parts → ReadsAs v (.any parts)

/-! ### What the reader looks at -/

/-- The items of a list in a field are smaller than the value. -/
theorem sizeOf_lt_of_field? (h : v.field? name = some (.array items)) {item : Json}
    (hitem : item ∈ items) : sizeOf item < sizeOf v := by
  cases v with
  | fields entries =>
    have hentry := List.sizeOf_lt_of_mem (KeyMap.mem_of_find? h)
    have hlist := List.sizeOf_lt_of_mem hitem
    simp only [Prod.mk.sizeOf_spec, Json.array.sizeOf_spec, Json.fields.sizeOf_spec] at hentry ⊢
    omega
  | _ => simp [Json.field?] at h

/-- What holds of a value whenever it holds of the items of the lists in its fields, holds of every
value. -/
@[elab_as_elim]
theorem form_induction {motive : Json → Prop}
    (step : ∀ v, (∀ name items, v.field? name = some (.array items) →
      ∀ item ∈ items, motive item) → motive v) (v : Json) : motive v :=
  step v fun _ _ h item hitem =>
    have := sizeOf_lt_of_field? h hitem
    form_induction step item
termination_by v

/-- Requirements in a field are those of the list that the field holds. -/
theorem partsOfField?_eq_some_iff :
    partsOfField? name entries = some parts ↔
      ∃ items, (Json.fields entries).field? name = some (.array items) ∧
        ofForms? items = some parts := by
  rw [Json.field?]
  induction entries with
  | nil => simp [partsOfField?, KeyMap.find?]
  | cons p rest ih =>
    obtain ⟨k, value⟩ := p
    by_cases hname : k = name
    · cases value <;> simp [partsOfField?, KeyMap.find?, hname]
    · cases value <;> simpa [partsOfField?, KeyMap.find?, hname] using ih

/-- Requirements are read from a list item by item. -/
theorem ofForms?_eq_some_iff :
    ofForms? items = some parts ↔
      List.Forall₂ (fun item part => ofForm? item = some part) items parts := by
  induction items generalizing parts with
  | nil => simp [ofForms?, eq_comm]
  | cons item items ih =>
    rw [ofForms?, List.forall₂_cons_left_iff]
    cases ofForm? item with
    | none => simp
    | some part =>
      simp only [Option.map_eq_some_iff, ih, Option.some.injEq]
      constructor
      · rintro ⟨others, hothers, rfl⟩
        exact ⟨part, others, rfl, hothers, rfl⟩
      · rintro ⟨_, others, rfl, hothers, rfl⟩
        exact ⟨others, hothers, rfl⟩

/-- A list is read if each of its items is. -/
theorem isSome_ofForms?_iff :
    (ofForms? items).isSome ↔ ∀ item ∈ items, (ofForm? item).isSome := by
  induction items with
  | nil => simp [ofForms?]
  | cons item items ih =>
    rw [ofForms?, List.forall_mem_cons]
    cases ofForm? item with
    | none => simp
    | some part => simp [ih]

/-- An equality is read from its two strings. -/
theorem equalsOfFields?_eq_some_iff :
    equalsOfFields? entries = some r ↔
      ∃ k text, HasEquality (.fields entries) k text ∧ r = .equals k text := by
  have hstring : ∀ (v : Json) (s : String), v.string? = some s ↔ v = .string s := by
    intro v s
    cases v <;> simp [Json.string?]
  simp only [equalsOfFields?, HasEquality, Json.field?, Option.bind_eq_bind,
    Option.bind_eq_some_iff, hstring, Option.some.injEq]
  constructor
  · rintro ⟨_, hkey, k, rfl, _, htext, text, rfl, rfl⟩
    exact ⟨k, text, ⟨hkey, htext⟩, rfl⟩
  · rintro ⟨k, text, ⟨hkey, htext⟩, rfl⟩
    exact ⟨_, hkey, k, rfl, _, htext, text, rfl, rfl⟩

/-! ### One form after the other -/

/-- The first form that fits is the one that counts. -/
theorem ofForm?_fields (entries : List (String × Json)) :
    ofForm? (.fields entries) = (equalsOfFields? entries).or
      (((partsOfField? "and" entries).map .all).or ((partsOfField? "or" entries).map .any)) := by
  rw [ofForm?]
  cases equalsOfFields? entries with
  | some r => rfl
  | none =>
    cases partsOfField? "and" entries with
    | some parts => rfl
    | none => rfl

/-- An object is no equality if it does not have the two strings of one. -/
theorem equalsOfFields?_eq_none_iff :
    equalsOfFields? entries = none ↔ ∀ k text, ¬ HasEquality (.fields entries) k text := by
  simp only [Option.eq_none_iff_forall_ne_some, ne_eq, equalsOfFields?_eq_some_iff, not_exists,
    not_and]
  exact ⟨fun h k text hfields => h _ k text hfields rfl, fun h _ k text hfields _ =>
    h k text hfields⟩

/-- No requirements are read from a field if it holds no list that can be read. -/
theorem partsOfField?_eq_none_iff :
    partsOfField? name entries = none ↔
      ∀ items, (Json.fields entries).field? name = some (.array items) →
        ofForms? items = none := by
  simp only [Option.eq_none_iff_forall_ne_some, ne_eq, partsOfField?_eq_some_iff, not_exists,
    not_and]
  exact ⟨fun h items hitems parts => h parts items hitems,
    fun h parts items hitems => h items hitems parts⟩

/-- Requirements that are read from a field are put together. -/
theorem map_partsOfField?_eq_some_iff {combine : List Requirement → Requirement} :
    (partsOfField? name entries).map combine = some r ↔
      ∃ items parts, (Json.fields entries).field? name = some (.array items) ∧
        ofForms? items = some parts ∧ r = combine parts := by
  simp only [Option.map_eq_some_iff, partsOfField?_eq_some_iff]
  constructor
  · rintro ⟨parts, ⟨items, hitems, hparts⟩, rfl⟩
    exact ⟨items, parts, hitems, hparts, rfl⟩
  · rintro ⟨items, parts, hitems, hparts, rfl⟩
    exact ⟨parts, ⟨items, hitems, hparts⟩, rfl⟩

/-- A value is read as a key, as an equality, as an `all` if it is no equality, or as an `any` if it
is no equality and its list for an `all` cannot be read. -/
theorem ofForm?_eq_some_iff :
    ofForm? v = some r ↔
      (∃ k, v = .string k ∧ r = .key k) ∨
      (∃ k text, HasEquality v k text ∧ r = .equals k text) ∨
      (∀ k text, ¬ HasEquality v k text) ∧
        ((∃ items parts, v.field? "and" = some (.array items) ∧ ofForms? items = some parts ∧
            r = .all parts) ∨
          (∀ others, v.field? "and" = some (.array others) → ofForms? others = none) ∧
            ∃ items parts, v.field? "or" = some (.array items) ∧ ofForms? items = some parts ∧
              r = .any parts) := by
  cases v with
  | fields entries =>
    rw [ofForm?_fields, Option.or_eq_some_iff, Option.or_eq_some_iff, Option.map_eq_none_iff,
      equalsOfFields?_eq_some_iff, equalsOfFields?_eq_none_iff, partsOfField?_eq_none_iff,
      map_partsOfField?_eq_some_iff, map_partsOfField?_eq_some_iff]
    simp
  | string k => simp [ofForm?, HasEquality, Json.field?, eq_comm]
  | _ => simp [ofForm?, HasEquality, Json.field?]

/-- For whether a value can be read the order of the forms does not matter. -/
theorem isSome_ofForm?_iff_exists :
    (ofForm? v).isSome ↔
      (∃ k, v = .string k) ∨ (∃ k text, HasEquality v k text) ∨
      (∃ items, v.field? "and" = some (.array items) ∧ ∀ item ∈ items, (ofForm? item).isSome) ∨
      ∃ items, v.field? "or" = some (.array items) ∧ ∀ item ∈ items, (ofForm? item).isSome := by
  cases v with
  | fields entries =>
    have hequals : (equalsOfFields? entries).isSome ↔
        ∃ k text, HasEquality (.fields entries) k text := by
      simp [Option.isSome_iff_exists, equalsOfFields?_eq_some_iff]
    have hparts : ∀ name, (partsOfField? name entries).isSome ↔
        ∃ items, (Json.fields entries).field? name = some (.array items) ∧
          ∀ item ∈ items, (ofForm? item).isSome := by
      intro name
      rw [Option.isSome_iff_exists]
      simp only [← isSome_ofForms?_iff, partsOfField?_eq_some_iff]
      constructor
      · rintro ⟨parts, items, hitems, hread⟩
        exact ⟨items, hitems, Option.isSome_of_eq_some hread⟩
      · rintro ⟨items, hitems, hread⟩
        obtain ⟨parts, hparts⟩ := Option.isSome_iff_exists.mp hread
        exact ⟨parts, items, hitems, hparts⟩
    rw [ofForm?_fields, Option.isSome_or, Option.isSome_or, Option.isSome_map, Option.isSome_map,
      Bool.or_eq_true, Bool.or_eq_true, hequals, hparts, hparts]
    simp
  | string k => simp [ofForm?]
  | _ => simp [ofForm?, HasEquality, Json.field?]

/-! ### Rules and reader -/

/-- A value can be read exactly if it fits a form. -/
theorem isSome_ofForm?_iff (v : Json) : (ofForm? v).isSome ↔ Readable v := by
  induction v using form_induction with
  | step v ih =>
  rw [isSome_ofForm?_iff_exists]
  constructor
  · rintro (⟨k, rfl⟩ | ⟨k, text, hfields⟩ | ⟨items, hitems, hread⟩ | ⟨items, hitems, hread⟩)
    · exact .key
    · exact .equals hfields
    · exact .all hitems fun item hitem => (ih _ _ hitems item hitem).mp (hread item hitem)
    · exact .any hitems fun item hitem => (ih _ _ hitems item hitem).mp (hread item hitem)
  · intro h
    cases h with
    | key => exact .inl ⟨_, rfl⟩
    | equals hfields => exact .inr (.inl ⟨_, _, hfields⟩)
    | all hitems hread =>
      refine .inr (.inr (.inl ⟨_, hitems, fun item hitem => ?_⟩))
      exact (ih _ _ hitems item hitem).mpr (hread item hitem)
    | any hitems hread =>
      refine .inr (.inr (.inr ⟨_, hitems, fun item hitem => ?_⟩))
      exact (ih _ _ hitems item hitem).mpr (hread item hitem)

/-- A list cannot be read as soon as one of its items cannot. -/
theorem ofForms?_eq_none_iff : ofForms? items = none ↔ ∃ item ∈ items, ¬ Readable item := by
  rw [← Option.not_isSome_iff_eq_none, isSome_ofForms?_iff]
  simp [isSome_ofForm?_iff]

/-- A value is read as what the first form that it fits says. -/
theorem ofForm?_eq_some_iff_readsAs (v : Json) :
    ∀ r, ofForm? v = some r ↔ ReadsAs v r := by
  induction v using form_induction with
  | step v ih =>
  have hlist : ∀ name items parts, v.field? name = some (.array items) →
      (ofForms? items = some parts ↔ List.Forall₂ ReadsAs items parts) := by
    intro name items parts hitems
    rw [ofForms?_eq_some_iff, List.forall₂_iff_zip, List.forall₂_iff_zip]
    refine and_congr_right fun _ => ⟨fun h item part hmem => ?_, fun h item part hmem => ?_⟩
    · exact (ih name items hitems item (List.of_mem_zip hmem).1 part).mp (h hmem)
    · exact (ih name items hitems item (List.of_mem_zip hmem).1 part).mpr (h hmem)
  intro r
  rw [ofForm?_eq_some_iff]
  constructor
  · rintro (⟨k, rfl, rfl⟩ | ⟨k, text, hfields, rfl⟩ | ⟨hequality, ⟨items, parts, hitems, hparts,
      rfl⟩ | ⟨hand, items, parts, hitems, hparts, rfl⟩⟩)
    · exact .key
    · exact .equals hfields
    · exact .all hequality hitems ((hlist _ _ _ hitems).mp hparts)
    · refine .any hequality (fun others hothers => ?_) hitems ((hlist _ _ _ hitems).mp hparts)
      exact ofForms?_eq_none_iff.mp (hand others hothers)
  · intro h
    cases h with
    | key => exact .inl ⟨_, rfl, rfl⟩
    | equals hfields => exact .inr (.inl ⟨_, _, hfields, rfl⟩)
    | all hequality hitems hparts =>
      exact .inr (.inr ⟨hequality, .inl ⟨_, _, hitems, (hlist _ _ _ hitems).mpr hparts, rfl⟩⟩)
    | any hequality hand hitems hparts =>
      refine .inr (.inr ⟨hequality, .inr ⟨fun others hothers => ?_, _, _, hitems,
        (hlist _ _ _ hitems).mpr hparts, rfl⟩⟩)
      exact ofForms?_eq_none_iff.mpr (hand others hothers)

/-- What is read has no checks in it. -/
theorem predicateFree_of_ofForm? (v : Json) : ∀ r, ofForm? v = some r → r.PredicateFree := by
  induction v using form_induction with
  | step v ih =>
  have hlist : ∀ name items parts, v.field? name = some (.array items) →
      ofForms? items = some parts → ∀ part ∈ parts, part.PredicateFree := by
    intro name items parts hitems hparts part hpart
    obtain ⟨i, hi, rfl⟩ := List.getElem_of_mem hpart
    obtain ⟨hlength, hread⟩ := List.forall₂_iff_get.mp (ofForms?_eq_some_iff.mp hparts)
    exact ih name items hitems _ (List.getElem_mem (hlength ▸ hi)) _ (hread i (hlength ▸ hi) hi)
  intro r hr
  rcases ofForm?_eq_some_iff.mp hr with ⟨k, -, rfl⟩ | ⟨k, text, -, rfl⟩ |
    ⟨-, ⟨items, parts, hitems, hparts, rfl⟩ | ⟨-, items, parts, hitems, hparts, rfl⟩⟩
  · exact .key
  · exact .equals
  · exact .all (hlist _ _ _ hitems hparts)
  · exact .any (hlist _ _ _ hitems hparts)

/-! ### Written forms -/

/-- Written forms of requirements are read back together if each of them is. -/
theorem exists_forms {parts : List Requirement}
    (h : ∀ part ∈ parts, ∃ v, part.form? = some v ∧ ofForm? v = some part) :
    ∃ items, forms? parts = some items ∧ ofForms? items = some parts := by
  induction parts with
  | nil => exact ⟨[], rfl, rfl⟩
  | cons part parts ih =>
    obtain ⟨⟨item, hitem, hread⟩, hparts⟩ := List.forall_mem_cons.mp h
    obtain ⟨items, hitems, hreads⟩ := ih hparts
    exact ⟨item :: items, by simp [forms?, hitem, hitems], by simp [ofForms?, hread, hreads]⟩

/-- A requirement without checks has a written form, which is read back as the requirement. -/
theorem PredicateFree.exists_form {r : Requirement} (h : r.PredicateFree) :
    ∃ v, r.form? = some v ∧ ofForm? v = some r := by
  induction h with
  | key => exact ⟨_, rfl, rfl⟩
  | equals => exact ⟨_, rfl, rfl⟩
  | all _ ih =>
    obtain ⟨items, hitems, hreads⟩ := exists_forms ih
    refine ⟨.fields [("and", .array items)], by simp [form?, hitems], ?_⟩
    exact ofForm?_eq_some_iff.mpr (.inr (.inr ⟨by simp [HasEquality, Json.field?, KeyMap.find?],
      .inl ⟨items, _, rfl, hreads, rfl⟩⟩))
  | any _ ih =>
    obtain ⟨items, hitems, hreads⟩ := exists_forms ih
    refine ⟨.fields [("or", .array items)], by simp [form?, hitems], ?_⟩
    exact ofForm?_eq_some_iff.mpr (.inr (.inr ⟨by simp [HasEquality, Json.field?, KeyMap.find?],
      .inr ⟨by simp [Json.field?, KeyMap.find?], items, _, rfl, hreads, rfl⟩⟩))

/-- The fields that a form may have. -/
def formFields : List String := ["key", "value", "and", "or"]

/-- Fields that no form has do not matter. -/
theorem ofForm?_congr {entries entries' : List (String × Json)}
    (h : ∀ name ∈ formFields, KeyMap.find? name entries = KeyMap.find? name entries') :
    ofForm? (.fields entries) = ofForm? (.fields entries') := by
  have hfield : ∀ name ∈ formFields,
      (Json.fields entries).field? name = (Json.fields entries').field? name := h
  have hkey := hfield "key" (by decide)
  have hvalue := hfield "value" (by decide)
  have hand := hfield "and" (by decide)
  have hor := hfield "or" (by decide)
  refine Option.ext fun r => ?_
  simp only [ofForm?_eq_some_iff, HasEquality, hkey, hvalue, hand, hor, reduceCtorEq]

/-- A requirement without checks is read back from its written form.  A value can be read exactly if
it fits a form, and it is read as what the first form says that it fits, where a list fits only if
all of its items can be read.  What is read has no checks in it, and other fields than those of the
forms do not matter. -/
theorem reads_written_forms :
    (∀ r : Requirement, r.PredicateFree → ∃ v, r.form? = some v ∧ ofForm? v = some r) ∧
      (∀ v, (ofForm? v).isSome ↔ Readable v) ∧
      (∀ v r, ofForm? v = some r ↔ ReadsAs v r) ∧
      (∀ v r, ofForm? v = some r → r.PredicateFree) ∧
      ∀ entries entries' : List (String × Json),
        (∀ name ∈ formFields, KeyMap.find? name entries = KeyMap.find? name entries') →
        ofForm? (.fields entries) = ofForm? (.fields entries') := by
  refine ⟨?_, isSome_ofForm?_iff, ofForm?_eq_some_iff_readsAs, predicateFree_of_ofForm?, ?_⟩
  · intro r hfree
    exact hfree.exists_form
  · intro entries entries' h
    exact ofForm?_congr h

/-- The object is no equality without a `value`, and the list for an `all` has an item in which a
number is asked for, so that the list for an `any` is read. -/
def backtrackingForm : List (String × Json) :=
  [("and", .array [.string "A", .fields [("or", .array [.int 1])]]), ("key", .string "K"),
    ("or", .array [.string "B", .fields [("and", .null), ("key", .string "C"),
      ("value", .string "1")]])]

/-- The third form is the one that counts, also with a note in the object, and what it says is read
back from its own written form. -/
theorem reads_backtrackingForm :
    ReadsAs (.fields backtrackingForm) (.any [.key "B", .equals "C" "1"]) ∧
      ofForm? (.fields (backtrackingForm ++ [("note", .null)])) =
        some (.any [.key "B", .equals "C" "1"]) ∧
      Requirement.PredicateFree (.any [.key "B", .equals "C" "1"]) ∧
      ∃ v, Requirement.form? (.any [.key "B", .equals "C" "1"]) = some v ∧
        ofForm? v = some (.any [.key "B", .equals "C" "1"]) := by
  obtain ⟨hwritten, -, hreads, hfree, hfields⟩ := reads_written_forms
  have hread : ofForm? (.fields backtrackingForm) = some (.any [.key "B", .equals "C" "1"]) := by
    simp [backtrackingForm, ofForm?, equalsOfFields?, partsOfField?, ofForms?, KeyMap.find?,
      Json.string?]
  have hpredicateFree := hfree _ _ hread
  refine ⟨(hreads _ _).mp hread, ?_, hpredicateFree, hwritten _ hpredicateFree⟩
  rw [← hread]
  exact hfields _ _ (by simp [formFields, backtrackingForm, KeyMap.find?])

end Requirement

end LayeredEnv
