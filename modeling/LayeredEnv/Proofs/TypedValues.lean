import LayeredEnv.Proofs.ExportedValues
import LayeredEnv.Proofs.OriginTable

/-!
# Values of a record type

A record type is read from values in one way and written to values in another, and its schema does
the one after the other.  What is read is told by rules that mention neither: the record stands in
the values (`ServiceSettings.StandsIn` and its like), with the defaults for keys that are absent and
whatever keys there are besides.  The search for an error before the fields are read walks the
values, not the fields; it finds nothing where every field can be read (`FieldRule.check_eq_ok`).

A type is lawful (`RecordType.Lawful`) if a record is read exactly where it stands and stands in
what it is written to.  From this alone the schema has nothing left to do on its own result, and the
values that a request with such a schema ends with are read as the record that they were written
from.  The types that are written as maps are listed in `RecordType.MapType`; a type that is not has
a schema that refuses everything (`HostName.schema_ne_ok`).

Main statement: `RecordType.typed_values_settle`.
-/

namespace LayeredEnv

/-- Two computations in a row give a value exactly if both do. -/
theorem bind_eq_ok_iff {ε : Type u} {α β : Type v} {x : Except ε α} {f : α → Except ε β}
    {b : β} : (x >>= f) = .ok b ↔ ∃ a, x = .ok a ∧ f a = .ok b := by
  cases x <;> simp [bind, Except.bind]

/-! ### Fields that can be read -/

namespace FieldRule

variable {rules : List FieldRule} {values : Values}

/-- Nothing speaks against the values: the value of the field has no error, and the field is there
if it has to be. -/
structure Passes (rule : FieldRule) (values : Values) : Prop where
  value : ∀ v, values.get? rule.name = some v → rule.fault? v = none
  present : rule.required = true → values.contains rule.name = true

theorem firstFault?_eq_none (h : ∀ rule ∈ rules, rule.Passes values) :
    firstFault? rules values = none := by
  refine List.findSome?_eq_none_iff.mpr fun p hp => ?_
  cases hrule : rules.find? fun rule => rule.name == p.1 with
  | none => rfl
  | some rule =>
    have hname : rule.name = p.1 := by simpa using List.find?_some hrule
    have hvalue : values.get? rule.name = some p.2 := by
      rw [hname]
      exact KeyMap.mem_entries_iff.mp hp
    exact (h rule (List.mem_of_find?_eq_some hrule)).value p.2 hvalue

theorem firstMissing?_eq_none (h : ∀ rule ∈ rules, rule.Passes values) :
    firstMissing? rules values = none := by
  refine Option.map_eq_none_iff.mpr (List.find?_eq_none.mpr fun rule hrule hmissing => ?_)
  obtain ⟨hrequired, habsent⟩ := Bool.and_eq_true_iff.mp hmissing
  have hpresent := (h rule hrule).present hrequired
  simp [hpresent] at habsent

/-- The search for an error ends well if no field has one. -/
theorem check_eq_ok (h : ∀ rule ∈ rules, rule.Passes values) : check rules values = .ok () := by
  rw [check, firstFault?_eq_none h, firstMissing?_eq_none h]

end FieldRule

namespace Field

variable {α : Type} {f : Field α} {values : Values} {a : α} {v : Json}

theorem read_of_get? (h : values.get? f.name = some v) : f.read values = f.decode v := by
  rw [read, h]

/-- A field that can be read has no error. -/
theorem passes_of_read (h : f.read values = .ok a) : f.rule.Passes values where
  value v hv := by
    have hdecode : f.decode v = .ok a := (read_of_get? hv).symm.trans h
    show f.fault? v = none
    rw [fault?, hdecode]
  present hrequired := by
    have hdefault : f.absent? = none := Option.isNone_iff_eq_none.mp hrequired
    show (values.get? f.name).isSome = true
    cases hv : values.get? f.name with
    | some v => rfl
    | none => simp [read, hv, hdefault] at h

/-- The search for an error in three fields that can be read ends well. -/
theorem check_of_read {β γ : Type} {g : Field β} {k : Field γ} {b : β} {c : γ}
    (hf : f.read values = .ok a) (hg : g.read values = .ok b) (hk : k.read values = .ok c) :
    FieldRule.check [f.rule, g.rule, k.rule] values = .ok () := by
  refine FieldRule.check_eq_ok ?_
  simp only [List.forall_mem_cons, List.not_mem_nil, false_implies, implies_true, and_true]
  exact ⟨passes_of_read hf, passes_of_read hg, passes_of_read hk⟩

/-- A record of three fields is read exactly if every field is. -/
theorem record_eq_ok_iff {β γ ρ : Type} {g : Field β} {k : Field γ} {x : ρ} (make : α → β → γ → ρ) :
    (do
      FieldRule.check [f.rule, g.rule, k.rule] values
      return make (← f.read values) (← g.read values) (← k.read values)) = .ok x ↔
      ∃ a b c, f.read values = .ok a ∧ g.read values = .ok b ∧ k.read values = .ok c ∧
        make a b c = x := by
  constructor
  · intro h
    obtain ⟨_, -, h⟩ := bind_eq_ok_iff.mp h
    obtain ⟨a, ha, h⟩ := bind_eq_ok_iff.mp h
    obtain ⟨b, hb, h⟩ := bind_eq_ok_iff.mp h
    obtain ⟨c, hc, h⟩ := bind_eq_ok_iff.mp h
    exact ⟨a, b, c, ha, hb, hc, Except.ok.inj h⟩
  · rintro ⟨a, b, c, ha, hb, hc, rfl⟩
    have hcheck := check_of_read ha hb hc
    simp only [hcheck, ha, hb, hc, bind, Except.bind, pure, Except.pure]

/-- A field is read either from its value or, without one, as what it is then. -/
theorem read_eq_ok_iff :
    f.read values = .ok a ↔
      (∃ v, values.get? f.name = some v ∧ f.decode v = .ok a) ∨
        (values.get? f.name = none ∧ f.absent? = some a) := by
  cases hv : values.get? f.name with
  | some v => simp [read_of_get? hv]
  | none => cases hdefault : f.absent? <;> simp [read, hv, hdefault]

theorem decodeString_eq_ok_iff {text : String} : decodeString v = .ok text ↔ v = .string text := by
  cases v <;> simp [decodeString]

theorem decodeBool_eq_ok_iff {b : Bool} : decodeBool v = .ok b ↔ v = .bool b := by
  cases v <;> simp [decodeBool]

theorem decodeStringOrNull_eq_ok_iff {text? : Option String} :
    decodeStringOrNull v = .ok text? ↔
      (∃ text, v = .string text ∧ text? = some text) ∨ (v = .null ∧ text? = none) := by
  cases v <;> simp [decodeStringOrNull, decodeString, Except.map, eq_comm]

/-- An integer of sixteen bits is read from its number and from nothing else. -/
theorem decodeWord16_eq_ok_iff {n : UInt16} : decodeWord16 v = .ok n ↔ v = .int n.toNat := by
  have hlt := n.toNat_lt
  cases v with
  | int i =>
    rw [decodeWord16, Json.int.injEq]
    split
    · next hrange =>
      obtain ⟨m, rfl⟩ := Int.eq_ofNat_of_zero_le hrange.1
      rw [Int.toNat_natCast, Except.ok.injEq, ← UInt16.toNat_inj, UInt16.toNat_ofNat']
      omega
    · next hrange =>
      constructor
      · intro h
        simp at h
      · intro h
        omega
  | _ => simp [decodeWord16]

end Field

/-! ### Records that stand in values -/

namespace ServiceSettings

variable {values : Values} {s : ServiceSettings}

/-- The settings stand in the values; a service without `DEBUG` is not to be debugged. -/
structure StandsIn (s : ServiceSettings) (values : Values) : Prop where
  host : values.get? "HOST" = some (.string s.host)
  listenPort : values.get? "PORT" = some (.int s.listenPort.toNat)
  debug : values.get? "DEBUG" = some (.bool s.debug) ∨
    (values.get? "DEBUG" = none ∧ s.debug = false)

/-- The settings are read exactly if every field is. -/
theorem read_eq_ok_iff :
    read values = .ok s ↔
      hostField.read values = .ok s.host ∧ listenPortField.read values = .ok s.listenPort ∧
        debugField.read values = .ok s.debug := by
  constructor
  · intro h
    obtain ⟨host, listenPort, debug, hhost, hlisten, hdebug, rfl⟩ :=
      (Field.record_eq_ok_iff ServiceSettings.mk).mp h
    exact ⟨hhost, hlisten, hdebug⟩
  · rintro ⟨hhost, hlisten, hdebug⟩
    exact (Field.record_eq_ok_iff ServiceSettings.mk).mpr ⟨_, _, _, hhost, hlisten, hdebug, rfl⟩

theorem read_eq_ok_iff_standsIn : read values = .ok s ↔ s.StandsIn values := by
  rw [read_eq_ok_iff, Field.read_eq_ok_iff, Field.read_eq_ok_iff, Field.read_eq_ok_iff]
  simp only [hostField, listenPortField, debugField, Field.decodeString_eq_ok_iff,
    Field.decodeWord16_eq_ok_iff, Field.decodeBool_eq_ok_iff, exists_eq_right, reduceCtorEq,
    and_false, or_false, Option.some.injEq]
  constructor
  · rintro ⟨hhost, hlisten, hdebug⟩
    exact ⟨hhost, hlisten, hdebug.imp_right (And.imp_right Eq.symm)⟩
  · rintro ⟨hhost, hlisten, hdebug⟩
    exact ⟨hhost, hlisten, hdebug.imp_right (And.imp_right Eq.symm)⟩

/-- Written settings stand in what is written. -/
theorem exists_write (s : ServiceSettings) :
    ∃ values, type.write s = .object values ∧ s.StandsIn values := by
  refine ⟨KeyMap.ofList _, rfl, ?_, ?_, .inl ?_⟩
  · simp [KeyMap.get?_ofList, KeyMap.find?]
  · simp [KeyMap.get?_ofList, KeyMap.find?]
  · simp [KeyMap.get?_ofList, KeyMap.find?]

end ServiceSettings

namespace AppSettings

variable {values : Values} {s : AppSettings}

/-- The settings stand in the values; without `WORKERS` there are four, and a note of null is no
note. -/
structure StandsIn (s : AppSettings) (values : Values) : Prop where
  host : values.get? "HOST" = some (.string s.host)
  workers : values.get? "WORKERS" = some (.string s.workers) ∨
    (values.get? "WORKERS" = none ∧ s.workers = "4")
  note : (∃ text, values.get? "NOTE" = some (.string text) ∧ s.note = some text) ∨
    ((values.get? "NOTE" = some .null ∨ values.get? "NOTE" = none) ∧ s.note = none)

/-- The settings are read exactly if every field is. -/
theorem read_eq_ok_iff :
    read values = .ok s ↔
      hostField.read values = .ok s.host ∧ workersField.read values = .ok s.workers ∧
        noteField.read values = .ok s.note := by
  constructor
  · intro h
    obtain ⟨host, workers, note, hhost, hworkers, hnote, rfl⟩ :=
      (Field.record_eq_ok_iff AppSettings.mk).mp h
    exact ⟨hhost, hworkers, hnote⟩
  · rintro ⟨hhost, hworkers, hnote⟩
    exact (Field.record_eq_ok_iff AppSettings.mk).mpr ⟨_, _, _, hhost, hworkers, hnote, rfl⟩

theorem read_eq_ok_iff_standsIn : read values = .ok s ↔ s.StandsIn values := by
  rw [read_eq_ok_iff, Field.read_eq_ok_iff, Field.read_eq_ok_iff, Field.read_eq_ok_iff]
  simp only [hostField, workersField, noteField, Field.decodeString_eq_ok_iff,
    Field.decodeStringOrNull_eq_ok_iff, exists_eq_right, reduceCtorEq, and_false, or_false,
    Option.some.injEq]
  constructor
  · rintro ⟨hhost, hworkers, hnote⟩
    refine ⟨hhost, hworkers.imp_right (And.imp_right Eq.symm), ?_⟩
    rcases hnote with ⟨v, hv, ⟨text, rfl, htext⟩ | ⟨rfl, hnone⟩⟩ | ⟨habsent, hnone⟩
    · exact .inl ⟨text, hv, htext⟩
    · exact .inr ⟨.inl hv, hnone⟩
    · exact .inr ⟨.inr habsent, hnone.symm⟩
  · rintro ⟨hhost, hworkers, hnote⟩
    refine ⟨hhost, hworkers.imp_right (And.imp_right Eq.symm), ?_⟩
    rcases hnote with ⟨text, hv, htext⟩ | ⟨hv | habsent, hnone⟩
    · exact .inl ⟨_, hv, .inl ⟨text, rfl, htext⟩⟩
    · exact .inl ⟨_, hv, .inr ⟨rfl, hnone⟩⟩
    · exact .inr ⟨habsent, hnone.symm⟩

/-- Written settings stand in what is written. -/
theorem exists_write (s : AppSettings) :
    ∃ values, type.write s = .object values ∧ s.StandsIn values := by
  obtain ⟨host, workers, note⟩ := s
  refine ⟨KeyMap.ofList _, rfl, ?_, .inl ?_, ?_⟩
  · simp [KeyMap.get?_ofList, KeyMap.find?]
  · simp [KeyMap.get?_ofList, KeyMap.find?]
  · cases note with
    | some text => exact .inl ⟨text, by simp [KeyMap.get?_ofList, KeyMap.find?], rfl⟩
    | none => exact .inr ⟨.inl (by simp [KeyMap.get?_ofList, KeyMap.find?]), rfl⟩

end AppSettings

namespace StringMap

variable {values : Values} {m : StringMap}

/-- The strings stand in the values, and nothing else. -/
def StandsIn (m : StringMap) (values : Values) : Prop :=
  ∀ key, values.get? key = (m.strings.get? key).map .string

theorem standsIn_iff : m.StandsIn values ↔ values = m.strings.map .string := by
  constructor
  · intro h
    refine KeyMap.ext_get? fun key => ?_
    rw [h key, KeyMap.get?_map]
  · rintro rfl key
    exact KeyMap.get?_map ..

/-- Strings are read, and nothing else. -/
theorem readEntries_eq_ok_iff {entries : List (String × Json)} {strings : List (String × String)} :
    readEntries entries = .ok strings ↔ entries = strings.map fun p => (p.1, .string p.2) := by
  induction entries generalizing strings with
  | nil => cases strings <;> simp [readEntries]
  | cons p entries ih =>
    obtain ⟨key, v⟩ := p
    rw [readEntries]
    constructor
    · intro h
      obtain ⟨text, htext, h⟩ := bind_eq_ok_iff.mp h
      obtain ⟨rest, hrest, h⟩ := bind_eq_ok_iff.mp h
      obtain rfl := Except.ok.inj h
      rw [Field.decodeString_eq_ok_iff.mp htext, ih.mp hrest]
      rfl
    · intro h
      cases strings with
      | nil => simp at h
      | cons q rest =>
        obtain ⟨hq, hrest⟩ := List.cons.inj h
        obtain ⟨rfl, rfl⟩ := Prod.mk.inj hq
        refine bind_eq_ok_iff.mpr ⟨q.2, rfl, ?_⟩
        exact bind_eq_ok_iff.mpr ⟨rest, ih.mpr hrest, rfl⟩

theorem read_eq_ok_iff_standsIn : read values = .ok m ↔ m.StandsIn values := by
  rw [standsIn_iff]
  constructor
  · intro h
    unfold read at h
    cases hread : readEntries values.entries with
    | error e => simp [hread, Except.map] at h
    | ok strings =>
      have hentries := readEntries_eq_ok_iff.mp hread
      -- the keys are those of the values, so they are sorted already
      have hsorted : strings.Pairwise fun a b => a.1 < b.1 := by
        have hvalues := values.sorted
        rwa [hentries, List.pairwise_map] at hvalues
      have hm : m = ⟨⟨strings, hsorted⟩⟩ := by
        simp only [hread, Except.map, Except.ok.injEq] at h
        rw [← h, ← KeyMap.ofList_entries ⟨strings, hsorted⟩]
      rw [hm]
      refine KeyMap.ext_get? fun key => ?_
      rw [KeyMap.get?, hentries]
      rfl
  · rintro rfl
    have hread : readEntries (m.strings.map Json.string).entries = .ok m.strings.entries :=
      readEntries_eq_ok_iff.mpr rfl
    show (readEntries _).map _ = _
    rw [hread, Except.map, KeyMap.ofList_entries]

theorem exists_write (m : StringMap) :
    ∃ values, type.write m = .object values ∧ m.StandsIn values :=
  ⟨m.strings.map .string, rfl, standsIn_iff.mpr rfl⟩

end StringMap

namespace RecordType

variable {α : Type} {type : RecordType α} {standsIn : α → Values → Prop}
  {values values' : Values} {a : α}

/-- A record is read exactly where it stands in the values, and what is written is a map in which
the record stands. -/
structure Lawful (type : RecordType α) (standsIn : α → Values → Prop) : Prop where
  read_eq_ok_iff : ∀ values a, type.read values = .ok a ↔ standsIn a values
  exists_write : ∀ a, ∃ values, type.write a = .object values ∧ standsIn a values

/-- The types that are written as maps, each with what it means that a record stands in values. -/
inductive MapType : {α : Type} → RecordType α → (α → Values → Prop) → Prop
  | service : MapType ServiceSettings.type ServiceSettings.StandsIn
  | app : MapType AppSettings.type AppSettings.StandsIn
  | strings : MapType StringMap.type StringMap.StandsIn

theorem MapType.lawful (htype : MapType type standsIn) : type.Lawful standsIn := by
  cases htype with
  | service =>
    exact ⟨fun _ _ => ServiceSettings.read_eq_ok_iff_standsIn, ServiceSettings.exists_write⟩
  | app => exact ⟨fun _ _ => AppSettings.read_eq_ok_iff_standsIn, AppSettings.exists_write⟩
  | strings => exact ⟨fun _ _ => StringMap.read_eq_ok_iff_standsIn, StringMap.exists_write⟩

/-! ### The schema of a type -/

theorem schema_eq_ok (hread : type.read values = .ok a)
    (hwrite : type.write a = .object values') : type.schema values = .ok values' := by
  simp only [schema, hread, hwrite, Json.object, KeyMap.ofList_entries]

namespace Lawful

/-- A record stands in whatever it is written to. -/
theorem standsIn_of_write (htype : type.Lawful standsIn) (h : type.write a = .object values) :
    standsIn a values := by
  obtain ⟨written, hwrite, hstands⟩ := htype.exists_write a
  have hentries : written.entries = values.entries := Json.fields.inj (hwrite.symm.trans h)
  have hsame : written = values := by
    rw [← KeyMap.ofList_entries written, hentries, KeyMap.ofList_entries]
  rw [← hsame]
  exact hstands

/-- The schema accepts the values that a record stands in, and makes of them what the record is
written to. -/
theorem schema_eq_ok_iff (htype : type.Lawful standsIn) :
    type.schema values = .ok values' ↔ ∃ a, standsIn a values ∧ type.write a = .object values' := by
  constructor
  · intro h
    unfold schema at h
    cases hread : type.read values with
    | error e => simp [hread] at h
    | ok a =>
      obtain ⟨written, hwrite, -⟩ := htype.exists_write a
      have hwritten : written = values' := by
        simpa [hread, hwrite, Json.object, KeyMap.ofList_entries] using h
      exact ⟨a, (htype.read_eq_ok_iff values a).mp hread, hwritten ▸ hwrite⟩
  · rintro ⟨a, hstands, hwrite⟩
    exact schema_eq_ok ((htype.read_eq_ok_iff values a).mpr hstands) hwrite

/-- The result of the schema is read as the record that the values were read as, and is what that
record is written to. -/
theorem exists_read_of_schema (htype : type.Lawful standsIn)
    (h : type.schema values = .ok values') :
    ∃ a, type.read values = .ok a ∧ type.read values' = .ok a ∧
      type.write a = .object values' := by
  obtain ⟨a, hstands, hwrite⟩ := htype.schema_eq_ok_iff.mp h
  have hstands' : standsIn a values' := htype.standsIn_of_write hwrite
  exact ⟨a, (htype.read_eq_ok_iff _ _).mpr hstands, (htype.read_eq_ok_iff _ _).mpr hstands', hwrite⟩

end Lawful

end RecordType

namespace HostName

/-- A host alone is written as no map, so its schema refuses all values. -/
theorem schema_ne_ok (values values' : Values) : type.schema values ≠ .ok values' := by
  intro h
  unfold RecordType.schema at h
  cases hread : type.read values with
  | error e => simp [hread] at h
  | ok host =>
    have hwrite : type.write host = .string host.host := rfl
    simp [hread, hwrite] at h

end HostName

/-! ### Requests with such a schema -/

/-- The values that a request with a schema ends with are what the schema makes of the values that
it is handed. -/
theorem Request.exists_handed_of_resolve {r : Request} {tree : FileTree} {env : LiveEnvironment}
    {result : Resolution} {schema : Schema} (hschema : r.schema = some schema)
    (h : r.resolve tree env = .ok result) :
    ∃ handed, r.handed tree env = .ok handed ∧
      schema (handed.map Binding.value) = .ok result.values := by
  obtain ⟨c, hcascade, hcomplete⟩ := exists_cascade_of_resolve h
  obtain ⟨converted, hconvert, happly, -, -⟩ := exists_stages_of_complete hcomplete
  refine ⟨r.fillDefaults converted, ?_, map_value_of_applySchema hschema happly⟩
  simp only [handed, hcascade, hconvert, bind, Except.bind, pure, Except.pure]

namespace RecordType

variable {α : Type} {type : RecordType α} {standsIn : α → Values → Prop}

/-- What a request with the schema of a type ends with is read as the record that the schema read
in what it was handed. -/
theorem Lawful.exists_read_of_resolve (htype : type.Lawful standsIn) {r : Request} {tree : FileTree}
    {env : LiveEnvironment} {result : Resolution} (hschema : r.schema = some type.schema)
    (h : r.resolve tree env = .ok result) :
    ∃ handed a, r.handed tree env = .ok handed ∧
      type.read (handed.map Binding.value) = .ok a ∧ type.read result.values = .ok a ∧
        type.write a = .object result.values := by
  obtain ⟨handed, hhanded, happlied⟩ := Request.exists_handed_of_resolve hschema h
  obtain ⟨a, hread, hback, hwrite⟩ := htype.exists_read_of_schema happlied
  exact ⟨handed, a, hhanded, hread, hback, hwrite⟩

/-- Every record of one of the types that are written as maps stands in what it is written to.  The
schema of such a type accepts exactly the values that a record stands in, makes of them what the
record is written to, and leaves its own results as they are.  What a request with such a schema
ends with can be read as the type, and the record that is read is written as exactly these values.
-/
theorem typed_values_settle (htype : MapType type standsIn) :
    (∀ a, ∃ values, type.write a = .object values ∧ standsIn a values) ∧
      (∀ values values', type.schema values = .ok values' ↔
        ∃ a, standsIn a values ∧ type.write a = .object values') ∧
      (∀ values values', type.schema values = .ok values' → type.schema values' = .ok values') ∧
      ∀ (r : Request) (tree : FileTree) (env : LiveEnvironment) (result : Resolution),
        r.schema = some type.schema → r.resolve tree env = .ok result →
          ∃ a, type.read result.values = .ok a ∧ type.write a = .object result.values := by
  have hlawful : type.Lawful standsIn := htype.lawful
  refine ⟨hlawful.exists_write, ?_, ?_, ?_⟩
  · intro values values'
    exact hlawful.schema_eq_ok_iff
  · intro values values' h
    obtain ⟨a, -, hread, hwrite⟩ := hlawful.exists_read_of_schema h
    exact schema_eq_ok hread hwrite
  · intro r tree env result hschema h
    obtain ⟨-, a, -, -, hread, hwrite⟩ := hlawful.exists_read_of_resolve hschema h
    exact ⟨a, hread, hwrite⟩

end RecordType

namespace Request

/-- The settings of a service; the number of its port is converted, and it has no `DEBUG`. -/
def serviceRequest : Request where
  required := [.equals "PORT" "8080"]
  schema := some ServiceSettings.type.schema
  conversions := KeyMap.empty.insert "PORT" (Conversion.integer (.unsigned 16))
  defaults := KeyMap.empty.insert "HOST" (.string "localhost")

end Request

namespace RecordType

open Request (serviceRequest layeredTree)

/-- The host is the default, the port is the live environment's, and the keys of the files are
dropped. -/
theorem typed_values_serviceRequest :
    MapType ServiceSettings.type ServiceSettings.StandsIn ∧
      serviceRequest.schema = some ServiceSettings.type.schema ∧
      ∃ result, serviceRequest.resolve layeredTree (.ofList [("PORT", " 8080")]) = .ok result ∧
        ServiceSettings.type.schema result.values = .ok result.values ∧
        ServiceSettings.type.read result.values = .ok ⟨"localhost", 8080, false⟩ ∧
        ServiceSettings.type.write ⟨"localhost", 8080, false⟩ = .object result.values := by
  obtain ⟨-, -, hsame, hread⟩ := typed_values_settle MapType.service
  refine ⟨.service, rfl, ?_⟩
  have hsettings :
      (serviceRequest.resolve layeredTree (.ofList [("PORT", " 8080")])).toOption.bind
        (fun result => (ServiceSettings.read result.values).toOption) =
      some ⟨"localhost", 8080, false⟩ := by
    decide +kernel
  cases hresult : serviceRequest.resolve layeredTree (.ofList [("PORT", " 8080")]) with
  | error e => simp [hresult, Except.toOption] at hsettings
  | ok result =>
    obtain ⟨handed, -, happlied⟩ := Request.exists_handed_of_resolve rfl hresult
    obtain ⟨settings, hsettings', hwrite⟩ := hread _ _ _ result rfl hresult
    have hvalue : settings = ⟨"localhost", 8080, false⟩ := by
      have hread' : ServiceSettings.read result.values = .ok settings := hsettings'
      simpa [hresult, hread', Except.toOption] using hsettings
    rw [hvalue] at hsettings' hwrite
    exact ⟨result, rfl, hsame _ _ happlied, hsettings', hwrite⟩

end RecordType

end LayeredEnv
