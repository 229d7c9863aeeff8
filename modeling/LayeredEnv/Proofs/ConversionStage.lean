import LayeredEnv.Proofs.MoreDefaults
import LayeredEnv.Proofs.SideTables

/-!
# The conversions of a resolution

The conversions come after the mode and the live environment and before everything else that is done
to the values.  What they are applied to are the texts of the keys that are present then; a key that
is absent is not converted, and a default that it gets later stays as it is.

A key whose conversion refuses its text (`Request.Refuses`) makes the resolution fail, whatever the
other keys hold, and of several such keys the least is told: the bindings are walked in key order,
and along a sorted list the first find is the one with the least key
(`KeyMap.findSome?_entries_eq_some_iff`).  No later stage fails with the fault of a conversion, so
the fault of a resolution tells which conversion it was (`Request.resolve_eq_conversion_iff`).

Main statement: `Request.conversions_decide`.
-/

namespace LayeredEnv

namespace Request

variable {r : Request} {tree : FileTree} {env : LiveEnvironment} {c : Cascade}
  {m : KeyMap (Binding String)} {key : String} {e : ConversionError} {fault : Fault}

/-! ### The stage by itself -/

/-- The key is present, and its conversion refuses its text. -/
def Refuses (r : Request) (m : KeyMap (Binding String)) (key : String) (e : ConversionError) :
    Prop :=
  ∃ b convert, m.get? key = some b ∧ r.conversions.get? key = some convert ∧
    convert b.value = .error e

/-- A binding is not converted exactly if its key has a conversion that refuses its text. -/
theorem convertBinding_eq_error_iff {b : Binding String} :
    r.convertBinding key b = .error fault ↔
      ∃ convert e, r.conversions.get? key = some convert ∧ convert b.value = .error e ∧
        fault = .conversion key e := by
  unfold convertBinding
  cases r.conversions.get? key with
  | none => simp
  | some convert => cases hvalue : convert b.value <;> simp [hvalue, eq_comm]

/-- The conversions fail exactly with the least key whose text is refused. -/
theorem convert_eq_error_iff :
    r.convert m = .error fault ↔
      ∃ key e, fault = .conversion key e ∧ r.Refuses m key e ∧
        ∀ key' e', r.Refuses m key' e' → key ≤ key' := by
  rw [convert, KeyMap.traverse_eq_error_iff]
  constructor
  · rintro ⟨key, b, hb, hfault, hleast⟩
    obtain ⟨convert, e, hconvert, he, rfl⟩ := convertBinding_eq_error_iff.mp hfault
    refine ⟨key, e, rfl, ⟨b, convert, hb, hconvert, he⟩, ?_⟩
    rintro key' e' ⟨b', convert', hb', hconvert', he'⟩
    rw [← String.not_lt]
    intro hlt
    obtain ⟨converted, hconverted⟩ := hleast key' b' hb' hlt
    have hrefused := convertBinding_eq_error_iff.mpr ⟨convert', e', hconvert', he', rfl⟩
    rw [hconverted] at hrefused
    simp at hrefused
  · rintro ⟨key, e, rfl, ⟨b, convert, hb, hconvert, he⟩, hleast⟩
    refine ⟨key, b, hb, convertBinding_eq_error_iff.mpr ⟨convert, e, hconvert, he, rfl⟩,
      fun key' b' hb' hlt => ?_⟩
    cases hbinding : r.convertBinding key' b' with
    | ok converted => exact ⟨converted, rfl⟩
    | error fault =>
      obtain ⟨convert', e', hconvert', he', -⟩ := convertBinding_eq_error_iff.mp hbinding
      exact absurd hlt (String.not_lt.mpr (hleast key' e' ⟨b', convert', hb', hconvert', he'⟩))

/-- Without a refused text all bindings are converted. -/
theorem exists_convert_of_not_refuses (h : ∀ key e, ¬ r.Refuses m key e) :
    ∃ converted, r.convert m = .ok converted := by
  cases hconvert : r.convert m with
  | ok converted => exact ⟨converted, rfl⟩
  | error fault =>
    obtain ⟨key, e, -, hrefuses, -⟩ := convert_eq_error_iff.mp hconvert
    exact absurd hrefuses (h key e)

/-- A refused text keeps the bindings from being converted. -/
theorem exists_error_of_refuses (h : r.Refuses m key e) :
    ∃ key e, r.convert m = .error (.conversion key e) := by
  cases hall : r.convert m with
  | error fault =>
    obtain ⟨key, e, rfl, -, -⟩ := convert_eq_error_iff.mp hall
    exact ⟨key, e, rfl⟩
  | ok converted =>
    obtain ⟨b, convert, hb, hconvert, he⟩ := h
    rcases KeyMap.get?_of_traverse hall key with ⟨hnone, -⟩ | ⟨b', b'', hb', hconverted, -⟩
    · rw [hb] at hnone
      simp at hnone
    · obtain rfl := Option.some.inj (hb.symm.trans hb')
      rw [convertBinding_eq_error_iff.mpr ⟨convert, e, hconvert, he, rfl⟩] at hconverted
      simp at hconverted

/-! ### The stage within a resolution -/

/-- A schema fails with a fault of its own. -/
theorem exists_error_of_applySchema {values : KeyMap (Binding Json)}
    (h : r.applySchema values = .error fault) : ∃ e, fault = .invalidValues e := by
  unfold applySchema at h
  split at h
  · simp at h
  · split at h
    · exact ⟨_, (Except.error.inj h).symm⟩
    · simp at h

/-- After the conversions the defaults, the schema and the requirements follow. -/
theorem resolve_of_convert {converted : KeyMap (Binding Json)} (h : r.cascade tree env = .ok c)
    (hconvert : r.convert (r.rawBindings env c) = .ok converted) :
    r.resolve tree env = (r.applySchema (r.fillDefaults converted)).bind fun final =>
      r.examine ⟨final, c.layers, c.mode.map ActiveMode.name⟩ := by
  simp only [resolve, h, complete, hconvert, bind, Except.bind]

/-- A resolution that gets through its cascade fails with a conversion exactly if the conversions
fail with it. -/
theorem resolve_eq_conversion_iff (h : r.cascade tree env = .ok c) :
    r.resolve tree env = .error (.conversion key e) ↔
      r.convert (r.rawBindings env c) = .error (.conversion key e) := by
  cases hconvert : r.convert (r.rawBindings env c) with
  | error fault =>
    have hresolve : r.resolve tree env = .error fault := by
      simp only [resolve, h, complete, hconvert, bind, Except.bind]
    rw [hresolve]
    simp
  | ok converted =>
    -- the stages that follow have faults of their own
    rw [resolve_of_convert h hconvert]
    simp only [reduceCtorEq, iff_false]
    intro hfault
    cases happly : r.applySchema (r.fillDefaults converted) with
    | error fault =>
      obtain ⟨e', rfl⟩ := exists_error_of_applySchema happly
      simp [happly, Except.bind] at hfault
    | ok final =>
      rw [happly] at hfault
      obtain ⟨shortfall, heq⟩ := exists_shortfall_of_examine_error hfault
      simp at heq

/-- A resolution that gets through its cascade fails with a conversion exactly if the conversion of
some key that is present refuses its text, and then with the least such key.  Otherwise every key
that is present goes on with its text converted once, or with its text if it has no conversion, and
with the origin that it had; a key that is absent stays so, and gets its default as it is.  It makes
no difference whether the bindings are walked or the conversions, one after the other, change a
table in place; and defaults, schema and requirements have no part in it. -/
theorem conversions_decide (h : r.cascade tree env = .ok c) :
    ((∃ key e, r.resolve tree env = .error (.conversion key e)) ↔
        ∃ key e, r.Refuses (r.rawBindings env c) key e) ∧
      (∀ key e, r.resolve tree env = .error (.conversion key e) →
        r.Refuses (r.rawBindings env c) key e ∧
        ∀ key' e', r.Refuses (r.rawBindings env c) key' e' → key ≤ key') ∧
      ((∀ key e, ¬ r.Refuses (r.rawBindings env c) key e) →
        ∃ converted, r.convert (r.rawBindings env c) = .ok converted ∧
          (r.resolve tree env = (r.applySchema (r.fillDefaults converted)).bind fun final =>
            r.examine ⟨final, c.layers, c.mode.map ActiveMode.name⟩) ∧
          (∀ key b, (r.rawBindings env c).get? key = some b →
            ∃ value, r.Converts key b.value value ∧
              converted.get? key = some ⟨value, b.origin⟩ ∧
              (r.fillDefaults converted).get? key = some ⟨value, b.origin⟩) ∧
          ∀ key, (r.rawBindings env c).get? key = none →
            converted.get? key = none ∧
            (r.fillDefaults converted).get? key = (r.defaults.get? key).map (⟨·, .default⟩)) ∧
      r.convertTables (r.rawTables env c) =
        (r.convert (r.rawBindings env c)).map Tables.ofBindings ∧
      ∀ (defaults : Values) (schema : Option Schema) (required : List Requirement) (key : String)
        (e : ConversionError),
        { r with defaults, schema, required }.convertedCascade tree env =
          r.convertedCascade tree env ∧
        ({ r with defaults, schema, required }.resolve tree env = .error (.conversion key e) ↔
          r.resolve tree env = .error (.conversion key e)) := by
  refine ⟨⟨?_, ?_⟩, ?_, ?_, ?_, ?_⟩
  · rintro ⟨key, e, hfault⟩
    rw [resolve_eq_conversion_iff h, convert_eq_error_iff] at hfault
    obtain ⟨key, e, -, hrefuses, -⟩ := hfault
    exact ⟨key, e, hrefuses⟩
  · rintro ⟨key, e, hrefuses⟩
    obtain ⟨key, e, herror⟩ := exists_error_of_refuses hrefuses
    exact ⟨key, e, (resolve_eq_conversion_iff h).mpr herror⟩
  · intro key e hfault
    rw [resolve_eq_conversion_iff h, convert_eq_error_iff] at hfault
    obtain ⟨key', e', heq, hrefuses, hleast⟩ := hfault
    obtain ⟨rfl, rfl⟩ := Fault.conversion.inj heq
    exact ⟨hrefuses, hleast⟩
  · intro hnone
    obtain ⟨converted, hconvert⟩ := exists_convert_of_not_refuses hnone
    refine ⟨converted, hconvert, resolve_of_convert h hconvert, fun key b hb => ?_,
      fun key hraw => ?_⟩
    · rcases get?_of_convert hconvert key with ⟨hraw, -⟩ | ⟨b', value, hraw, hconverts, hconverted⟩
      · rw [hb] at hraw
        simp at hraw
      · obtain rfl := Option.some.inj (hb.symm.trans hraw)
        refine ⟨value, hconverts, hconverted, ?_⟩
        rw [get?_fillDefaults, hconverted, Option.some_or]
    · rcases get?_of_convert hconvert key with ⟨-, hconverted⟩ | ⟨b, -, hb, -, -⟩
      · refine ⟨hconverted, ?_⟩
        rw [get?_fillDefaults, hconverted, Option.none_or]
      · rw [hb] at hraw
        simp at hraw
  · rw [rawTables_eq, convertTables_ofBindings]
  · intro defaults schema required key e
    have h' : { r with defaults, schema, required }.cascade tree env = .ok c := h
    refine ⟨rfl, ?_⟩
    rw [resolve_eq_conversion_iff h, resolve_eq_conversion_iff h']
    exact Iff.rfl

/-- The texts of three keys are refused: of `B`, which the file of the mode has, of `C`, which the
live environment has, and of `D`, which has a default only. -/
def refusingRequest : Request where
  conversions := KeyMap.ofList (["B", "C", "D"].map fun key =>
    (key, fun text => .error (.refused text)))
  defaults := KeyMap.empty.insert "D" (.string "default")

/-- Of the two texts that are refused the one with the lower key is told, and it is so too without
the default and with a schema. -/
theorem conversions_refusingRequest :
    ∃ c e, refusingRequest.cascade layeredTree (.ofList [("C", "live")]) = .ok c ∧
      refusingRequest.resolve layeredTree (.ofList [("C", "live")]) = .error (.conversion "B" e) ∧
      refusingRequest.Refuses (refusingRequest.rawBindings (.ofList [("C", "live")]) c) "B" e ∧
      { refusingRequest with defaults := .empty, schema := some Schema.clear }.resolve layeredTree
        (.ofList [("C", "live")]) = .error (.conversion "B" e) := by
  have htext : ((refusingRequest.cascade layeredTree (.ofList [("C", "live")])).toOption.bind
      fun c => ((refusingRequest.rawBindings (.ofList [("C", "live")]) c).get? "B").map
        Binding.value) = some "mode" := by
    decide +kernel
  obtain ⟨c, hcascade, hraw⟩ := Option.bind_eq_some_iff.mp htext
  rw [toOption_eq_some_iff] at hcascade
  obtain ⟨b, hb, -⟩ := Option.map_eq_some_iff.mp hraw
  obtain ⟨hfails, hleast, -, -, hothers⟩ := conversions_decide hcascade
  have hrefuses : refusingRequest.Refuses
      (refusingRequest.rawBindings (.ofList [("C", "live")]) c) "B" (.refused b.value) :=
    ⟨b, fun text => .error (.refused text), hb, rfl, rfl⟩
  obtain ⟨key, e, hfault⟩ := hfails.mpr ⟨_, _, hrefuses⟩
  obtain ⟨hkey, hbelow⟩ := hleast key e hfault
  obtain rfl : key = "B" := by
    obtain ⟨-, convert, -, hconvert, -⟩ := hkey
    have hle := hbelow _ _ hrefuses
    obtain rfl | rfl | rfl : key = "B" ∨ key = "C" ∨ key = "D" := by
      have hkeys : refusingRequest.conversions.keys = ["B", "C", "D"] := by decide +kernel
      have hmem := KeyMap.mem_keys_iff.mpr ⟨convert, hconvert⟩
      simpa [hkeys] using hmem
    · rfl
    · exact absurd hle (by decide)
    · exact absurd hle (by decide)
  exact ⟨c, e, hcascade, hfault, hkey, (hothers _ _ _ _ _).2.mpr hfault⟩

end Request

end LayeredEnv
