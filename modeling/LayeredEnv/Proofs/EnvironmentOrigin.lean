import LayeredEnv.Proofs.EnvironmentLayer
import LayeredEnv.Proofs.ReportedMode

/-!
# What the live environment is told as the origin of

The live environment is told as an origin in two places: where it fills in a key that no file has,
and where the live mode is the mode of the cascade.  A key that is filled in has the text that the
environment has for it.  The live mode, however, is the mode that the request gives outright, if it
gives one, and only otherwise the one that the environment has; its origin does not tell the two
apart.

So a value that is told as the environment's is made of what the environment has
(`Request.TellsLive`), unless it is that of a mode given outright
(`Request.environment_origin_sound_iff`), and such a mode need not be in the environment at all
(`Request.givenMode_told_as_environment`).
-/

namespace LayeredEnv

namespace Request

variable {r : Request} {tree : FileTree} {env : LiveEnvironment} {c : Cascade} {key : String}
  {result : Resolution}

/-- A text becomes one value under a key. -/
theorem Converts.unique {text : String} {value value' : Json} (h : r.Converts key text value)
    (h' : r.Converts key text value') : value = value' := by
  cases h with
  | plain hnone =>
    cases h' with
    | plain => rfl
    | converted hsome => simp [hnone] at hsome
  | converted hsome hvalue =>
    cases h' with
    | plain hnone => simp [hnone] at hsome
    | converted hsome' hvalue' =>
      obtain rfl := Option.some.inj (hsome.symm.trans hsome')
      exact Except.ok.inj (hvalue.symm.trans hvalue')

/-- The live mode is the one given outright, or else the environment's. -/
theorem liveMode?_cases {name : String} (h : r.liveMode? env = some name) :
    r.mode = some name ∨ r.mode = none ∧ env.get? r.modeKey = some name :=
  (Option.or_eq_some_iff.mp (Option.filter_eq_some_iff.mp h).1)

/-- Before the conversions, a text that is told as the environment's is the environment's text of
the key, or it is the mode given outright. -/
theorem text_of_rawBindings_environment {b : Binding String} (h : r.cascade tree env = .ok c)
    (hb : (r.rawBindings env c).get? key = some b) (horigin : b.origin = .environment) :
    (key = r.modeKey ∧ r.mode = some b.value) ∨
      ((key = r.modeKey → r.mode = none) ∧ env.get? key = some b.value) := by
  by_cases hkey : key = r.modeKey
  · subst hkey
    rw [get?_rawBindings_modeKey] at hb
    obtain ⟨mode, hmode, rfl⟩ := Option.map_eq_some_iff.mp hb
    rcases origin_of_mode h hmode with ⟨⟨hlive, -⟩, -⟩ | ⟨-, layer, -, hfile⟩
    · rcases liveMode?_cases hlive with hgiven | ⟨hnone, henv⟩
      · exact .inl ⟨rfl, hgiven⟩
      · exact .inr ⟨fun _ => hnone, henv⟩
    · exact absurd (hfile.symm.trans horigin) Origin.noConfusion
  · rw [get?_rawBindings hkey] at hb
    rcases Option.or_eq_some_iff.mp hb with hscan | ⟨-, hfilled⟩
    · -- what a scan binds has a file as its origin
      obtain ⟨found, -, hbinding⟩ := List.exists_of_findSome?_eq_some hscan
      obtain ⟨e, -, rfl⟩ := Option.map_eq_some_iff.mp hbinding
      exact absurd horigin Origin.noConfusion
    · obtain ⟨text, htext, rfl⟩ := Option.map_eq_some_iff.mp hfilled
      split at htext
      · exact .inr ⟨fun heq => absurd heq hkey, htext⟩
      · simp at htext

/-- The value of the key is made of the text that the environment has for it. -/
def TellsLive (r : Request) (env : LiveEnvironment) (result : Resolution) (key : String) : Prop :=
  ∃ text value, env.get? key = some text ∧ r.Converts key text value ∧
    result.values.get? key = some value

/-- Without a schema, a value that is told as the environment's is made of the environment's text of
its key, or else of the mode given outright. -/
theorem text_of_environment_origin (hschema : r.schema = none)
    (h : r.resolve tree env = .ok result)
    (horigin : result.origins.get? key = some .environment) :
    ∃ text value, r.Converts key text value ∧ result.values.get? key = some value ∧
      ((key = r.modeKey ∧ r.mode = some text) ∨
        ((key = r.modeKey → r.mode = none) ∧ env.get? key = some text)) := by
  obtain ⟨c, hcascade, hcomplete⟩ := exists_cascade_of_resolve h
  obtain ⟨-, -, hkeys⟩ := get?_of_complete hschema hcomplete
  have horigin' : (result.bindings.get? key).map Binding.origin = some .environment :=
    (KeyMap.get?_map ..).symm.trans horigin
  have hvalue : result.values.get? key = (result.bindings.get? key).map Binding.value :=
    KeyMap.get?_map ..
  rcases hkeys key with ⟨b, value, hraw, hconverts, hbound⟩ | ⟨-, hdefault⟩
  · rw [hbound] at horigin' hvalue
    exact ⟨b.value, value, hconverts, hvalue,
      text_of_rawBindings_environment hcascade hraw (Option.some.inj horigin')⟩
  · rw [hdefault, Option.map_map] at horigin'
    obtain ⟨value, -, hother⟩ := Option.map_eq_some_iff.mp horigin'
    exact absurd hother Origin.noConfusion

/-- Without a schema, a value that is told as the environment's is made of what the environment has
for its key, exactly unless it is the value of the mode key and the request gives the mode outright:
then the environment has to have a mode of its own that becomes the same value.  A mode given
outright is the one that the value is made of. -/
theorem environment_origin_sound_iff (hschema : r.schema = none)
    (h : r.resolve tree env = .ok result)
    (horigin : result.origins.get? key = some .environment) :
    (r.TellsLive env result key ↔
        ∀ given, key = r.modeKey → r.mode = some given →
          ∃ text value, env.get? key = some text ∧ r.Converts key text value ∧
            r.Converts key given value) ∧
      ∀ given, key = r.modeKey → r.mode = some given →
        ∃ value, r.Converts key given value ∧ result.values.get? key = some value := by
  obtain ⟨text, value, hconverts, hvalue, hsource⟩ := text_of_environment_origin hschema h horigin
  rcases hsource with ⟨hkey, hgiven⟩ | ⟨hnone, hlive⟩
  · have honly : ∀ given, r.mode = some given → given = text := by
      intro given hother
      exact Option.some.inj (hother.symm.trans hgiven)
    refine ⟨⟨?_, ?_⟩, ?_⟩
    · rintro ⟨live, value', hlive, hconverts', hvalue'⟩ given - hother
      obtain rfl := honly given hother
      obtain rfl := Option.some.inj (hvalue.symm.trans hvalue')
      exact ⟨live, value, hlive, hconverts', hconverts⟩
    · intro hown
      obtain ⟨live, value', hlive, hconverts', hsame⟩ := hown text hkey hgiven
      obtain rfl := hconverts.unique hsame
      exact ⟨live, value, hlive, hconverts', hvalue⟩
    · intro given _ hother
      obtain rfl := honly given hother
      exact ⟨value, hconverts, hvalue⟩
  · have hnever : ∀ given, key = r.modeKey → r.mode ≠ some given := by
      intro given hkey hgiven
      simp [hnone hkey] at hgiven
    have htells : r.TellsLive env result key := ⟨text, value, hlive, hconverts, hvalue⟩
    refine ⟨⟨?_, fun _ => htells⟩, ?_⟩
    · intro _ given hkey hgiven
      exact absurd hgiven (hnever given hkey)
    · intro given hkey hgiven
      exact absurd hgiven (hnever given hkey)

/-- The key `C` is in no file, and `layeredRequest` gives no mode. -/
theorem environment_origin_layeredRequest :
    layeredRequest.schema = none ∧
      ∃ result, layeredRequest.resolve layeredTree plainEnvironment = .ok result ∧
        result.origins.get? "C" = some .environment ∧
        layeredRequest.TellsLive plainEnvironment result "C" := by
  refine ⟨rfl, ?_⟩
  have horigin : (layeredRequest.resolve layeredTree plainEnvironment).toOption.bind
      (·.origins.get? "C") = some .environment := by decide +kernel
  obtain ⟨result, hresult, horigin⟩ := Option.bind_eq_some_iff.mp horigin
  rw [toOption_eq_some_iff] at hresult
  obtain ⟨hiff, -⟩ := environment_origin_sound_iff rfl hresult horigin
  refine ⟨result, hresult, horigin, hiff.mpr ?_⟩
  intro given hkey
  exact absurd hkey (by decide)

/-- The mode is given outright. -/
def outrightRequest : Request where
  mode := some "prod"

/-- A mode given outright is told as the environment's, which does not even have the mode key. -/
theorem givenMode_told_as_environment :
    outrightRequest.schema = none ∧
      ∃ result, outrightRequest.resolve ⟨[], ["w"]⟩ (.ofList []) = .ok result ∧
        result.origins.get? "MODE" = some .environment ∧
        result.values.get? "MODE" = some (.string "prod") ∧
        (LiveEnvironment.ofList []).get? "MODE" = none ∧
        ¬ outrightRequest.TellsLive (.ofList []) result "MODE" := by
  refine ⟨rfl, ?_⟩
  have horigin : (outrightRequest.resolve ⟨[], ["w"]⟩ (.ofList [])).toOption.bind
      (·.origins.get? "MODE") = some .environment := by decide +kernel
  have habsent : (LiveEnvironment.ofList []).get? "MODE" = none := by decide
  obtain ⟨result, hresult, horigin⟩ := Option.bind_eq_some_iff.mp horigin
  rw [toOption_eq_some_iff] at hresult
  refine ⟨result, hresult, horigin, ?_, habsent, ?_⟩
  · obtain ⟨text, value, hconverts, hvalue, ⟨-, hgiven⟩ | ⟨hnone, -⟩⟩ :=
      text_of_environment_origin rfl hresult horigin
    · obtain rfl : "prod" = text := Option.some.inj hgiven
      cases hconverts with
      | plain => exact hvalue
      | converted hconvert => exact absurd hconvert (Option.some_ne_none _).symm
    · exact absurd (hnone rfl) (Option.some_ne_none _)
  · rintro ⟨text, -, htext, -⟩
    exact absurd (habsent.symm.trans htext) (Option.some_ne_none text).symm

end Request

end LayeredEnv
