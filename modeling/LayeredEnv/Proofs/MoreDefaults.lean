import LayeredEnv.Proofs.ReferenceSemantics
import LayeredEnv.Proofs.RequirementMeaning

/-!
# More defaults

The defaults come after the conversions and fill in absent keys only, so what is there before them
does not depend on them (`Request.convertedCascade`).  With further defaults the filled bindings
hold what they held, and the keys that are new hold their defaults.  The only stage after that is
the examination of the requirements, and without checks of the caller's own these cannot fall short
by keys that are added.  A fault other than a shortfall comes from a stage before the defaults.

Main statement: `Request.more_defaults_only_add`.
-/

namespace LayeredEnv

namespace Request

variable {r : Request} {tree : FileTree} {env : LiveEnvironment} {c : Cascade}
  {converted : KeyMap (Binding Json)} {defaults' : Values}

/-- The same request with other defaults. -/
def withDefaults (r : Request) (defaults' : Values) : Request :=
  { r with defaults := defaults' }

/-- What is there before the defaults does not depend on them. -/
theorem convertedCascade_withDefaults (r : Request) (defaults' : Values) (tree : FileTree)
    (env : LiveEnvironment) :
    (r.withDefaults defaults').convertedCascade tree env = r.convertedCascade tree env := rfl

/-- Keys that are bound among fewer defaults are bound alike among more of them. -/
theorem fillDefaults_extends (hextends : r.defaults.Extends defaults')
    (m : KeyMap (Binding Json)) :
    (r.fillDefaults m).Extends ((r.withDefaults defaults').fillDefaults m) := by
  intro key b hbound
  rw [get?_fillDefaults] at hbound ⊢
  cases hconverted : m.get? key with
  | some own =>
    rw [hconverted, Option.some_or] at hbound
    rw [Option.some_or, hbound]
  | none =>
    rw [hconverted, Option.none_or, Option.map_eq_some_iff] at hbound
    obtain ⟨value, hvalue, rfl⟩ := hbound
    rw [Option.none_or, Option.map_eq_some_iff]
    exact ⟨value, hextends key value hvalue, rfl⟩

/-- A key that is not bound among fewer defaults has its default among more of them, if any. -/
theorem get?_fillDefaults_of_absent {m : KeyMap (Binding Json)} {key : String}
    (habsent : (r.fillDefaults m).get? key = none) :
    ((r.withDefaults defaults').fillDefaults m).get? key =
      (defaults'.get? key).map (⟨·, .default⟩) := by
  rw [get?_fillDefaults, Option.or_eq_none_iff] at habsent
  rw [get?_fillDefaults, habsent.1, Option.none_or]
  rfl

/-- Requirements that hold among fewer defaults hold among more of them, if none of them has a check
of the caller's own. -/
theorem examine_filled_withDefaults (hfree : ∀ part ∈ r.required, part.PredicateFree)
    (hextends : r.defaults.Extends defaults') {result : Resolution}
    (h : r.examine (r.filled c converted) = .ok result) :
    (r.withDefaults defaults').examine ((r.withDefaults defaults').filled c converted) =
      .ok ((r.withDefaults defaults').filled c converted) := by
  have hvalues : (r.filled c converted).values.Extends
      ((r.withDefaults defaults').filled c converted).values :=
    (fillDefaults_extends hextends converted).map Binding.value
  have hnone : Requirement.examineAll (r.filled c converted).values 0 r.required = none := by
    unfold examine at h
    split at h
    · simp at h
    · next hnone => exact hnone
  have hnone' : Requirement.examineAll ((r.withDefaults defaults').filled c converted).values 0
      (r.withDefaults defaults').required = none :=
    Requirement.examineAll_eq_none_of_extends hvalues hfree hnone
  unfold examine
  rw [hnone']

/-- Examining the requirements fails with a shortfall only. -/
theorem exists_shortfall_of_examine_error {result : Resolution} {fault : Fault}
    (h : r.examine result = .error fault) : ∃ shortfall, fault = .missingRequired shortfall := by
  unfold examine at h
  split at h
  · next shortfall _ => exact ⟨shortfall, (Except.error.inj h).symm⟩
  · simp at h

/-- Without a schema and without checks of the caller's own, further defaults undo no success:
layers and mode stay, every key keeps its value and its origin, and the keys that are new are the
defaults that were absent, each with its default as it is.  A resolution that fails other than for
its requirements fails in the same way. -/
theorem more_defaults_only_add (hschema : r.schema = none)
    (hfree : ∀ part ∈ r.required, part.PredicateFree) (hextends : r.defaults.Extends defaults') :
    (∀ result, r.resolve tree env = .ok result →
      ∃ result', (r.withDefaults defaults').resolve tree env = .ok result' ∧
        result'.layers = result.layers ∧ result'.mode = result.mode ∧
        (∀ key b, result.bindings.get? key = some b → result'.bindings.get? key = some b) ∧
        ∀ key, result.bindings.get? key = none →
          result'.bindings.get? key = (defaults'.get? key).map (⟨·, .default⟩)) ∧
    ∀ fault, r.resolve tree env = .error fault →
      (∀ shortfall, fault ≠ .missingRequired shortfall) →
      (r.withDefaults defaults').resolve tree env = .error fault := by
  have hschema' : (r.withDefaults defaults').schema = none := hschema
  rw [resolve_eq_of_no_schema hschema, resolve_eq_of_no_schema hschema',
    convertedCascade_withDefaults]
  cases r.convertedCascade tree env with
  | error fault =>
    -- the fault comes from before the defaults
    refine ⟨fun result h => ?_, fun fault' h _ => h⟩
    simp [Except.bind] at h
  | ok p =>
    obtain ⟨c, converted⟩ := p
    simp only [Except.bind]
    constructor
    · intro result h
      have hexamined := examine_filled_withDefaults hfree hextends h
      obtain rfl := examine_eq_ok h
      exact ⟨_, hexamined, rfl, rfl, fillDefaults_extends hextends converted,
        fun key habsent => get?_fillDefaults_of_absent habsent⟩
    · intro fault h hother
      obtain ⟨shortfall, rfl⟩ := exists_shortfall_of_examine_error h
      exact absurd rfl (hother shortfall)

/-- `A` has to be there, and either a port or the local host; ports are refused by conversion. -/
def demandingRequest : Request where
  conversions := KeyMap.empty.insert "PORT" fun text => .error (.refused text)
  defaults := KeyMap.empty.insert "HOST" (.string "localhost")
  required := [.key "A", .any [.key "PORT", .all [.key "B", .equals "HOST" "localhost"]]]

/-- The defaults of that request and one for the port. -/
def portDefaults : Values :=
  demandingRequest.defaults.insert "PORT" (.string "80")

theorem extends_portDefaults : demandingRequest.defaults.Extends portDefaults := by
  intro key value hvalue
  have hne : key ≠ "PORT" := by
    rintro rfl
    simp [demandingRequest, KeyMap.get?_insert] at hvalue
  rw [portDefaults, KeyMap.get?_insert, if_neg hne, hvalue]

theorem predicateFree_demandingRequest :
    ∀ part ∈ demandingRequest.required, part.PredicateFree := by
  have hhost : (Requirement.all [.key "B", .equals "HOST" "localhost"]).PredicateFree :=
    .all (List.forall_mem_cons.mpr ⟨.key, List.forall_mem_singleton.mpr .equals⟩)
  have hany : (Requirement.any [.key "PORT", .all [.key "B", .equals "HOST" "localhost"]]
      ).PredicateFree :=
    .any (List.forall_mem_cons.mpr ⟨.key, List.forall_mem_singleton.mpr hhost⟩)
  exact List.forall_mem_cons.mpr ⟨.key, List.forall_mem_singleton.mpr hany⟩

/-- The port is added to a success as it is, without being refused by its conversion. -/
theorem more_defaults_demandingRequest :
    demandingRequest.schema = none ∧
      (∀ part ∈ demandingRequest.required, part.PredicateFree) ∧
      demandingRequest.defaults.Extends portDefaults ∧
      ∃ result result', demandingRequest.resolve layeredTree (.ofList []) = .ok result ∧
        (demandingRequest.withDefaults portDefaults).resolve layeredTree (.ofList []) =
          .ok result' ∧
        result.bindings.get? "PORT" = none ∧
        result'.bindings.get? "PORT" = some ⟨.string "80", .default⟩ := by
  refine ⟨rfl, predicateFree_demandingRequest, extends_portDefaults, ?_⟩
  have hport : ((demandingRequest.resolve layeredTree (.ofList [])).toOption.map fun result =>
      result.bindings.contains "PORT") = some false := by
    decide +kernel
  cases hresult : demandingRequest.resolve layeredTree (.ofList []) with
  | error e => simp [hresult, Except.toOption] at hport
  | ok result =>
    have habsent : result.bindings.get? "PORT" = none := by
      simpa [hresult, Except.toOption, KeyMap.contains] using hport
    obtain ⟨result', hresult', -, -, -, hnew⟩ :=
      (more_defaults_only_add rfl predicateFree_demandingRequest extends_portDefaults).1 result
        hresult
    refine ⟨result, result', rfl, hresult', habsent, ?_⟩
    rw [hnew "PORT" habsent, portDefaults, KeyMap.get?_insert_self]
    rfl

end Request

end LayeredEnv
