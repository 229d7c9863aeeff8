import LayeredEnv.Proofs.ResolvedNames
import LayeredEnv.Proofs.RequirementMeaning

/-!
# Presetting a request again

A project file sets some parts of a request, adds its requirements behind those of the request, and
gives its defaults to the keys without one.  So presetting is not idempotent: every time the list of
requirements grows.  What is resolved does not change, for two reasons.

A request that holds what a file presets (`ProjectFile.HeldBy`) is left by that file as it is, up to
the requirements that come again behind the others.  And requirements are examined up to the first
that falls short: if one of the first list does, it is told with its place in that list, and if none
does, none falls short where it comes again (`Requirement.examineAll_append_of_subset`).

Main statement: `ProjectFile.resolve_apply_apply`.
-/

namespace LayeredEnv

/-! ### Requirements that come again -/

namespace Requirement

variable {values : Values} {earlier later : List Requirement}

/-- Of two lists the second one is examined if nothing of the first one falls short, and its places
are counted on. -/
theorem examineAll_append (values : Values) (index : Nat) (earlier later : List Requirement) :
    examineAll values index (earlier ++ later) =
      (examineAll values index earlier).or
        (examineAll values (index + earlier.length) later) := by
  induction earlier generalizing index with
  | nil => rfl
  | cons part earlier ih =>
    rw [List.cons_append, examineAll, examineAll]
    cases examine values part with
    | some shortfall => rfl
    | none =>
      have hindex : index + (part :: earlier).length = index + 1 + earlier.length := by
        rw [List.length_cons]
        omega
      simp only [ih, hindex]

/-- Requirements that come again change no shortfall. -/
theorem examineAll_append_of_subset (h : later ⊆ earlier) (values : Values) (index : Nat) :
    examineAll values index (earlier ++ later) = examineAll values index earlier := by
  rw [examineAll_append]
  cases hearlier : examineAll values index earlier with
  | some shortfall => rfl
  | none =>
    have hparts := examineAll_eq_none_iff.mp hearlier
    have hlater : examineAll values (index + earlier.length) later = none := by
      apply examineAll_eq_none_iff.mpr
      intro part hpart
      exact hparts part (h hpart)
    rw [hlater, Option.none_or]

end Requirement

namespace Request

/-- The same request with further requirements behind its own. -/
def requireToo (r : Request) (more : List Requirement) : Request :=
  { r with required := r.required ++ more }

/-- Requirements that the request has already change nothing of what is resolved. -/
theorem resolve_requireToo {r : Request} {more : List Requirement} (h : more ⊆ r.required)
    (tree : FileTree) (env : LiveEnvironment) :
    (r.requireToo more).resolve tree env = r.resolve tree env := by
  have hexamine : ∀ result, (r.requireToo more).examine result = r.examine result := by
    intro result
    have hrequired := Requirement.examineAll_append_of_subset h result.values 0
    simp only [examine, requireToo, hrequired]
  have hcomplete : ∀ c, (r.requireToo more).complete env c = r.complete env c := by
    intro c
    simp only [complete, hexamine]
    rfl
  have hcascade : (r.requireToo more).cascade tree env = r.cascade tree env := rfl
  simp only [resolve, hcascade, hcomplete]

end Request

/-! ### Requests that hold what a file presets -/

namespace ProjectFile

open Request (layeredTree)

variable {p : ProjectFile} {r : Request}

/-- The request has every part that the file sets, asks for all that the file requires, and has a
default for each key for which the file has one. -/
structure HeldBy (p : ProjectFile) (r : Request) : Prop where
  localSide : p.localSide.getD r.scheme.localSide = r.scheme.localSide
  nameSide : p.nameSide.getD r.scheme.nameSide = r.scheme.nameSide
  modeKey : p.modeKey.getD r.modeKey = r.modeKey
  precedence : p.precedence.getD r.precedence = r.precedence
  useEnvironment : p.useEnvironment.getD r.useEnvironment = r.useEnvironment
  required : p.required ⊆ r.required
  defaults : ∀ key value, p.defaults.get? key = some value → ∃ own, r.defaults.get? key = some own

/-- What a file presets is held afterwards. -/
theorem heldBy_apply (p : ProjectFile) (r : Request) : p.HeldBy (p.apply r) := by
  have hset : ∀ {α : Type} (own : Option α) (given : α),
      own.getD (own.getD given) = own.getD given := by
    intro α own given
    cases own <;> rfl
  refine ⟨hset _ _, hset _ _, hset _ _, hset _ _, hset _ _, ?_, ?_⟩
  · exact List.subset_append_right r.required p.required
  · intro key value hvalue
    rw [get?_defaults_apply, hvalue]
    cases r.defaults.get? key with
    | none => exact ⟨value, rfl⟩
    | some own => exact ⟨own, rfl⟩

/-- A request that holds what a file presets only has the requirements of the file come again. -/
theorem HeldBy.apply_eq (h : p.HeldBy r) : p.apply r = r.requireToo p.required := by
  have hdefaults : (p.apply r).defaults = r.defaults := by
    refine KeyMap.ext_get? fun key => ?_
    rw [get?_defaults_apply]
    cases hown : r.defaults.get? key with
    | some own => rfl
    | none =>
      cases hvalue : p.defaults.get? key with
      | none => rfl
      | some value =>
        obtain ⟨own, hown'⟩ := h.defaults key value hvalue
        exact absurd (hown.symm.trans hown') (Option.some_ne_none own).symm
  have hdefaults' : p.defaults.entries.foldl (fun m d => m.insertIfNew d.1 d.2) r.defaults =
      r.defaults := hdefaults
  simp only [apply, h.localSide, h.nameSide, h.modeKey, h.precedence, h.useEnvironment, hdefaults',
    Request.requireToo]

/-- Such a request is resolved as before. -/
theorem HeldBy.resolve_apply (h : p.HeldBy r) (tree : FileTree) (env : LiveEnvironment) :
    (p.apply r).resolve tree env = r.resolve tree env := by
  rw [h.apply_eq]
  exact Request.resolve_requireToo h.required tree env

/-- A request that is preset by a file twice is resolved as one that is preset once, with the same
result or the same fault, the places of a shortfall included, although all requirements of the file
come again behind the others.  A default of the request stays as it is. -/
theorem resolve_apply_apply (p : ProjectFile) (r : Request) (tree : FileTree)
    (env : LiveEnvironment) :
    (p.apply (p.apply r)).resolve tree env = (p.apply r).resolve tree env ∧
      (p.apply (p.apply r)).required = (p.apply r).required ++ p.required ∧
      ∀ key value, r.defaults.get? key = some value →
        (p.apply r).defaults.get? key = some value := by
  refine ⟨(heldBy_apply p r).resolve_apply tree env, rfl, ?_⟩
  intro key value hvalue
  rw [get?_defaults_apply, hvalue, Option.some_or]

/-- Two keys are required, of which the file has a default for one. -/
def demandingFile : ProjectFile where
  modeKey := some "STAGE"
  required := [.key "PORT", .key "TOKEN"]
  defaults := KeyMap.empty.insert "HOST" (.string "file") |>.insert "PORT" (.int 80)

/-- A request with a requirement and a default of its own. -/
def hostRequest : Request where
  required := [.key "A"]
  defaults := KeyMap.empty.insert "HOST" (.string "localhost")

/-- The place of a requirement that falls short, and the key that it misses. -/
def missingAt? : Except Fault Resolution → Option (Nat × String)
  | .error (.missingRequired (.all place (.missing key))) => some (place, key)
  | _ => none

theorem missingAt?_eq_some {outcome : Except Fault Resolution} {place : Nat} {key : String}
    (h : missingAt? outcome = some (place, key)) :
    outcome = .error (.missingRequired (.all place (.missing key))) := by
  unfold missingAt? at h
  split at h
  · obtain ⟨rfl, rfl⟩ := Prod.mk.inj (Option.some.inj h)
    rfl
  · exact absurd h (Option.some_ne_none _).symm

/-- Preset once or twice, the third requirement is the one that falls short, and the host stays. -/
theorem resolve_apply_apply_hostRequest :
    hostRequest.defaults.get? "HOST" = some (.string "localhost") ∧
      (demandingFile.apply hostRequest).defaults.get? "HOST" = some (.string "localhost") ∧
      (demandingFile.apply hostRequest).resolve layeredTree (.ofList []) =
        .error (.missingRequired (.all 2 (.missing "TOKEN"))) ∧
      (demandingFile.apply (demandingFile.apply hostRequest)).resolve layeredTree (.ofList []) =
        .error (.missingRequired (.all 2 (.missing "TOKEN"))) := by
  have honce : (demandingFile.apply hostRequest).resolve layeredTree (.ofList []) =
      .error (.missingRequired (.all 2 (.missing "TOKEN"))) := by
    apply missingAt?_eq_some
    decide +kernel
  have hhost : hostRequest.defaults.get? "HOST" = some (.string "localhost") :=
    KeyMap.get?_insert_self ..
  obtain ⟨htwice, -, hdefault⟩ :=
    resolve_apply_apply demandingFile hostRequest layeredTree (.ofList [])
  exact ⟨hhost, hdefault _ _ hhost, honce, htwice.trans honce⟩

end ProjectFile

end LayeredEnv
