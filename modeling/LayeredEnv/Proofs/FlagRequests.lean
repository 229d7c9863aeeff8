import LayeredEnv.CommandLine.Perform
import LayeredEnv.Proofs.ReportedMode

/-!
# What the flags ask for

The flags and the project file make up a request (`CommandLine.Flags.request_eq_ok_iff`).  A flag
goes before what the project file presets, and so a mode that a flag gives is the live mode of the
request, whatever the live environment has.  Which mode the chase starts from is decided between
the live mode and the one that the files assign, and there the project file has a say: if it puts
the files first, the mode of the flag is passed over for one of the base file or its neighbour.

Main statement: the chase starts from the mode of the flag exactly if the project file does not put
the files first or these assign no other mode (`CommandLine.Flags.mode_starts_chase_iff`).
-/

namespace LayeredEnv

/-- The first of the modes that are chased is the one that the chase is to start from. -/
theorem Site.Chased.head?_eq {s : Site} {first : Option String} {modes : List String}
    (h : s.Chased first modes) : modes.head? = first := by
  cases h with
  | nothing => rfl
  | modes hredirects => cases hredirects <;> rfl

/-- A cascade without a fault reads the fixed layers and those of the modes that are chased from the
first mode. -/
theorem Request.exists_chased_of_cascade {r : Request} {tree : FileTree} {env : LiveEnvironment}
    {c : Cascade} (h : r.cascade tree env = .ok c) :
    ∃ modes, (r.site tree).Chased (r.firstMode? tree env) modes ∧
      (r.site tree).Scanned
        ((r.site tree).fixedLayers ++ modes.flatMap (r.site tree).modeLayers) c.scans := by
  obtain ⟨modes, reached, hreached, hscans, -⟩ := Site.exists_reachesFrom_of_cascade h
  have hchased := hreached.chased
  have hfirst := name_seed_declaration? r tree env
  exact ⟨modes, hfirst ▸ hchased, hscans⟩

namespace CommandLine

namespace Flags

variable {f : Flags} {tree : FileTree} {env : LiveEnvironment} {r : Request} {mode : String}

/-- The flags make up a request with whatever project file they lead to. -/
theorem request_eq_ok_iff :
    f.request tree = .ok r ↔
      ∃ p, f.loadProjectFile tree = .ok p ∧
        r = f.apply (p.apply { directory := f.directory }) := by
  unfold request
  cases f.loadProjectFile tree with
  | error failure => simp
  | ok p => simp [eq_comm]

/-- The mode that a flag gives is the live mode of the request. -/
theorem liveMode?_of_mode (h : f.request tree = .ok r) (hmode : f.mode = some mode)
    (hname : mode ≠ "") (env : LiveEnvironment) : r.liveMode? env = some mode := by
  obtain ⟨p, -, rfl⟩ := request_eq_ok_iff.mp h
  simp [Request.liveMode?, apply, hmode, hname]

/-- The chase starts from the mode that a flag gives, or else from the one that the files assign, if
the request puts these first. -/
theorem firstMode?_of_mode (h : f.request tree = .ok r) (hmode : f.mode = some mode)
    (hname : mode ≠ "") (env : LiveEnvironment) :
    r.firstMode? tree env =
      match r.precedence with
      | .environment => some mode
      | .files => some ((r.fileMode? tree).getD mode) := by
  rw [Request.firstMode?, liveMode?_of_mode h hmode hname, Request.fileMode?]
  cases r.precedence with
  | environment => rfl
  | files => cases (r.site tree).fixedLayers.findSome? (r.site tree).ownMode? <;> rfl

/-- A mode given by a flag starts the chase, so that its layers come right after the fixed ones and
before those of any other mode, exactly if the project file does not put the files first, or the
base file and its neighbour assign no mode or the same one.  Otherwise the chase starts from the
mode that these assign. -/
theorem mode_starts_chase_iff {result : Resolution} (hmode : f.mode = some mode)
    (hname : mode ≠ "") (hrequest : f.request tree = .ok r)
    (h : r.resolve tree env = .ok result) :
    ∃ p c modes, f.loadProjectFile tree = .ok p ∧ r.cascade tree env = .ok c ∧
      result.layers = c.layers ∧ (r.site tree).Chased (r.firstMode? tree env) modes ∧
      (r.site tree).Scanned
        ((r.site tree).fixedLayers ++ modes.flatMap (r.site tree).modeLayers) c.scans ∧
      (modes.head? = some mode ↔
        p.precedence ≠ some .files ∨ r.fileMode? tree = none ∨ r.fileMode? tree = some mode) ∧
      (modes.head? ≠ some mode → modes.head? = r.fileMode? tree) := by
  obtain ⟨c, hcascade, hcomplete⟩ := Request.exists_cascade_of_resolve h
  obtain ⟨-, -, -, hlayers, -⟩ := Request.exists_stages_of_complete hcomplete
  obtain ⟨modes, hmodes, hscans⟩ := Request.exists_chased_of_cascade hcascade
  obtain ⟨p, hfile, hr⟩ := request_eq_ok_iff.mp hrequest
  have hprecedence : r.precedence = p.precedence.getD .environment := by rw [hr]; rfl
  refine ⟨p, c, modes, hfile, hcascade, hlayers, hmodes, hscans, ?_⟩
  rw [hmodes.head?_eq, firstMode?_of_mode hrequest hmode hname, hprecedence]
  obtain hnone | henv | hfiles : p.precedence = none ∨ p.precedence = some .environment ∨
      p.precedence = some .files := by
    rcases p.precedence with _ | _ | _ <;> simp
  · simp [hnone]
  · simp [henv]
  · simp only [hfiles, Option.getD_some]
    cases r.fileMode? tree <;> simp

/-- The base file assigns the mode `dev`; the project file has one line. -/
def developmentTree (setting : String) : FileTree where
  nodes := [
    (["w", "envcascade.toml"], .file (Utf8.encode setting) false),
    (["w", ".env"], .file (Utf8.encode "MODE=dev") false),
    (["w", ".env.dev"], .file (Utf8.encode "A=dev") false),
    (["w", ".env.prod"], .file (Utf8.encode "A=prod") false)]
  workingDirectory := ["w"]

/-- The flags `--mode prod`. -/
def productionFlags : Flags where
  mode := some "prod"

/-- Without a setting for it, neither the base file nor the live environment has a say against a
flag. -/
theorem mode_starts_chase_production :
    ∃ r result modes, productionFlags.request (developmentTree "") = .ok r ∧
      r.resolve (developmentTree "") (.ofList [("MODE", "test")]) = .ok result ∧
      (r.site (developmentTree "")).Chased
        (r.firstMode? (developmentTree "") (.ofList [("MODE", "test")])) modes ∧
      modes.head? = some "prod" := by
  have hloads : (productionFlags.loadProjectFile (developmentTree "")).toOption.map
      ProjectFile.precedence = some none := by decide +kernel
  have hresolves : ((productionFlags.request (developmentTree "")).toOption.bind fun r =>
      (r.resolve (developmentTree "") (.ofList [("MODE", "test")])).toOption).isSome := by
    decide +kernel
  obtain ⟨result, hresult⟩ := Option.isSome_iff_exists.mp hresolves
  obtain ⟨r, hrequest, hresult⟩ := Option.bind_eq_some_iff.mp hresult
  rw [toOption_eq_some_iff] at hrequest hresult
  have hmode : productionFlags.mode = some "prod" := rfl
  obtain ⟨p, c, modes, hp, -, -, hmodes, -, hiff, -⟩ :=
    mode_starts_chase_iff hmode (by decide) hrequest hresult
  have hnone : p.precedence = none := by simpa [hp, Except.toOption] using hloads
  have hstart : modes.head? = some "prod" := hiff.mpr (.inl (by simp [hnone]))
  exact ⟨r, result, modes, hrequest, hresult, hmodes, hstart⟩

/-- The setting that puts the files first. -/
def filesFirst : String := "mode-precedence = \"files\""

/-- With a project file that puts the files first, the mode of a flag is not even read after that of
the base file. -/
theorem mode_flag_loses_to_files :
    ∃ r result,
      productionFlags.request (developmentTree filesFirst) = .ok r ∧
      r.resolve (developmentTree filesFirst) (.ofList []) = .ok result ∧
      (developmentTree filesFirst).isFile ⟨"./.env.prod"⟩ = true ∧
      result.layers = [⟨⟨"./.env"⟩, .base⟩, ⟨⟨"./.env.dev"⟩, .mode⟩] := by
  have hlayers : ((productionFlags.request (developmentTree filesFirst)).toOption.bind fun r =>
      (r.resolve (developmentTree filesFirst) (.ofList [])).toOption.map Resolution.layers) =
      some [⟨⟨"./.env"⟩, .base⟩, ⟨⟨"./.env.dev"⟩, .mode⟩] := by
    decide +kernel
  have hread : (developmentTree filesFirst).isFile ⟨"./.env.prod"⟩ = true := by decide +kernel
  obtain ⟨r, hrequest, hlayers⟩ := Option.bind_eq_some_iff.mp hlayers
  obtain ⟨result, hresult, hlayers⟩ := Option.map_eq_some_iff.mp hlayers
  rw [toOption_eq_some_iff] at hrequest hresult
  exact ⟨r, result, hrequest, hresult, hread, hlayers⟩

end Flags

end CommandLine

end LayeredEnv
