import LayeredEnv.Proofs.ChildEnvironment
import LayeredEnv.Proofs.FlagRequests
import LayeredEnv.Proofs.Provenance
import LayeredEnv.Proofs.RenderedFiles

/-!
# Names of resolved keys

Whatever a key comes from, its name survives in a block of variables: what stands before the sign of
an assignment has no sign in it and is not empty, the live environment has only names that were read
back from a block, and the project file is checked for the names of its mode key and its defaults.
So does the name of every key that is resolved for some flags
(`CommandLine.Flags.isName_of_resolve`).
-/

namespace LayeredEnv

open EnvironmentBlock (IsName)

/-! ### Names in files -/

namespace EnvFile

/-- Every assignment of a file is to a name that survives. -/
theorem isName_of_mem_directivesOf {bytes : List UInt8} {key value : String}
    (h : .assignment key value ∈ directivesOf bytes) : IsName key := by
  obtain ⟨hkey, -⟩ := isKey_of_mem_directives h
  have hne : key ≠ "" := fun heq => hkey.nonempty (String.toList_eq_nil_iff.mpr heq)
  exact ⟨hne, fun hmem => hkey.noEquals (List.mem_of_mem_tail hmem)⟩

end EnvFile

/-- No file of a tree assigns to a name that does not survive. -/
theorem Site.isName_of_mem_assigned {s : Site} {key value : String} (h : value ∈ s.assigned key) :
    IsName key := by
  obtain ⟨⟨place, node⟩, -, hvalue⟩ := List.mem_flatMap.mp h
  cases hbytes : node.bytes? with
  | none => simp [hbytes] at hvalue
  | some bytes =>
    rw [hbytes, Option.map_some, Option.getD_some, EnvFile.valuesOf_eq_filterMap] at hvalue
    obtain ⟨d, hd, hassigns⟩ := List.mem_filterMap.mp hvalue
    rw [Directive.valueFor?_eq_some_iff] at hassigns
    exact EnvFile.isName_of_mem_directivesOf (hassigns ▸ hd)

namespace ProjectFile

variable {p : ProjectFile}

/-- A key name is a name that survives. -/
theorem isName_of_isKeyName {key : String} (h : isKeyName key = true) : IsName key := by
  unfold isKeyName at h
  split at h
  · exact absurd h Bool.false_ne_true
  · next c rest hkey =>
    obtain ⟨-, hrest⟩ := Bool.and_eq_true_iff.mp h
    refine ⟨fun hempty => by simp [hempty] at hkey, fun hmem => ?_⟩
    rw [hkey, List.tail_cons] at hmem
    exact absurd (List.all_eq_true.mp hrest '=' hmem) (by decide)

/-- A file passes the check exactly if all of its keys are key names. -/
theorem check_eq_ok_iff {p' : ProjectFile} :
    p.check = .ok p' ↔ p' = p ∧ ∀ named ∈ p.namedKeys, isKeyName named.2 = true := by
  unfold check
  cases hfind : p.namedKeys.find? fun named => !isKeyName named.2 with
  | none =>
    have hall : ∀ named ∈ p.namedKeys, isKeyName named.2 = true := fun named hmem => by
      simpa using List.find?_eq_none.mp hfind named hmem
    rw [Except.ok.injEq, eq_comm]
    exact ⟨fun hsame => ⟨hsame, hall⟩, And.left⟩
  | some named =>
    have hbad : isKeyName named.2 = false := by simpa using List.find?_some hfind
    simp only [reduceCtorEq, false_iff, not_and]
    intro _ hall
    exact absurd (hall named (List.mem_of_find?_eq_some hfind)) (by simp [hbad])

/-- A file that was read has passed the check. -/
theorem isKeyName_of_load {tree : FileTree} {path : Path} (h : load tree path = .ok p) :
    ∀ named ∈ p.namedKeys, isKeyName named.2 = true := by
  unfold load ofText at h
  split at h
  · simp at h
  · split at h
    · simp at h
    · split at h
      · simp at h
      · obtain ⟨rfl, hnames⟩ := check_eq_ok_iff.mp h
        exact hnames

/-- A file that was found has passed the check. -/
theorem isKeyName_of_find {tree : FileTree} {directory path : Path}
    (h : find tree directory = .ok (some (path, p))) :
    ∀ named ∈ p.namedKeys, isKeyName named.2 = true := by
  unfold find at h
  dsimp only at h
  split at h
  · cases hload : load tree (directory.join fileName) with
    | error fault => simp [hload, Except.map] at h
    | ok p' =>
      obtain ⟨-, rfl⟩ : directory.join fileName = path ∧ p' = p := by
        simpa [hload, Except.map] using h
      exact isKeyName_of_load hload
  · simp at h

/-- The defaults of a file are for the keys without a default. -/
theorem get?_defaults_apply (p : ProjectFile) (r : Request) (key : String) :
    (p.apply r).defaults.get? key = (r.defaults.get? key).or (p.defaults.get? key) := by
  have h := KeyMap.get?_foldl_insertIfNew (fun _ => False) (fun d : String × Json => d.2)
    p.defaults.entries r.defaults key
  simp only [if_false, Option.map_id'] at h
  exact h

end ProjectFile

/-! ### Names of a request -/

namespace Request

variable {r : Request} {tree : FileTree} {env : LiveEnvironment} {c : Cascade} {key : String}

/-- A key that is bound before the conversions is the mode key, or a file assigns it, or the live
environment has it. -/
theorem cases_of_rawBindings {b : Binding String} (h : r.cascade tree env = .ok c)
    (hb : (r.rawBindings env c).get? key = some b) :
    key = r.modeKey ∨ b.value ∈ (r.site tree).assigned key ∨ env.get? key = some b.value := by
  by_cases hkey : key = r.modeKey
  · exact .inl hkey
  · rw [get?_rawBindings hkey] at hb
    rcases Option.or_eq_some_iff.mp hb with hscan | ⟨-, henv⟩
    · obtain ⟨found, hfound, hbinding⟩ := List.exists_of_findSome?_eq_some hscan
      obtain ⟨e, he, rfl⟩ := Option.map_eq_some_iff.mp hbinding
      obtain ⟨hmem, rfl⟩ := Splice.mem_of_lastAssignment? he
      exact .inr (.inl (Site.mem_assigned_of_splice (Site.scan_of_mem_cascade h hfound).2 hmem))
    · obtain ⟨text, htext, rfl⟩ := Option.map_eq_some_iff.mp henv
      split at htext
      · exact .inr (.inr htext)
      · exact absurd htext (Option.some_ne_none text).symm

/-- Without a schema, if the names of the mode key, of the defaults and of the live environment
survive, so do those of all resolved keys. -/
theorem isName_of_resolve {result : Resolution} (hschema : r.schema = none)
    (hmode : IsName r.modeKey)
    (hdefaults : ∀ key value, r.defaults.get? key = some value → IsName key)
    (henv : ∀ key text, env.get? key = some text → IsName key)
    (h : r.resolve tree env = .ok result) : ∀ key ∈ result.values.keys, IsName key := by
  intro key hkey
  obtain ⟨c, hcascade, hcomplete⟩ := exists_cascade_of_resolve h
  obtain ⟨-, -, hbindings⟩ := get?_of_complete hschema hcomplete
  obtain ⟨value, hvalue⟩ := KeyMap.mem_keys_iff.mp hkey
  obtain ⟨b, hb, -⟩ := Option.map_eq_some_iff.mp ((KeyMap.get?_map _ _ key).symm.trans hvalue)
  rcases hbindings key with ⟨raw, -, hraw, -⟩ | ⟨-, hdefault⟩
  · rcases cases_of_rawBindings hcascade hraw with rfl | hassigned | hlive
    · exact hmode
    · exact Site.isName_of_mem_assigned hassigned
    · exact henv key raw.value hlive
  · rw [hb] at hdefault
    obtain ⟨default, hget, -⟩ := Option.map_eq_some_iff.mp hdefault.symm
    exact hdefaults key default hget

end Request

/-! ### Names for flags -/

namespace CommandLine.Flags

variable {f : Flags} {tree : FileTree}

/-- Whichever project file the flags lead to, it has passed the check. -/
theorem isKeyName_of_loadProjectFile {p : ProjectFile} (h : f.loadProjectFile tree = .ok p) :
    ∀ named ∈ p.namedKeys, ProjectFile.isKeyName named.2 = true := by
  unfold loadProjectFile at h
  split at h
  · split at h
    · next hload =>
      obtain rfl := Except.ok.inj h
      exact ProjectFile.isKeyName_of_load hload
    · simp at h
  · split at h
    · next path found hfind =>
      obtain rfl := Except.ok.inj h
      exact ProjectFile.isKeyName_of_find hfind
    · obtain rfl := Except.ok.inj h
      exact fun named hnamed => absurd hnamed List.not_mem_nil
    · simp at h

/-- The mode key of a request has a name that survives, and so do the keys with a default. -/
theorem isName_of_request {r : Request} (h : f.request tree = .ok r) :
    IsName r.modeKey ∧ ∀ key value, r.defaults.get? key = some value → IsName key := by
  obtain ⟨p, hfile, rfl⟩ := request_eq_ok_iff.mp h
  have hnamed := isKeyName_of_loadProjectFile hfile
  constructor
  · change IsName (p.modeKey.getD "MODE")
    cases hkey : p.modeKey with
    | none => exact ⟨by decide, by decide⟩
    | some key =>
      have hmem : ("mode-key", key) ∈ p.namedKeys := by simp [ProjectFile.namedKeys, hkey]
      exact ProjectFile.isName_of_isKeyName (hnamed _ hmem)
  · intro key value hdefault
    have hkey : key ∈ p.defaults.keys :=
      KeyMap.mem_keys_iff.mpr ⟨value, (ProjectFile.get?_defaults_apply p _ key).symm.trans hdefault⟩
    have hmem : ("defaults", key) ∈ p.namedKeys := by simp [ProjectFile.namedKeys, hkey]
    exact ProjectFile.isName_of_isKeyName (hnamed _ hmem)

/-- Every key that is resolved for the flags has a name that survives. -/
theorem isName_of_resolve {environment : EnvironmentBlock} {r : Request} {result : Resolution}
    (hrequest : f.request tree = .ok r)
    (h : r.resolve tree (.ofBlock environment) = .ok result) :
    ∀ key ∈ result.values.keys, IsName key := by
  have hschema : r.schema = none := by
    obtain ⟨p, -, rfl⟩ := request_eq_ok_iff.mp hrequest
    rfl
  obtain ⟨hmode, hdefaults⟩ := isName_of_request hrequest
  refine Request.isName_of_resolve hschema hmode hdefaults (fun key text hlive => ?_) h
  rw [EnvironmentBlock.get?_ofBlock] at hlive
  exact EnvironmentBlock.isName_of_mem_found (KeyMap.mem_of_find? hlive)

end CommandLine.Flags

end LayeredEnv
