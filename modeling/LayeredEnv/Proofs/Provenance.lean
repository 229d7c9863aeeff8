import LayeredEnv.Proofs.ReportedMode
import LayeredEnv.Proofs.SamePath

/-!
# Where a value comes from

The origin of a key tells a file and a tier.  It is computed from one assignment of a layer, and
whether that stands in the layer itself or in a file that it imports is told by a comparison of
paths.  The comparison is right because no file that a layer imports, directly or through others, is
the layer again: that would be an import cycle.

A directive of a layer *wins* a key if the assignment that counts comes from it
(`Site.Wins`), and a scan *decides* a key if the cascade takes the key from it (`Cascade.Decides`).

Main statement: a file that is told as an origin assigns the text of the key in its own lines, and
the tier tells whether the winning directive is an import (`Request.file_origin_sound`).
-/

namespace LayeredEnv

namespace ModePrecedence

variable {precedence : ModePrecedence} {live other : Option ActiveMode} {mode : ActiveMode}

/-- The chase starts from the live mode or from the other one. -/
theorem seed_cases (h : precedence.seed live other = some mode) :
    live = some mode ∨ other = some mode := by
  cases precedence with
  | environment => exact (Option.or_eq_some_iff.mp h).imp_right And.right
  | files => exact (Option.or_eq_some_iff.mp h).symm.imp_left And.right

/-- The live mode is reported or the other one. -/
theorem report_cases (h : precedence.report live other = some mode) :
    live = some mode ∨ other = some mode := by
  cases precedence with
  | environment => exact (Option.or_eq_some_iff.mp h).imp_right And.right
  | files => exact .inr h

end ModePrecedence

namespace Site

variable {s : Site} {stack : List Location} {isImport : Bool} {path p : Path} {key : String}
  {e : Entry}

/-! ### The directive that wins a key -/

/-- Of the directives of the file at a path, `d` is the last one that adds an assignment to the key,
and `e` is the last assignment that it adds. -/
def Wins (s : Site) (path : Path) (key : String) (d : Directive) (e : Entry) : Prop :=
  ∃ place bytes before after part, s.tree.Holds path place bytes ∧
    EnvFile.directivesOf bytes = before ++ d :: after ∧
    s.directiveSplice false path (s.spliceFrom [place] true) d = .ok part ∧
    part.lastAssignment? key = some e ∧
    ∀ b ∈ after, ∀ other, s.directiveSplice false path (s.spliceFrom [place] true) b = .ok other →
      other.lastAssignment? key = none

/-- A file that a spliced one imports, directly or through others, is not on the stack. -/
theorem exists_new_place_of_reflTransGen {r : Splice}
    (h : s.spliceFrom stack isImport path = .ok r)
    (hreach : Relation.ReflTransGen s.Imports path p) :
    ∃ place, s.tree.locate p = .ok place ∧ place ∉ stack := by
  induction hreach using Relation.ReflTransGen.head_induction_on generalizing stack isImport r with
  | refl =>
    obtain ⟨place, bytes, contents, hholds, hnew, -, -⟩ := spliceFrom_eq_ok_iff.mp h
    exact ⟨place, hholds.located, hnew⟩
  | head hstep _ ih =>
    obtain ⟨place, -, -, r', hr'⟩ := exists_splice_of_imports h hstep
    obtain ⟨place', hplace', hnew⟩ := ih hr'
    exact ⟨place', hplace', fun hmem => hnew (List.mem_append_left _ hmem)⟩

/-- A file that a spliced one imports, directly or through others, has a path that differs from that
one's. -/
theorem same_eq_false_of_imported {place : Location} {q : Path} {r : Splice}
    (hplace : s.tree.locate path = .ok place) (h : s.spliceFrom [place] true q = .ok r)
    (he : e ∈ r.entries) : e.source.same path = false := by
  obtain ⟨place', hplace', hnew⟩ :=
    exists_new_place_of_reflTransGen h (reflTransGen_imports_of_mem h he)
  rw [Bool.eq_false_iff]
  intro hsame
  have heq : place' = place := FileTree.locate_unique_of_same hsame hplace' hplace
  exact hnew (List.mem_singleton.mpr heq)

/-- The assignment that counts in a splice comes from an own line of the file or from an import that
leads to other files. -/
theorem exists_wins_of_lastAssignment? {contents : Splice} (h : s.splice path = .ok contents)
    (he : contents.lastAssignment? key = some e) :
    ∃ d, s.Wins path key d e ∧
      ((∃ value, d = .assignment key value ∧ e.source = path) ∨
        ∃ target, d = .importing target ∧ e.source.same path = false ∧ key ≠ s.modeKey) := by
  obtain ⟨place, bytes, contents', hholds, -, hcontents, hlisted⟩ := spliceFrom_eq_ok_iff.mp h
  obtain rfl : contents = contents' := hlisted
  obtain ⟨before, d, after, part, hsplit, hpart, hlast, hafter⟩ :=
    Splice.exists_winner_of_gather hcontents he
  refine ⟨d, ⟨place, bytes, before, after, part, hholds, hsplit, hpart, hlast, hafter⟩, ?_⟩
  obtain ⟨hmem, hkey⟩ := Splice.mem_of_lastAssignment? hlast
  cases d with
  | assignment k value =>
    obtain rfl := Except.ok.inj hpart
    obtain ⟨rfl, -⟩ := mem_assignmentSplice hmem
    obtain rfl : k = key := hkey
    exact .inl ⟨value, rfl, rfl⟩
  | importing target =>
    obtain ⟨q, -, r', hr', hmem'⟩ := Splice.mem_entries_of_gather hpart hmem
    refine .inr ⟨target, rfl, same_eq_false_of_imported hholds.located hr' hmem', ?_⟩
    exact hkey ▸ key_ne_modeKey_of_imported hr' hmem'

/-! ### The mode that a cascade reaches -/

theorem tier_ne_imported_of_mem_fixedLayers {layer : Layer} (h : layer ∈ s.fixedLayers) :
    layer.tier ≠ .imported := by
  rcases List.mem_pair.mp h with rfl | rfl <;> exact Tier.noConfusion

theorem tier_ne_imported_of_mem_modeLayers {layer : Layer} {mode : String}
    (h : layer ∈ s.modeLayers mode) : layer.tier ≠ .imported := by
  rcases List.mem_pair.mp h with rfl | rfl <;> exact Tier.noConfusion

/-- The scans of a cascade are those of layers that are no imports. -/
theorem scan_of_mem_cascade {precedence : ModePrecedence} {live : Option String} {c : Cascade}
    (h : s.cascade precedence live = .ok c) {found : Scan} (hfound : found ∈ c.scans) :
    found.layer.tier ≠ .imported ∧ s.splice found.layer.path = .ok found.contents := by
  obtain ⟨modes, reached, -, hscans, -⟩ := exists_reachesFrom_of_cascade h
  obtain ⟨hlayer, -, hsplice⟩ := hscans.of_mem hfound
  refine ⟨?_, hsplice⟩
  rcases List.mem_append.mp hlayer with hfixed | hchased
  · exact tier_ne_imported_of_mem_fixedLayers hfixed
  · obtain ⟨mode, -, hmode⟩ := List.mem_flatMap.mp hchased
    exact tier_ne_imported_of_mem_modeLayers hmode

/-- A mode that is reached from a seed is the seed, or a layer of a mode on the way declares it. -/
theorem ReachesFrom.eq_or_exists_declaration {seed : Option ActiveMode} {modes : List String}
    {mode : ActiveMode} (h : s.ReachesFrom seed modes (some mode)) :
    seed = some mode ∨ ∃ layer ∈ modes.flatMap s.modeLayers, s.declaration? layer = some mode := by
  cases h with
  | mode hreaches =>
    rcases hreaches.eq_or_exists_redirection with ⟨rfl, -⟩ | ⟨-, prior, hprior, -, -, hmode⟩
    · exact .inl rfl
    · obtain ⟨layer, hlayer, hdeclared⟩ := List.exists_of_findSome?_eq_some hmode
      exact .inr ⟨layer, List.mem_flatMap.mpr ⟨prior, hprior, hlayer⟩, hdeclared⟩

/-- A mode of a cascade that comes from a file is declared by one of the scans. -/
theorem exists_scan_of_mode {precedence : ModePrecedence} {live : Option String} {c : Cascade}
    (h : s.cascade precedence live = .ok c) {mode : ActiveMode} (hmode : c.mode = some mode)
    (horigin : mode.origin ≠ .environment) :
    ∃ found ∈ c.scans, found.declaredMode? s.modeKey = some mode := by
  obtain ⟨modes, reached, hreached, hscans, hreported⟩ := exists_reachesFrom_of_cascade h
  have hlive : live.map (⟨·, .environment⟩) ≠ some mode := by
    intro hmap
    obtain ⟨name, -, rfl⟩ := Option.map_eq_some_iff.mp hmap
    exact horigin rfl
  obtain rfl : reached = some mode :=
    (ModePrecedence.report_cases (hreported.symm.trans hmode)).resolve_left hlive
  rcases hreached.eq_or_exists_declaration with hseed | ⟨layer, hlayer, hdeclared⟩
  · have hfixed := (ModePrecedence.seed_cases hseed).resolve_left hlive
    obtain ⟨layer, hlayer, hdeclared⟩ := List.exists_of_findSome?_eq_some hfixed
    exact hscans.exists_declaredMode? (List.mem_append_left _ hlayer) hdeclared
  · exact hscans.exists_declaredMode? (List.mem_append_right _ hlayer) hdeclared

end Site

/-! ### The scan that decides a key -/

namespace Scan

variable {s : Site} {found : Scan} {key : String} {e : Entry}

/-- The origin of the assignment that counts in a scan is the file that it stands in, and the tier
tells whether an import has won the key. -/
theorem exists_wins_of_originOf (htier : found.layer.tier ≠ .imported)
    (hsplice : s.splice found.layer.path = .ok found.contents)
    (he : found.contents.lastAssignment? key = some e) :
    ∃ d tier, s.Wins found.layer.path key d e ∧ found.originOf e = .file e.source tier ∧
      (tier = .imported ↔ ∃ target, d = .importing target) ∧
      (tier ≠ .imported → found.layer = ⟨e.source, tier⟩) ∧
      (key = s.modeKey → tier ≠ .imported) := by
  obtain ⟨d, hwins, ⟨value, rfl, hsource⟩ | ⟨target, rfl, hsame, hkey⟩⟩ :=
    Site.exists_wins_of_lastAssignment? hsplice he
  · refine ⟨_, found.layer.tier, hwins, ?_, by simp [htier], fun _ => by rw [hsource],
      fun _ => htier⟩
    rw [originOf, if_pos (by rw [hsource, Path.same_refl])]
  · refine ⟨_, .imported, hwins, ?_, by simp, fun h => absurd rfl h, fun h => absurd h hkey⟩
    rw [originOf, if_neg (by simp [hsame])]

/-- A declared mode is the assignment to the mode key that counts in the scan, and both have the
same origin, as no import assigns the mode key. -/
theorem exists_assignment_of_declaredMode? {mode : ActiveMode}
    (hsplice : s.splice found.layer.path = .ok found.contents)
    (h : found.declaredMode? s.modeKey = some mode) :
    ∃ e, found.contents.lastAssignment? s.modeKey = some e ∧ e.value = mode.name ∧
      found.originOf e = mode.origin := by
  obtain ⟨name, hname, rfl⟩ := Option.map_eq_some_iff.mp h
  have hvalue := (Option.filter_eq_some_iff.mp hname).1
  obtain ⟨e, he, rfl⟩ := Option.map_eq_some_iff.mp hvalue
  refine ⟨e, he, rfl, ?_⟩
  obtain ⟨d, -, ⟨value, -, hsource⟩ | ⟨target, -, -, hkey⟩⟩ :=
    Site.exists_wins_of_lastAssignment? hsplice he
  · rw [originOf, if_pos (by rw [hsource, Path.same_refl]), hsource]
  · exact absurd rfl hkey

end Scan

/-- The scan that a cascade takes a key from: for the mode key one that declares the mode, and for
any other key the first one with an assignment to it. -/
inductive Cascade.Decides (c : Cascade) (modeKey : String) : String → Scan → Prop
  | mode {found : Scan} : found ∈ c.scans → found.declaredMode? modeKey = c.mode →
      Decides c modeKey modeKey found
  | first {key : String} {found : Scan} {before after : List Scan} : key ≠ modeKey →
      c.scans = before ++ found :: after →
      (∀ scan ∈ before, scan.contents.lastAssignment? key = none) → Decides c modeKey key found

namespace Request

variable {r : Request} {tree : FileTree} {env : LiveEnvironment} {c : Cascade} {key : String}
  {path : Path} {tier : Tier}

/-- A binding that comes from a file is an assignment of the scan that decides its key. -/
theorem exists_decides_of_rawBindings {b : Binding String}
    (hcascade : r.cascade tree env = .ok c) (hb : (r.rawBindings env c).get? key = some b)
    (horigin : b.origin = .file path tier) :
    ∃ found e, c.Decides r.modeKey key found ∧ found ∈ c.scans ∧
      found.contents.lastAssignment? key = some e ∧ e.value = b.value ∧
      found.originOf e = .file path tier := by
  by_cases hkey : key = r.modeKey
  · subst hkey
    rw [get?_rawBindings_modeKey] at hb
    obtain ⟨mode, hmode, rfl⟩ := Option.map_eq_some_iff.mp hb
    obtain ⟨found, hfound, hdeclared⟩ :=
      Site.exists_scan_of_mode hcascade hmode fun henv => by simp [henv] at horigin
    obtain ⟨e, he, hvalue, hsame⟩ := Scan.exists_assignment_of_declaredMode?
      (Site.scan_of_mem_cascade hcascade hfound).2 hdeclared
    exact ⟨found, e, .mode hfound (hdeclared.trans hmode.symm), hfound, he, hvalue,
      hsame.trans horigin⟩
  · rw [get?_rawBindings hkey] at hb
    rcases Option.or_eq_some_iff.mp hb with hscan | ⟨-, henv⟩
    · obtain ⟨before, found, after, hscans, hbinding, hbefore⟩ :=
        List.findSome?_eq_some_iff.mp hscan
      obtain ⟨e, he, rfl⟩ := Option.map_eq_some_iff.mp hbinding
      refine ⟨found, e, .first hkey hscans fun scan hmem => ?_, ?_, he, rfl, horigin⟩
      · exact Option.map_eq_none_iff.mp (hbefore scan hmem)
      · rw [hscans]
        exact List.mem_append_right _ (List.mem_cons_self ..)
    · obtain ⟨text, -, rfl⟩ := Option.map_eq_some_iff.mp henv
      exact absurd horigin Origin.noConfusion

/-- Without a schema, if the origin of a key is a file, then the file's own lines assign the key
last the text that the value of the key is made of.  That assignment is the one that counts in the
scan that decides the key; the tier tells whether a directive of that scan's file that wins the key
is an import, and if it is none, the file is the scan's own layer.  The mode key is never
imported. -/
theorem file_origin_sound {result : Resolution} (hschema : r.schema = none)
    (h : r.resolve tree env = .ok result)
    (horigin : result.origins.get? key = some (.file path tier)) :
    ∃ c found d text value, r.cascade tree env = .ok c ∧ c.Decides r.modeKey key found ∧
      (r.site tree).Wins found.layer.path key d ⟨key, text, path⟩ ∧
      tree.ownValue? path key = some text ∧ r.Converts key text value ∧
      result.values.get? key = some value ∧
      (tier = .imported ↔ ∃ target, d = .importing target) ∧
      (tier ≠ .imported → found.layer = ⟨path, tier⟩) ∧
      (key = r.modeKey → tier ≠ .imported) := by
  obtain ⟨c, hcascade, hcomplete⟩ := exists_cascade_of_resolve h
  obtain ⟨-, -, hkeys⟩ := get?_of_complete hschema hcomplete
  have horigin' : (result.bindings.get? key).map Binding.origin = some (.file path tier) :=
    (KeyMap.get?_map ..).symm.trans horigin
  have hvalue : result.values.get? key = (result.bindings.get? key).map Binding.value :=
    KeyMap.get?_map ..
  rcases hkeys key with ⟨b, value, hraw, hconverts, hbound⟩ | ⟨-, hdefault⟩
  · rw [hbound] at horigin' hvalue
    obtain ⟨found, e, hdecides, hfound, he, htext, hsame⟩ :=
      exists_decides_of_rawBindings hcascade hraw (Option.some.inj horigin')
    obtain ⟨htier, hsplice⟩ := Site.scan_of_mem_cascade hcascade hfound
    obtain ⟨d, tier', hwins, htold, himport, hlayer, hmodeKey⟩ :=
      Scan.exists_wins_of_originOf htier hsplice he
    obtain ⟨rfl, rfl⟩ : e.source = path ∧ tier' = tier := by
      simpa using htold.symm.trans hsame
    have hown := Site.ownValue?_of_lastAssignment? _ _ _ _ _ hsplice key e he
    obtain ⟨-, hkey⟩ := Splice.mem_of_lastAssignment? he
    refine ⟨c, found, d, e.value, value, hcascade, hdecides, ?_, hown, htext ▸ hconverts, hvalue,
      himport, hlayer, hmodeKey⟩
    rw [← hkey] at hwins ⊢
    exact hwins
  · rw [hdefault, Option.map_map] at horigin'
    obtain ⟨value, -, hfile⟩ := Option.map_eq_some_iff.mp horigin'
    exact absurd hfile Origin.noConfusion

/-- What the base file imports for `A` is told as an import, and the imported file's own line gives
the value. -/
theorem origin_layeredRequest :
    layeredRequest.schema = none ∧
      ∃ result, layeredRequest.resolve layeredTree (.ofList [("A", "live")]) = .ok result ∧
        result.origins.get? "A" = some (.file ⟨"./.env.x"⟩ .imported) ∧
        ∃ text value, layeredTree.ownValue? ⟨"./.env.x"⟩ "A" = some text ∧
          layeredRequest.Converts "A" text value ∧ result.values.get? "A" = some value := by
  refine ⟨rfl, ?_⟩
  have horigin : (layeredRequest.resolve layeredTree (.ofList [("A", "live")])).toOption.bind
      (·.origins.get? "A") = some (.file ⟨"./.env.x"⟩ .imported) := by decide +kernel
  cases hresult : layeredRequest.resolve layeredTree (.ofList [("A", "live")]) with
  | error e => simp [hresult, Except.toOption] at horigin
  | ok result =>
    rw [hresult] at horigin
    obtain ⟨-, -, -, text, value, -, -, -, hown, hconverts, hvalue, -⟩ :=
      file_origin_sound rfl hresult horigin
    exact ⟨result, rfl, horigin, text, value, hown, hconverts, hvalue⟩

end Request

end LayeredEnv
