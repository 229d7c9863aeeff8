import LayeredEnv.Proofs.Provenance
import LayeredEnv.Proofs.SideTables

/-!
# What the origins of a resolution tell

Every value has an origin and every origin has a value, whatever the schema makes of the values.
A file that is told as an origin is one of the layers; a default is told where nothing else gives a
value to the key (`Request.Unset`); the schema is told for the keys that it was not handed
(`Request.handed`), and every other key goes on with the origin it was handed with.

Main statement: `Request.origins_complete`.
-/

namespace LayeredEnv

/-! ### The files behind a scan -/

namespace Scan

variable {s : Site} {found : Scan} {layer : Layer} {key : String} {e : Entry}

/-- The layers of a scan are its own layer and the files imported for it. -/
theorem mem_layers_iff :
    layer ∈ found.layers ↔
      layer = found.layer ∨ ∃ p ∈ found.contents.imported, layer = .imported p := by
  simp [layers, eq_comm]

/-- The origin of the assignment that counts in a scan is one of the scan's layers. -/
theorem mem_layers_of_originOf {path : Path} {tier : Tier} (htier : found.layer.tier ≠ .imported)
    (hsplice : s.splice found.layer.path = .ok found.contents)
    (he : found.contents.lastAssignment? key = some e)
    (horigin : found.originOf e = .file path tier) : (⟨path, tier⟩ : Layer) ∈ found.layers := by
  obtain ⟨d, tier', -, htold, -, hown, -⟩ := exists_wins_of_originOf htier hsplice he
  obtain ⟨rfl, rfl⟩ : e.source = path ∧ tier' = tier := by simpa using htold.symm.trans horigin
  by_cases himported : tier' = .imported
  · subst himported
    have hmem := (Splice.mem_of_lastAssignment? he).1
    rcases Site.source_eq_or_mem_imported _ _ _ _ _ hsplice e hmem with hsource | hsource
    · -- the layer itself is told with the tier of the layer
      rw [originOf, if_pos (by rw [hsource, Path.same_refl])] at htold
      exact absurd (Origin.file.inj htold).2 htier
    · exact mem_layers_iff.mpr (.inr ⟨e.source, hsource, rfl⟩)
  · exact mem_layers_iff.mpr (.inl (hown himported).symm)

/-- A scan without an assignment to a key, the mode key apart, is one of files whose own lines have
none. -/
theorem lastAssignment?_eq_none_iff (htier : found.layer.tier ≠ .imported)
    (hsplice : s.splice found.layer.path = .ok found.contents) (hkey : key ≠ s.modeKey) :
    found.contents.lastAssignment? key = none ↔
      ∀ layer ∈ found.layers, s.tree.ownValue? layer.path key = none := by
  constructor
  · intro hnone layer hlayer
    refine Site.ownValue?_eq_none_of_imported _ _ _ _ _ hsplice key hkey hnone _ ?_
    rcases mem_layers_iff.mp hlayer with rfl | ⟨p, hp, rfl⟩
    · exact .inl rfl
    · exact .inr hp
  · intro hnone
    by_contra hsome
    obtain ⟨e, he⟩ := Option.ne_none_iff_exists'.mp hsome
    have hown := Site.ownValue?_of_lastAssignment? _ _ _ _ _ hsplice key e he
    obtain ⟨tier, htold⟩ : ∃ tier, found.originOf e = .file e.source tier := ⟨_, rfl⟩
    rw [hnone _ (mem_layers_of_originOf htier hsplice he htold)] at hown
    simp at hown

end Scan

namespace Request

variable {r : Request} {tree : FileTree} {env : LiveEnvironment} {c : Cascade} {key : String}
  {result : Resolution}

/-! ### Before the conversions -/

/-- Only a default can give a value to the key: the mode key has no mode, and any other key is
neither in the own lines of a layer nor in the live environment, if that one fills in. -/
structure Unset (r : Request) (tree : FileTree) (env : LiveEnvironment) (layers : List Layer)
    (mode : Option String) (key : String) : Prop where
  mode : key = r.modeKey → mode = none
  files : key ≠ r.modeKey → ∀ layer ∈ layers, tree.ownValue? layer.path key = none
  environment : key ≠ r.modeKey → r.useEnvironment = true → env.get? key = none

/-- No scan gives anything to a key, the mode key apart, exactly if no layer has the key in its own
lines. -/
theorem findSome?_binding?_eq_none_iff (h : r.cascade tree env = .ok c) (hkey : key ≠ r.modeKey) :
    (c.scans.findSome? fun scan => scan.binding? key) = none ↔
      ∀ layer ∈ c.layers, tree.ownValue? layer.path key = none := by
  have hscan : ∀ scan ∈ c.scans, scan.binding? key = none ↔
      ∀ layer ∈ scan.layers, tree.ownValue? layer.path key = none := by
    intro scan hmem
    obtain ⟨htier, hsplice⟩ := Site.scan_of_mem_cascade h hmem
    rw [Scan.binding?, Option.map_eq_none_iff]
    exact Scan.lastAssignment?_eq_none_iff htier hsplice hkey
  rw [List.findSome?_eq_none_iff, Cascade.layers]
  constructor
  · intro hnone layer hlayer
    obtain ⟨scan, hmem, hlayer⟩ := List.mem_flatMap.mp hlayer
    exact (hscan scan hmem).mp (hnone scan hmem) layer hlayer
  · intro hnone scan hmem
    exact (hscan scan hmem).mpr fun layer hlayer =>
      hnone layer (List.mem_flatMap.mpr ⟨scan, hmem, hlayer⟩)

/-- Before the conversions the keys without a value are those that only a default can give one. -/
theorem get?_rawBindings_eq_none_iff (h : r.cascade tree env = .ok c) :
    (r.rawBindings env c).get? key = none ↔
      r.Unset tree env c.layers (c.mode.map ActiveMode.name) key := by
  by_cases hkey : key = r.modeKey
  · subst hkey
    rw [get?_rawBindings_modeKey, Option.map_eq_none_iff]
    constructor
    · intro hmode
      exact ⟨fun _ => Option.map_eq_none_iff.mpr hmode, fun hne => absurd rfl hne,
        fun hne => absurd rfl hne⟩
    · intro hunset
      exact Option.map_eq_none_iff.mp (hunset.mode rfl)
  · have henv : (if r.useEnvironment then env.get? key else none) = none ↔
        (r.useEnvironment = true → env.get? key = none) := by
      cases r.useEnvironment <;> simp
    rw [get?_rawBindings hkey, Option.or_eq_none_iff, Option.map_eq_none_iff,
      findSome?_binding?_eq_none_iff h hkey, henv]
    constructor
    · rintro ⟨hfiles, hlive⟩
      exact ⟨fun heq => absurd heq hkey, fun _ => hfiles, fun _ => hlive⟩
    · intro hunset
      exact ⟨hunset.files hkey, hunset.environment hkey⟩

/-- Before the conversions a value comes from the live environment or from one of the layers. -/
theorem origin_of_rawBindings {b : Binding String} (h : r.cascade tree env = .ok c)
    (hb : (r.rawBindings env c).get? key = some b) :
    b.origin = .environment ∨
      ∃ path tier, b.origin = .file path tier ∧ (⟨path, tier⟩ : Layer) ∈ c.layers := by
  have hkind : b.origin = .environment ∨ ∃ path tier, b.origin = .file path tier := by
    by_cases hkey : key = r.modeKey
    · subst hkey
      rw [get?_rawBindings_modeKey] at hb
      obtain ⟨mode, hmode, rfl⟩ := Option.map_eq_some_iff.mp hb
      rcases origin_of_mode h hmode with ⟨-, henv⟩ | ⟨-, layer, -, hfile⟩
      · exact .inl henv
      · exact .inr ⟨layer.path, layer.tier, hfile⟩
    · rw [get?_rawBindings hkey] at hb
      rcases Option.or_eq_some_iff.mp hb with hscan | ⟨-, henv⟩
      · obtain ⟨scan, -, hbinding⟩ := List.exists_of_findSome?_eq_some hscan
        obtain ⟨e, -, rfl⟩ := Option.map_eq_some_iff.mp hbinding
        exact .inr ⟨_, _, rfl⟩
      · obtain ⟨text, -, rfl⟩ := Option.map_eq_some_iff.mp henv
        exact .inl rfl
  rcases hkind with henv | ⟨path, tier, hfile⟩
  · exact .inl henv
  · obtain ⟨found, e, -, hfound, he, -, htold⟩ := exists_decides_of_rawBindings h hb hfile
    obtain ⟨htier, hsplice⟩ := Site.scan_of_mem_cascade h hfound
    have hlayer := Scan.mem_layers_of_originOf htier hsplice he htold
    exact .inr ⟨path, tier, hfile, List.mem_flatMap.mpr ⟨found, hfound, hlayer⟩⟩

/-! ### What the schema is handed -/

/-- The bindings that the schema is handed: those of the files, the mode and the live environment,
converted, with the defaults. -/
def handed (r : Request) (tree : FileTree) (env : LiveEnvironment) :
    Except Fault (KeyMap (Binding Json)) := do
  let c ← r.cascade tree env
  let converted ← r.convert (r.rawBindings env c)
  return r.fillDefaults converted

/-- Where the value of a key may come from if the schema is handed these bindings. -/
inductive ComesFrom (r : Request) (tree : FileTree) (env : LiveEnvironment) (c : Cascade)
    (handed : KeyMap (Binding Json)) (key : String) : Origin → Prop
  | environment : key ∈ handed.keys →
      ¬ r.Unset tree env c.layers (c.mode.map ActiveMode.name) key →
      ComesFrom r tree env c handed key .environment
  | file {path : Path} {tier : Tier} : key ∈ handed.keys →
      ¬ r.Unset tree env c.layers (c.mode.map ActiveMode.name) key →
      ⟨path, tier⟩ ∈ c.layers → ComesFrom r tree env c handed key (.file path tier)
  | default : key ∈ handed.keys →
      r.Unset tree env c.layers (c.mode.map ActiveMode.name) key → key ∈ r.defaults.keys →
      ComesFrom r tree env c handed key .default
  | schema : key ∉ handed.keys → key ∉ r.defaults.keys → ComesFrom r tree env c handed key .schema

/-- What the schema is handed for a key comes from the live environment or a layer, if anything
gives the key a value before the defaults, and otherwise from the defaults. -/
theorem comesFrom_of_handed {converted : KeyMap (Binding Json)} {b : Binding Json}
    (hcascade : r.cascade tree env = .ok c)
    (hconvert : r.convert (r.rawBindings env c) = .ok converted)
    (hb : (r.fillDefaults converted).get? key = some b) :
    r.ComesFrom tree env c (r.fillDefaults converted) key b.origin := by
  have hkey := KeyMap.mem_keys_iff.mpr ⟨b, hb⟩
  have hunset : (r.rawBindings env c).get? key = none ↔
      r.Unset tree env c.layers (c.mode.map ActiveMode.name) key :=
    get?_rawBindings_eq_none_iff hcascade
  rcases get?_fillDefaults_of_convert hconvert key with ⟨raw, value, hraw, -, hhanded⟩ |
    ⟨hraw, hhanded⟩
  · obtain rfl := Option.some.inj (hhanded.symm.trans hb)
    have hset : ¬ r.Unset tree env c.layers (c.mode.map ActiveMode.name) key := by
      rw [← hunset, hraw]
      exact Option.some_ne_none raw
    rcases origin_of_rawBindings hcascade hraw with henv | ⟨path, tier, hfile, hlayer⟩
    · exact henv ▸ .environment hkey hset
    · exact hfile ▸ .file hkey hset hlayer
  · obtain ⟨value, hvalue, rfl⟩ := Option.map_eq_some_iff.mp (hhanded.symm.trans hb)
    exact .default hkey (hunset.mp hraw) (KeyMap.mem_keys_iff.mpr ⟨value, hvalue⟩)

/-! ### After the schema -/

/-- The values after the schema are those that it makes of the values it is handed. -/
theorem map_value_of_applySchema {m final : KeyMap (Binding Json)} {schema : Schema}
    (hschema : r.schema = some schema) (h : r.applySchema m = .ok final) :
    schema (m.map Binding.value) = .ok (final.map Binding.value) := by
  unfold applySchema at h
  simp only [hschema] at h
  split at h
  · simp at h
  · next values hvalues =>
    obtain rfl := Except.ok.inj h
    have hsame : values = (values.mapWithKey fun key v =>
        (⟨v, ((m.get? key).map Binding.origin).getD .schema⟩ : Binding Json)).map Binding.value :=
      KeyMap.ext_get? fun key => by simp [Function.comp_def]
    rw [hvalues, ← hsame]

/-- After the schema a key has the origin that it was handed with, or else the schema's. -/
theorem origin_of_applySchema {m final : KeyMap (Binding Json)} {b : Binding Json}
    (h : r.applySchema m = .ok final) (hb : final.get? key = some b) :
    b.origin = ((m.get? key).map Binding.origin).getD .schema := by
  unfold applySchema at h
  split at h
  · obtain rfl := Except.ok.inj h
    rw [hb]
    rfl
  · split at h
    · simp at h
    · obtain rfl := Except.ok.inj h
      rw [KeyMap.get?_mapWithKey] at hb
      obtain ⟨value, -, rfl⟩ := Option.map_eq_some_iff.mp hb
      rfl

/-- What the schema leaves for a key comes from where it was handed from, and from the schema if the
key was not handed to it. -/
theorem comesFrom_of_applySchema {converted final : KeyMap (Binding Json)} {b : Binding Json}
    (hcascade : r.cascade tree env = .ok c)
    (hconvert : r.convert (r.rawBindings env c) = .ok converted)
    (happly : r.applySchema (r.fillDefaults converted) = .ok final)
    (hb : final.get? key = some b) :
    r.ComesFrom tree env c (r.fillDefaults converted) key b.origin := by
  rw [origin_of_applySchema happly hb]
  cases hhanded : (r.fillDefaults converted).get? key with
  | some b' => exact comesFrom_of_handed hcascade hconvert hhanded
  | none =>
    have habsent := KeyMap.get?_eq_none_iff.mp hhanded
    rw [get?_fillDefaults, Option.or_eq_none_iff, Option.map_eq_none_iff] at hhanded
    exact .schema habsent (KeyMap.get?_eq_none_iff.mp hhanded.2)

/-- The keys with an origin are those with a value. -/
theorem keys_origins (result : Resolution) : result.origins.keys = result.values.keys := by
  simp only [Resolution.origins, Resolution.values, KeyMap.map, KeyMap.keys_mapWithKey]

/-- A key that the schema is handed keeps its origin. -/
theorem get?_origins_of_handed {m : KeyMap (Binding Json)} {b : Binding Json}
    (happly : r.applySchema m = .ok result.bindings) (hkey : key ∈ result.values.keys)
    (hb : m.get? key = some b) : result.origins.get? key = some b.origin := by
  rw [← keys_origins] at hkey
  obtain ⟨origin, horigin⟩ := KeyMap.mem_keys_iff.mp hkey
  obtain ⟨b', hb', rfl⟩ := Option.map_eq_some_iff.mp ((KeyMap.get?_map ..).symm.trans horigin)
  have hsame := origin_of_applySchema happly hb'
  rw [hb] at hsame
  exact horigin.trans (congrArg some hsame)

/-- The keys with an origin are those with a value.  A file that is told as an origin is one of the
layers.  The defaults are told exactly for those of their keys that nothing else gives a value to.
The schema is told exactly for the keys that it is not handed, and any other key keeps the origin
that it is handed with. -/
theorem origins_complete (h : r.resolve tree env = .ok result) :
    result.origins.keys = result.values.keys ∧
      r.resolveTables tree env =
        .ok (⟨result.values, result.origins⟩, result.layers, result.mode) ∧
      (∀ key path tier, result.origins.get? key = some (.file path tier) →
        (⟨path, tier⟩ : Layer) ∈ result.layers) ∧
      (∀ key, result.origins.get? key = some .default ↔
        key ∈ result.values.keys ∧ key ∈ r.defaults.keys ∧
          r.Unset tree env result.layers result.mode key) ∧
      ∃ handed, r.handed tree env = .ok handed ∧
        (∀ schema, r.schema = some schema →
          schema (handed.map Binding.value) = .ok result.values) ∧
        (r.schema = none → result.bindings = handed) ∧
        (∀ key, result.origins.get? key = some .schema ↔
          key ∈ result.values.keys ∧ key ∉ handed.keys) ∧
        ∀ key b, key ∈ result.values.keys → handed.get? key = some b →
          result.origins.get? key = some b.origin := by
  obtain ⟨c, hcascade, hcomplete⟩ := exists_cascade_of_resolve h
  obtain ⟨converted, hconvert, happly, hlayers, hmode⟩ := exists_stages_of_complete hcomplete
  have htables : r.resolveTables tree env =
      .ok (⟨result.values, result.origins⟩, result.layers, result.mode) := by
    rw [resolveTables_eq, h]
    rfl
  have hhanded : r.handed tree env = .ok (r.fillDefaults converted) := by
    simp only [handed, hcascade, hconvert, bind, Except.bind, pure, Except.pure]
  have hcomes : ∀ key origin, result.origins.get? key = some origin →
      r.ComesFrom tree env c (r.fillDefaults converted) key origin := by
    intro key origin horigin
    obtain ⟨b, hb, rfl⟩ := Option.map_eq_some_iff.mp ((KeyMap.get?_map ..).symm.trans horigin)
    exact comesFrom_of_applySchema hcascade hconvert happly hb
  have hvalue : ∀ key, key ∈ result.values.keys ↔ ∃ origin, result.origins.get? key = some origin :=
    fun key => keys_origins result ▸ KeyMap.mem_keys_iff
  rw [hlayers, hmode]
  refine ⟨keys_origins result, hlayers ▸ hmode ▸ htables, fun key path tier hfile => ?_,
    fun key => ⟨fun hdefault => ?_, ?_⟩, r.fillDefaults converted, hhanded,
    fun schema hschema => map_value_of_applySchema hschema happly, fun hschema => ?_,
    fun key => ⟨fun hschema => ?_, ?_⟩, fun key b hkey hb => get?_origins_of_handed happly hkey hb⟩
  · cases hcomes key _ hfile with
    | file _ _ hlayer => exact hlayer
  · cases hcomes key _ hdefault with
    | default _ hunset hkey => exact ⟨(hvalue key).mpr ⟨_, hdefault⟩, hkey, hunset⟩
  · rintro ⟨hkey, hdefault, hunset⟩
    obtain ⟨origin, horigin⟩ := (hvalue key).mp hkey
    cases hcomes key origin horigin with
    | environment _ hset => exact absurd hunset hset
    | file _ hset _ => exact absurd hunset hset
    | default => exact horigin
    | schema _ habsent => exact absurd hdefault habsent
  · simpa only [applySchema, hschema, Except.ok.injEq, eq_comm] using happly
  · cases hcomes key _ hschema with
    | schema habsent _ => exact ⟨(hvalue key).mpr ⟨_, hschema⟩, habsent⟩
  · rintro ⟨hkey, habsent⟩
    obtain ⟨origin, horigin⟩ := (hvalue key).mp hkey
    cases hcomes key origin horigin with
    | environment hmem _ => exact absurd hmem habsent
    | file hmem _ _ => exact absurd hmem habsent
    | default hmem _ _ => exact absurd hmem habsent
    | schema => exact horigin

/-- The schema drops `B`, replaces the value of `A` and makes up `NEW`. -/
def revisingRequest : Request where
  schema := some fun values =>
    .ok (((values.filter fun key _ => key != "B").insert "A" .null).insert "NEW" (.bool true))
  defaults := KeyMap.empty.insert "D" (.string "default")

/-- `A` goes on with the file that was imported for it, `NEW` has the schema as its origin, and `D`
has its default since neither a layer nor the live environment has it. -/
theorem origins_revisingRequest :
    ∃ result, revisingRequest.resolve layeredTree (.ofList [("A", "live")]) = .ok result ∧
      result.origins.keys = result.values.keys ∧
      (⟨⟨"./.env.x"⟩, .imported⟩ : Layer) ∈ result.layers ∧
      revisingRequest.Unset layeredTree (.ofList [("A", "live")]) result.layers result.mode "D" ∧
      ∃ handed, revisingRequest.handed layeredTree (.ofList [("A", "live")]) = .ok handed ∧
        "NEW" ∉ handed.keys := by
  have horigins : (revisingRequest.resolve layeredTree (.ofList [("A", "live")])).toOption.map
      (fun result => (result.origins.get? "A", result.origins.get? "D",
        result.origins.get? "NEW")) =
      some (some (.file ⟨"./.env.x"⟩ .imported), some .default, some .schema) := by
    decide +kernel
  cases hresult : revisingRequest.resolve layeredTree (.ofList [("A", "live")]) with
  | error e => simp [hresult, Except.toOption] at horigins
  | ok result =>
    simp only [hresult, Except.toOption, Option.map_some, Option.some.injEq, Prod.mk.injEq]
      at horigins
    obtain ⟨hfile, hdefault, hschema⟩ := horigins
    obtain ⟨hkeys, -, hlayers, hdefaults, handed, hhanded, -, -, hschemas, -⟩ :=
      origins_complete hresult
    exact ⟨result, rfl, hkeys, hlayers "A" _ _ hfile, ((hdefaults "D").mp hdefault).2.2,
      handed, hhanded, ((hschemas "NEW").mp hschema).2⟩

end Request

end LayeredEnv
