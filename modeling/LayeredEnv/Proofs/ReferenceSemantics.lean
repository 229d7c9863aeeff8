import LayeredEnv.Proofs.ModeChase
import LayeredEnv.Proofs.Stages

/-!
# The reference semantics of a resolution

What a resolution without a schema binds a key to can be told without its stages.  The layers are
those of the base file and of the modes chased, as far as they are there.  Within a layer the line
that comes last wins, and among layers the first one with a line for the key.  A key that no layer
has may have its text from the live environment; the text goes through the conversion of the key
once; and a key without any text has its default as it is.

Main statement: `Request.resolve_meets_reference`.
-/

namespace LayeredEnv

/-- A cascade without a fault consists of the scans of the fixed layers and those of a chase. -/
theorem Site.exists_chase_of_cascade {s : Site} {precedence : ModePrecedence} {live : Option String}
    {c : Cascade} (h : s.cascade precedence live = .ok c) :
    ∃ fixed chased reached, s.Scanned s.fixedLayers fixed ∧
      s.chaseFrom (precedence.seed (live.map (⟨·, .environment⟩))
        (firstDeclaredMode? s.modeKey fixed)) = .ok (chased, reached) ∧
      c.scans = fixed ++ chased ∧
      c.mode = precedence.report (live.map (⟨·, .environment⟩)) reached := by
  unfold cascade at h
  split at h
  · simp at h
  · next fixed hfixed =>
    simp only at h
    split at h
    · simp at h
    · next chased reached hchase =>
      obtain rfl := Except.ok.inj h
      exact ⟨fixed, chased, reached, scanAll_eq_ok_iff.mp hfixed, hchase, rfl, rfl⟩

/-- What a scan gives to a key is the value that the key has in the scan. -/
theorem Scan.value_binding? (scan : Scan) (key : String) :
    (scan.binding? key).map Binding.value = scan.contents.lastValue? key := by
  rw [binding?, Option.map_map, Splice.lastValue?_eq_map]
  rfl

namespace Request

variable {r : Request} {tree : FileTree} {env : LiveEnvironment} {key : String}

/-- The mode that the chase starts from: that of the live environment or that of the fixed layers,
whichever goes before. -/
def firstMode? (r : Request) (tree : FileTree) (env : LiveEnvironment) : Option String :=
  let declared := (r.site tree).fixedLayers.findSome? (r.site tree).ownMode?
  match r.precedence with
  | .environment => (r.liveMode? env).or declared
  | .files => declared.or (r.liveMode? env)

/-- The text of a key: what the first scan that has the key assigns to it last, or else what the
live environment has, if that one fills in. -/
def text? (r : Request) (env : LiveEnvironment) (scans : List Scan) (key : String) :
    Option String :=
  (scans.findSome? fun scan => scan.contents.lastValue? key).or
    (if r.useEnvironment then env.get? key else none)

/-- The first mode is the name of what the live environment and the own lines declare. -/
theorem name_seed_declaration? (r : Request) (tree : FileTree) (env : LiveEnvironment) :
    (r.precedence.seed ((r.liveMode? env).map (⟨·, .environment⟩))
      ((r.site tree).fixedLayers.findSome? (r.site tree).declaration?)).map ActiveMode.name =
      r.firstMode? tree env := by
  have hdeclared := Site.name_findSome?_declaration? (r.site tree) (r.site tree).fixedLayers
  unfold firstMode?
  cases r.precedence <;>
    simp [ModePrecedence.seed, Option.map_or, hdeclared, Function.comp_def]

/-- The seed of the chase is named by the first mode. -/
theorem name_seed {fixed : List Scan}
    (h : (r.site tree).Scanned (r.site tree).fixedLayers fixed) :
    (r.precedence.seed ((r.liveMode? env).map (⟨·, .environment⟩))
      (firstDeclaredMode? (r.site tree).modeKey fixed)).map ActiveMode.name =
      r.firstMode? tree env := by
  rw [Site.firstDeclaredMode?_eq_findSome? h, name_seed_declaration?]

/-- Before the conversions a key has its text. -/
theorem value_rawBindings (hkey : key ≠ r.modeKey) (env : LiveEnvironment) (c : Cascade) :
    ((r.rawBindings env c).get? key).map Binding.value = r.text? env c.scans key := by
  rw [get?_rawBindings hkey, Option.map_or, List.map_findSome?, Option.map_map, text?]
  have hscan : (fun scan : Scan => scan.contents.lastValue? key) =
      Option.map Binding.value ∘ fun scan => scan.binding? key :=
    funext fun scan => (scan.value_binding? key).symm
  rw [hscan]
  congr 1
  exact Option.map_id' ..

/-- A resolution that succeeds completes a cascade. -/
theorem exists_cascade_of_resolve {result : Resolution} (h : r.resolve tree env = .ok result) :
    ∃ c, r.cascade tree env = .ok c ∧ r.complete env c = .ok result := by
  unfold resolve at h
  cases hcascade : r.cascade tree env with
  | error e => simp [hcascade, bind, Except.bind] at h
  | ok c => exact ⟨c, rfl, by simpa [hcascade, bind, Except.bind] using h⟩

/-- The value in the first scan that has a key is the one that comes last if the scans are put one
after the other in the opposite order. -/
theorem findSome?_lastValue?_eq_concat (scans : List Scan) (key : String) :
    (scans.findSome? fun scan => scan.contents.lastValue? key) =
      (Splice.concat (scans.map Scan.contents).reverse).lastValue? key := by
  rw [Splice.lastValue?_eq_map, Splice.lastAssignment?_concat, List.reverse_reverse,
    List.findSome?_map, List.map_findSome?]
  rfl

/-- Without a schema, a resolution that succeeds binds every key but the mode key to what the
reference semantics says: its text converted, or its default if it has no text, and nothing at all
if it has no default either. -/
theorem resolve_meets_reference {result : Resolution} (hschema : r.schema = none)
    (h : r.resolve tree env = .ok result) :
    ∃ modes scans, (r.site tree).Chased (r.firstMode? tree env) modes ∧ modes.Nodup ∧
      (r.site tree).Scanned
        ((r.site tree).fixedLayers ++ modes.flatMap (r.site tree).modeLayers) scans ∧
      result.layers = scans.flatMap Scan.layers ∧
      ∀ key, key ≠ r.modeKey →
        (∀ text, r.text? env scans key = some text →
          ∃ value, r.Converts key text value ∧ result.values.get? key = some value) ∧
        (r.text? env scans key = none → result.values.get? key = r.defaults.get? key) ∧
        (scans.findSome? fun scan => scan.contents.lastValue? key) =
          (Splice.concat (scans.map Scan.contents).reverse).lastValue? key := by
  obtain ⟨c, hcascade, hcomplete⟩ := exists_cascade_of_resolve h
  obtain ⟨fixed, chased, reached, hfixed, hchase, hscans, -⟩ :=
    Site.exists_chase_of_cascade hcascade
  obtain ⟨modes, hmodes, hnodup, hchased, -⟩ := Site.exists_chased_of_chaseFrom hchase
  obtain ⟨hlayers, -, hkeys⟩ := get?_of_complete hschema hcomplete
  rw [name_seed hfixed] at hmodes
  have hscanned := hfixed.append hchased
  rw [← hscans] at hscanned
  refine ⟨modes, c.scans, hmodes, hnodup, hscanned, hlayers, fun key hkey => ?_⟩
  have htext := value_rawBindings hkey env c
  have hvalue : result.values.get? key = (result.bindings.get? key).map Binding.value :=
    KeyMap.get?_map ..
  refine ⟨?_, ?_, findSome?_lastValue?_eq_concat _ key⟩
  · intro text h
    rcases hkeys key with ⟨b, value, hraw, hconverts, hbound⟩ | ⟨hraw, -⟩
    · rw [hraw, h] at htext
      obtain rfl : b.value = text := Option.some.inj htext
      exact ⟨value, hconverts, by rw [hvalue, hbound]; rfl⟩
    · rw [hraw, h] at htext
      simp at htext
  · intro h
    rcases hkeys key with ⟨b, value, hraw, -, -⟩ | ⟨-, hdefault⟩
    · rw [hraw, h] at htext
      simp at htext
    · rw [hvalue, hdefault, Option.map_map]
      exact Option.map_id' ..

/-- The base file imports another value of `A` after its own one, and redirects to a mode with a
third one. -/
def layeredTree : FileTree where
  nodes := [
    (["w", ".env"], .file (Utf8.encode "A=own\nimport x\nMODE=dev") false),
    (["w", ".env.x"], .file (Utf8.encode "A=imported") false),
    (["w", ".env.dev"], .file (Utf8.encode "A=mode\nB=mode") false)]
  workingDirectory := ["w"]

/-- The value of `A` is marked by its conversion. -/
def layeredRequest : Request where
  conversions := KeyMap.empty.insert "A" fun text => .ok (.string (text ++ "!"))

/-- The line that comes last in the base file wins, before the file of the mode, and is converted
once. -/
theorem resolve_layeredRequest :
    layeredRequest.schema = none ∧
      ∃ result, layeredRequest.resolve layeredTree (.ofList [("A", "live")]) = .ok result ∧
        result.values.get? "A" = some (.string "imported!") := by
  refine ⟨rfl, ?_⟩
  have hsome : (layeredRequest.resolve layeredTree (.ofList [("A", "live")])).toOption.isSome := by
    decide +kernel
  cases hresult : layeredRequest.resolve layeredTree (.ofList [("A", "live")]) with
  | error e => simp [hresult, Except.toOption] at hsome
  | ok result =>
    refine ⟨result, rfl, ?_⟩
    obtain ⟨modes, scans, -, -, hscans, -, hkeys⟩ := resolve_meets_reference rfl hresult
    have hpath : (Layer.base (layeredRequest.site layeredTree).directory
        (layeredRequest.site layeredTree).scheme).path = ⟨"./.env"⟩ := by decide +kernel
    have hbase : layeredTree.isFile ⟨"./.env"⟩ = true := by decide +kernel
    have himported : (((layeredRequest.site layeredTree).splice ⟨"./.env"⟩).toOption.bind
        (·.lastValue? "A")) = some "imported" := by decide +kernel
    obtain ⟨contents, rest, hcontents, -, rfl⟩ := (Site.scanned_cons_of_isFile hbase).mp hscans
    have hlast : contents.lastValue? "A" = some "imported" := by
      rw [hpath] at hcontents
      rw [hcontents] at himported
      exact himported
    have htext : ∀ layer, layeredRequest.text? (.ofList [("A", "live")])
        (⟨layer, contents⟩ :: rest) "A" = some "imported" := by
      intro layer
      rw [text?, List.findSome?_cons, hlast]
      rfl
    obtain ⟨value, hconverts, hvalue⟩ := (hkeys "A" (by decide)).1 _ (htext _)
    have hconversion : layeredRequest.conversions.get? "A" =
        some fun text => .ok (.string (text ++ "!")) := rfl
    cases hconverts with
    | plain hnone => simp [hconversion] at hnone
    | converted hconvert himage =>
      obtain rfl := Option.some.inj (hconversion.symm.trans hconvert)
      obtain rfl := Except.ok.inj himage
      exact hvalue

end Request

end LayeredEnv
