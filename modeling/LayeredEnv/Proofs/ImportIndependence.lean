import LayeredEnv.Proofs.Provenance

/-!
# Imports have no say in the mode

Which layers are read and which mode is reported hangs on the own text of the layers only.  Two
trees that show the same own text in the layers of a cascade (`FileTree.SameText`) lead to the same
mode, with the same origin, and to the same layers, whatever the layers import in one of them or in
the other.

A cascade depends on own text through the declarations of its layers.  Those agree in the two trees
(`Site.declaration?_congr`), so they lead the same way in both (`Site.Reaches.congr`), and they lead
one way only.

Main statement: `Request.mode_independent_of_imports`.
-/

namespace LayeredEnv

namespace FileTree

/-- The text of the file that a path leads to. -/
def text? (t : FileTree) (p : Path) : Option (List Char) :=
  match t.read p with
  | .ok bytes => some (Utf8.lossyText bytes)
  | .error _ => none

/-- The path leads to a file in both trees or in neither, and in both to the same text. -/
structure SameText (t t' : FileTree) (p : Path) : Prop where
  isFile : t.isFile p = t'.isFile p
  text : t.isFile p = true → t.text? p = t'.text? p

variable {t t' : FileTree} {p : Path}

/-- What a file assigns on its own is told by its text. -/
theorem ownValue?_eq_bind (t : FileTree) (p : Path) (key : String) :
    t.ownValue? p key = (t.text? p).bind fun text =>
      ((EnvFile.directives text).filterMap (Directive.valueFor? key)).getLast? := by
  unfold ownValue? text?
  cases t.read p with
  | error e => rfl
  | ok bytes => rfl

end FileTree

namespace Site

variable {s : Site} {tree' : FileTree} {layer : Layer} {layers : List Layer} {scans : List Scan}
  {modes : List String}

/-! ### Sites with other trees -/

/-- Layers with the same own text declare the same mode. -/
theorem declaration?_congr (h : s.tree.SameText tree' layer.path) :
    s.declaration? layer = { s with tree := tree' }.declaration? layer := by
  have hown : s.ownMode? layer = { s with tree := tree' }.ownMode? layer := by
    unfold ownMode?
    rw [← h.isFile]
    cases hfile : s.tree.isFile layer.path with
    | false => rfl
    | true =>
      simp only [if_true, FileTree.ownValue?_eq_bind, h.text hfile]
  unfold declaration?
  rw [hown]

/-- The first declaration among layers with the same own text is the same. -/
theorem findSome?_declaration?_congr (h : ∀ layer ∈ layers, s.tree.SameText tree' layer.path) :
    layers.findSome? s.declaration? = layers.findSome? { s with tree := tree' }.declaration? := by
  induction layers with
  | nil => rfl
  | cons layer rest ih =>
    have hrest := ih fun other hother => h other (List.mem_cons_of_mem layer hother)
    rw [List.findSome?_cons, List.findSome?_cons, hrest,
      declaration?_congr (h layer (List.mem_cons_self ..))]

/-- A mode whose layers have the same own text is redirected to the same mode. -/
theorem redirection?_congr {name : String}
    (h : ∀ layer ∈ s.modeLayers name, s.tree.SameText tree' layer.path) :
    s.redirection? name = { s with tree := tree' }.redirection? name :=
  findSome?_declaration?_congr h

/-- A mode whose layers have the same own text stays stable. -/
theorem Stable.congr {name : String} (hstable : s.Stable name)
    (h : ∀ layer ∈ s.modeLayers name, s.tree.SameText tree' layer.path) :
    { s with tree := tree' }.Stable name := by
  intro next hnext
  refine hstable next ?_
  rw [redirect?, ← name_findSome?_declaration?] at hnext ⊢
  rwa [findSome?_declaration?_congr h]

/-- Declarations lead the same way if the layers on the way have the same own text. -/
theorem Reaches.congr {first last : ActiveMode} (hreaches : s.Reaches first modes last)
    (h : ∀ layer ∈ modes.flatMap s.modeLayers, s.tree.SameText tree' layer.path) :
    { s with tree := tree' }.Reaches first modes last := by
  induction hreaches with
  | stay hstable => exact .stay (hstable.congr fun layer hlayer => h layer (by simpa using hlayer))
  | @redirect mode next last modes hnext hne _ ih =>
    rw [List.flatMap_cons, List.forall_mem_append] at h
    exact .redirect ((redirection?_congr h.1).symm.trans hnext) hne (ih h.2)

theorem ReachesFrom.congr {seed reached : Option ActiveMode}
    (hreaches : s.ReachesFrom seed modes reached)
    (h : ∀ layer ∈ modes.flatMap s.modeLayers, s.tree.SameText tree' layer.path) :
    { s with tree := tree' }.ReachesFrom seed modes reached := by
  cases hreaches with
  | nothing => exact .nothing
  | mode hreaches => exact .mode (hreaches.congr h)

/-! ### The layers that are read -/

/-- The layers that are read are those that are there. -/
theorem Scanned.map_layer (h : s.Scanned layers scans) :
    scans.map Scan.layer = layers.filter fun layer => s.tree.isFile layer.path := by
  unfold Scanned at h
  generalize layers.filter (fun layer => s.tree.isFile layer.path) = there at h ⊢
  induction h with
  | nil => rfl
  | cons hscan _ ih => rw [List.map_cons, hscan.1, ih]

/-- Layers that are there in both trees or in neither are the same to be read. -/
theorem filter_isFile_congr (h : ∀ layer ∈ layers, s.tree.SameText tree' layer.path) :
    layers.filter (fun layer => s.tree.isFile layer.path) =
      layers.filter fun layer => tree'.isFile layer.path :=
  List.filter_congr fun layer hlayer => (h layer hlayer).isFile

end Site

/-- Of the files read for a scan of a layer that is no import, that layer is the only one that is no
import. -/
theorem Scan.filter_layers {scan : Scan} (h : scan.layer.tier ≠ .imported) :
    scan.layers.filter (fun layer => layer.tier ≠ .imported) = [scan.layer] := by
  have hnone : (scan.contents.imported.map Layer.imported).filter
      (fun layer => layer.tier ≠ .imported) = [] := by
    rw [List.filter_eq_nil_iff]
    intro layer hlayer
    obtain ⟨path, -, rfl⟩ := List.mem_map.mp hlayer
    simp [Layer.imported]
  rw [layers, List.filter_cons_of_pos (by simpa using h), hnone]

/-- The files read by a cascade that are no imports are the scanned layers, in order. -/
theorem Cascade.filter_layers {c : Cascade} (h : ∀ scan ∈ c.scans, scan.layer.tier ≠ .imported) :
    c.layers.filter (fun layer => layer.tier ≠ .imported) = c.scans.map Scan.layer := by
  rw [layers, List.filter_flatMap, List.map_eq_flatMap]
  exact List.flatMap_congr fun scan hscan => scan.filter_layers (h scan hscan)

namespace Request

variable {r : Request} {tree tree' : FileTree} {env : LiveEnvironment} {c c' : Cascade}
  {modes : List String}

/-- If cascades over two trees succeed, and the layers of the first one are files in both trees or
in neither, with the same own text, then both have the same mode with the same origin and scan the
same layers, which are those of the files read that are no imports. -/
theorem mode_independent_of_imports (h : r.cascade tree env = .ok c)
    (h' : r.cascade tree' env = .ok c')
    (hmodes : (r.site tree).Chased (r.firstMode? tree env) modes)
    (hsame : ∀ layer ∈ (r.site tree).fixedLayers ++ modes.flatMap (r.site tree).modeLayers,
      tree.SameText tree' layer.path) :
    c.mode = c'.mode ∧ c.scans.map Scan.layer = c'.scans.map Scan.layer ∧
      c.layers.filter (fun layer => layer.tier ≠ .imported) =
        c'.layers.filter (fun layer => layer.tier ≠ .imported) := by
  obtain ⟨passed, reached, hreached, hscans, hmode⟩ := Site.exists_reachesFrom_of_cascade h
  obtain ⟨passed', reached', hreached', hscans', hmode'⟩ := Site.exists_reachesFrom_of_cascade h'
  obtain ⟨hfixed, hchased⟩ := List.forall_mem_append.mp hsame
  -- both chases start from the same seed and go the same way
  have hseed := Site.findSome?_declaration?_congr (s := r.site tree) hfixed
  have hpassed : passed = modes := by
    have hnamed := hreached.chased
    rw [name_seed_declaration?] at hnamed
    exact hnamed.unique hmodes
  subst hpassed
  have hagree := hreached.congr hchased
  rw [hseed] at hagree
  obtain ⟨rfl, rfl⟩ := hagree.unique hreached'
  have hlayers : c.scans.map Scan.layer = c'.scans.map Scan.layer := by
    rw [hscans.map_layer, hscans'.map_layer]
    exact Site.filter_isFile_congr (s := r.site tree) hsame
  refine ⟨hmode.trans hmode'.symm, hlayers, ?_⟩
  rw [Cascade.filter_layers fun scan hscan => (Site.scan_of_mem_cascade h hscan).1,
    Cascade.filter_layers fun scan hscan => (Site.scan_of_mem_cascade h' hscan).1, hlayers]

/-- The tree `layeredTree` with another file in place of the imported one, which assigns the mode
and imports a further file that does so too. -/
def modeImportingTree : FileTree where
  nodes := [
    (["w", ".env"], .file (Utf8.encode "A=own\nimport x\nMODE=dev") false),
    (["w", ".env.x"], .file (Utf8.encode "MODE=prod\nimport y") false),
    (["w", ".env.y"], .file (Utf8.encode "MODE=test") false),
    (["w", ".env.dev"], .file (Utf8.encode "A=mode\nB=mode") false)]
  workingDirectory := ["w"]

/-- The imported assignments to the mode key change nothing: both trees have the mode of their base
file and the same layers. -/
theorem mode_modeImportingTree :
    ∃ c c', layeredRequest.cascade layeredTree (.ofList []) = .ok c ∧
      layeredRequest.cascade modeImportingTree (.ofList []) = .ok c' ∧
      c.mode = some ⟨"dev", .file ⟨"./.env"⟩ .base⟩ ∧ c'.mode = c.mode ∧
      c'.scans.map Scan.layer = c.scans.map Scan.layer := by
  have hmode : (layeredRequest.cascade layeredTree (.ofList [])).toOption.bind Cascade.mode =
      some ⟨"dev", .file ⟨"./.env"⟩ .base⟩ := by decide +kernel
  have hsucceeds : (layeredRequest.cascade modeImportingTree (.ofList [])).toOption.isSome := by
    decide +kernel
  have hfirst : layeredRequest.firstMode? layeredTree (.ofList []) = some "dev" := by
    decide +kernel
  have hredirect : (layeredRequest.site layeredTree).redirect? "dev" = none := by decide +kernel
  have hchased : (layeredRequest.site layeredTree).Chased (some "dev") ["dev"] := by
    refine .modes (.refl "dev") fun next hnext => ?_
    rw [hredirect] at hnext
    exact absurd hnext.symm (Option.some_ne_none next)
  have hsame : ∀ layer ∈ (layeredRequest.site layeredTree).fixedLayers ++
      ["dev"].flatMap (layeredRequest.site layeredTree).modeLayers,
      layeredTree.isFile layer.path = modeImportingTree.isFile layer.path ∧
        layeredTree.text? layer.path = modeImportingTree.text? layer.path := by decide +kernel
  cases hc : layeredRequest.cascade layeredTree (.ofList []) with
  | error e => simp [hc, Except.toOption] at hmode
  | ok c =>
    cases hc' : layeredRequest.cascade modeImportingTree (.ofList []) with
    | error e => simp [hc', Except.toOption] at hsucceeds
    | ok c' =>
      rw [hc] at hmode
      obtain ⟨hmodes, hlayers, -⟩ := mode_independent_of_imports hc hc' (hfirst.symm ▸ hchased)
        fun layer hlayer => ⟨(hsame layer hlayer).1, fun _ => (hsame layer hlayer).2⟩
      exact ⟨c, c', rfl, rfl, hmode, hmodes.symm, hlayers.symm⟩

end Request

end LayeredEnv
