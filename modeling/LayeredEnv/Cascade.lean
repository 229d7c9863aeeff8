import LayeredEnv.Splice

/-!
# The cascade of env files

The cascade starts with the base file and its machine-local neighbour and goes on with the files of
the active mode.  A mode's files may assign another mode; the cascade then goes on with that one,
until a mode redirects no further.  Coming back to an earlier mode is a cycle.

A redirect is a value that some file of the tree assigns to the mode key, and there are finitely
many of these, so the chase ends.  `Site.cascade` lists the scanned files and tells the mode;
`Cascade.bindings` gives each key to the first file that has it.
-/

namespace LayeredEnv

/-- Where a value comes from. -/
inductive Origin
  /-- An env file, read as a layer or imported by one. -/
  | file (path : Path) (tier : Tier)
  /-- The live environment. -/
  | environment
  /-- The defaults of the request. -/
  | default
  /-- The schema, which made up the key. -/
  | schema
  deriving DecidableEq, Repr

/-- The words for an origin. -/
def Origin.message : Origin → String
  | file path tier => path.text ++ " (" ++ tier.word ++ ")"
  | environment => "environment"
  | default => "default"
  | schema => "schema"

/-- A value and where it comes from. -/
structure Binding (α : Type) where
  value : α
  origin : Origin
  deriving DecidableEq, Repr

/-- A mode and where it comes from. -/
structure ActiveMode where
  name : String
  origin : Origin
  deriving DecidableEq, Repr

/-- Whether a mode from the live environment goes before one that the files assign. -/
inductive ModePrecedence
  /-- The live mode starts the chase and is the one reported. -/
  | environment
  /-- The files' mode starts the chase, and the end of the chase is reported. -/
  | files
  deriving DecidableEq, Repr, Inhabited

/-- A layer that was there, with what was read from it. -/
structure Scan where
  layer : Layer
  contents : Splice
  deriving DecidableEq, Repr

namespace Scan

/-- The mode that the layer assigns; an empty mode is none. -/
def declaredMode? (modeKey : String) (scan : Scan) : Option ActiveMode :=
  ((scan.contents.lastValue? modeKey).filter fun name => name != "").map fun name =>
    ⟨name, .file scan.layer.path scan.layer.tier⟩

/-- The origin of an assignment of the layer: the layer itself or a file that it imports. -/
def originOf (scan : Scan) (e : Entry) : Origin :=
  .file e.source (if e.source.same scan.layer.path then scan.layer.tier else .imported)

/-- The files read for the layer: the layer and its imports. -/
def layers (scan : Scan) : List Layer :=
  scan.layer :: scan.contents.imported.map Layer.imported

/-- Gives the layer's keys, the mode key apart, to those that are not taken yet. -/
def mergeInto (modeKey : String) (taken : KeyMap (Binding String)) (scan : Scan) :
    KeyMap (Binding String) :=
  scan.contents.winners.entries.foldl
    (fun m p =>
      if p.1 = modeKey then m else m.insertIfNew p.1 ⟨p.2.value, scan.originOf p.2⟩)
    taken

end Scan

/-- The mode that the first of the layers with a mode assigns. -/
def firstDeclaredMode? (modeKey : String) (scans : List Scan) : Option ActiveMode :=
  scans.findSome? (Scan.declaredMode? modeKey)

namespace Site

/-- Reads a layer if it is there. -/
def scan (s : Site) (layer : Layer) : Except Fault (Option Scan) :=
  if s.tree.isFile layer.path then (s.splice layer.path).map fun contents => some ⟨layer, contents⟩
  else .ok none

/-- Reads those of the layers that are there, up to the first fault. -/
def scanAll (s : Site) : List Layer → Except Fault (List Scan)
  | [] => .ok []
  | layer :: rest =>
    match s.scan layer with
    | .error e => .error e
    | .ok first =>
      match scanAll s rest with
      | .error e => .error e
      | .ok others => .ok (first.toList ++ others)

/-- The layers without a mode. -/
def fixedLayers (s : Site) : List Layer :=
  [.base s.directory s.scheme, .localBase s.directory s.scheme]

/-- The layers of a mode. -/
def modeLayers (s : Site) (mode : String) : List Layer :=
  [.mode s.directory s.scheme mode, .localMode s.directory s.scheme mode]

theorem splice_of_scan {s : Site} {layer : Layer} {found : Scan}
    (h : s.scan layer = .ok (some found)) :
    found.layer = layer ∧ s.splice layer.path = .ok found.contents := by
  unfold scan at h
  split at h
  · cases hs : s.splice layer.path with
    | error e => simp [hs, Except.map] at h
    | ok contents =>
      simp only [hs, Except.map, Except.ok.injEq, Option.some.injEq] at h
      subst h
      exact ⟨rfl, rfl⟩
  · simp at h

theorem splice_of_mem_scanAll {s : Site} {layers : List Layer} {scans : List Scan}
    (h : s.scanAll layers = .ok scans) {found : Scan} (hf : found ∈ scans) :
    found.layer ∈ layers ∧ s.splice found.layer.path = .ok found.contents := by
  induction layers generalizing scans with
  | nil =>
    obtain rfl := Except.ok.inj h
    simp at hf
  | cons layer rest ih =>
    rw [scanAll] at h
    split at h
    · simp at h
    · next first hfirst =>
      split at h
      · simp at h
      · next others hothers =>
        obtain rfl := Except.ok.inj h
        rcases List.mem_append.1 hf with hf | hf
        · obtain rfl := Option.mem_toList.1 hf
          obtain ⟨hl, hs⟩ := splice_of_scan hfirst
          exact ⟨hl ▸ List.mem_cons_self .., hl ▸ hs⟩
        · obtain ⟨hl, hs⟩ := ih hothers hf
          exact ⟨List.mem_cons_of_mem _ hl, hs⟩

/-- A mode that scanned layers declare is a value that some file assigns to the mode key. -/
theorem firstDeclaredMode?_mem_assigned {s : Site} {layers : List Layer} {scans : List Scan}
    (h : s.scanAll layers = .ok scans) {next : ActiveMode}
    (hnext : firstDeclaredMode? s.modeKey scans = some next) :
    next.name ∈ s.assigned s.modeKey := by
  obtain ⟨found, hf, hd⟩ := List.exists_of_findSome?_eq_some hnext
  obtain ⟨name, hname, rfl⟩ := Option.map_eq_some_iff.1 hd
  exact lastValue_mem_assigned (splice_of_mem_scanAll h hf).2
    (Option.filter_eq_some_iff.1 hname).1

/-- Reads the files of a mode and of the modes that it redirects to, in turn, after those in
`visited`; the last component is the mode that redirects no further. -/
def chase (s : Site) (visited : List String) (mode : ActiveMode) :
    Except Fault (List Scan × ActiveMode) :=
  match _hscans : s.scanAll (s.modeLayers mode.name) with
  | .error e => .error e
  | .ok scans =>
    match _hnext : firstDeclaredMode? s.modeKey scans with
    | none => .ok (scans, mode)
    | some next =>
      if next.name = mode.name then .ok (scans, mode)
      else if _hnew : next.name ∈ visited then .error (.modeCycle (visited ++ [next.name]))
      else
        match chase s (visited ++ [next.name]) next with
        | .error e => .error e
        | .ok (further, last) => .ok (scans ++ further, last)
termination_by unvisited (s.assigned s.modeKey) visited
decreasing_by exact unvisited_append_lt (firstDeclaredMode?_mem_assigned _hscans _hnext) _hnew

/-- Reads the files of the modes that the chase from a mode passes; nothing without a mode. -/
def chaseFrom (s : Site) : Option ActiveMode → Except Fault (List Scan × Option ActiveMode)
  | none => .ok ([], none)
  | some mode =>
    match s.chase [mode.name] mode with
    | .error e => .error e
    | .ok (scans, last) => .ok (scans, some last)

end Site

/-- The files read, in order, and the mode. -/
structure Cascade where
  scans : List Scan
  mode : Option ActiveMode
  deriving DecidableEq, Repr

namespace ModePrecedence

/-- The mode that the chase starts from. -/
def seed : ModePrecedence → (live declared : Option ActiveMode) → Option ActiveMode
  | environment, live, declared => live.or declared
  | files, live, declared => declared.or live

/-- The mode that is reported, from the live one and the end of the chase. -/
def report : ModePrecedence → (live last : Option ActiveMode) → Option ActiveMode
  | environment, live, last => live.or last
  | files, _, last => last

end ModePrecedence

/-- Reads the layers of a site, where `live` is the mode of the live environment. -/
def Site.cascade (s : Site) (precedence : ModePrecedence) (live : Option String) :
    Except Fault Cascade :=
  match s.scanAll s.fixedLayers with
  | .error e => .error e
  | .ok fixed =>
    let live := live.map fun name => ⟨name, .environment⟩
    match s.chaseFrom (precedence.seed live (firstDeclaredMode? s.modeKey fixed)) with
    | .error e => .error e
    | .ok (chased, last) => .ok ⟨fixed ++ chased, precedence.report live last⟩

namespace Cascade

/-- What each key but the mode key is bound to: the first layer that has the key wins. -/
def bindings (modeKey : String) (c : Cascade) : KeyMap (Binding String) :=
  c.scans.foldl (Scan.mergeInto modeKey) .empty

/-- Every file that was read, in order. -/
def layers (c : Cascade) : List Layer :=
  c.scans.flatMap Scan.layers

end Cascade

end LayeredEnv
