import LayeredEnv.Proofs.ReadFootprint
import LayeredEnv.Proofs.ReferenceSemantics

/-!
# The layers of a resolution as a log of its readings

The layers that a resolution tells are put together from two sides: each scanned layer is listed
once, and each splice lists what it imports.  What they should come to can be told without either.
The files that a file imports, directly or by way of others, make an `ImportTree`, which is
determined by the file (`Site.ImportsTree.unique`), and imports are read where they stand, so that
the files of a layer are read in the order of its tree, each before what it imports.

Main statement: the layers are the files that were read, one for each reading and in that order, and
these are the layers that are there, from the base file to the last mode, each followed by the files
below it in its tree (`Request.layers_log_readings`).  Nothing is read besides, since what was not
accessed has no part in the outcome.
-/

namespace LayeredEnv

/-! ### Trees of imports -/

/-- A file with the files that it imports, each of them with its own imports. -/
inductive ImportTree
  | file (path : Path) (imports : List ImportTree)

namespace ImportTree

/-- The file that the tree is about. -/
def path : ImportTree → Path
  | file path _ => path

mutual

/-- The files of a tree, each before the ones that it imports. -/
def preorder : ImportTree → List Path
  | file path imports => path :: preorderAll imports

/-- The files of trees, one tree after the other. -/
def preorderAll : List ImportTree → List Path
  | [] => []
  | t :: rest => t.preorder ++ preorderAll rest

end

/-- The files below the one that the tree is about, each before the ones that it imports. -/
def descendants : ImportTree → List Path
  | file _ imports => preorderAll imports

theorem preorderAll_append (first others : List ImportTree) :
    preorderAll (first ++ others) = preorderAll first ++ preorderAll others := by
  induction first with
  | nil => rfl
  | cons t rest ih => rw [List.cons_append, preorderAll, preorderAll, ih, List.append_assoc]

/-- Lists of trees with the same paths are equal if their members are told apart by their paths. -/
theorem eq_of_map_path_eq {trees trees' : List ImportTree}
    (hone : ∀ t ∈ trees, ∀ t' ∈ trees', t.path = t'.path → t = t')
    (hpaths : trees.map path = trees'.map path) : trees = trees' := by
  induction trees generalizing trees' with
  | nil => exact (List.map_eq_nil_iff.mp hpaths.symm).symm
  | cons t rest ih =>
    obtain ⟨t', rest', rfl, hpath, hrest⟩ := List.map_eq_cons_iff.mp hpaths.symm
    have hfirst : t = t' :=
      hone t (List.mem_cons_self ..) t' (List.mem_cons_self ..) hpath.symm
    have hothers : rest = rest' := ih (fun u hu u' hu' => hone u (List.mem_cons_of_mem _ hu) u'
      (List.mem_cons_of_mem _ hu')) hrest.symm
    rw [hfirst, hothers]

end ImportTree

namespace Site

variable {s : Site} {path : Path} {layers : List Layer} {scans : List Scan}

/-- The files that a directive of the file `path` imports, in order. -/
def importsOf (s : Site) (path : Path) : Directive → List Path
  | .assignment _ _ => []
  | .importing target => s.importedBy path target

/-- The tree follows the imports: the imports of each file in it are those of the directives of the
file, in order. -/
inductive ImportsTree (s : Site) : ImportTree → Prop
  | file {path : Path} {place : Location} {bytes : List UInt8} {imports : List ImportTree} :
      s.tree.Holds path place bytes →
      imports.map ImportTree.path = (EnvFile.directivesOf bytes).flatMap (s.importsOf path) →
      (∀ t ∈ imports, ImportsTree s t) → ImportsTree s (.file path imports)

/-- Trees for the files at these paths, one each and in order. -/
def ImportsTrees (s : Site) (paths : List Path) (trees : List ImportTree) : Prop :=
  trees.map ImportTree.path = paths ∧ ∀ t ∈ trees, s.ImportsTree t

/-- A file has one tree only. -/
theorem ImportsTree.unique {t t' : ImportTree} (h : s.ImportsTree t) (h' : s.ImportsTree t')
    (hpath : t.path = t'.path) : t = t' := by
  induction h generalizing t' with
  | @file path place bytes imports hholds hpaths _ ih =>
  cases h' with
  | @file path' place' bytes' imports' hholds' hpaths' himports' =>
  obtain rfl : path = path' := hpath
  obtain rfl := Except.ok.inj (hholds.located.symm.trans hholds'.located)
  obtain rfl := Option.some.inj (hholds.readable.symm.trans hholds'.readable)
  have hsame : imports = imports' :=
    ImportTree.eq_of_map_path_eq (fun t ht t' ht' => ih t ht (himports' t' ht'))
      (hpaths.trans hpaths'.symm)
  rw [hsame]

/-! ### The trees that are read -/

/-- Members of a list that import files with trees do so together. -/
theorem exists_importsTrees_of_gather {α : Type} {f : α → Except Fault Splice}
    {paths : α → List Path} {l : List α} {r : Splice}
    (h : ∀ a ∈ l, ∀ part, f a = .ok part →
      ∃ trees, s.ImportsTrees (paths a) trees ∧ part.imported = ImportTree.preorderAll trees)
    (hr : Splice.gather f l = .ok r) :
    ∃ trees, s.ImportsTrees (l.flatMap paths) trees ∧
      r.imported = ImportTree.preorderAll trees := by
  induction l generalizing r with
  | nil =>
    obtain rfl := Except.ok.inj hr
    exact ⟨[], ⟨rfl, by simp⟩, rfl⟩
  | cons a rest ih =>
    obtain ⟨hfirst, hrest⟩ := List.forall_mem_cons.mp h
    obtain ⟨first, others, ha, hothers, rfl⟩ := Splice.exists_of_gather_cons hr
    obtain ⟨trees, ⟨hpaths, htrees⟩, himported⟩ := hfirst first ha
    obtain ⟨trees', ⟨hpaths', htrees'⟩, himported'⟩ := ih hrest hothers
    refine ⟨trees ++ trees', ⟨?_, List.forall_mem_append.mpr ⟨htrees, htrees'⟩⟩, ?_⟩
    · rw [List.map_append, hpaths, hpaths', List.flatMap_cons]
    · rw [ImportTree.preorderAll_append, ← himported, ← himported']
      rfl

/-- A splice imports the files of the trees of what its file imports. -/
theorem exists_importsTree_of_spliceFrom (s : Site) (stack : List Location) (isImport : Bool)
    (path : Path) : ∀ r, s.spliceFrom stack isImport path = .ok r →
      ∃ t contents, t.path = path ∧ s.ImportsTree t ∧ r = listed isImport path contents ∧
        contents.imported = t.descendants := by
  induction stack, isImport, path using spliceFrom_induction (s := s) with
  | frame stack isImport path ih =>
  intro r h
  obtain ⟨place, bytes, contents, hholds, hnew, hcontents, rfl⟩ := spliceFrom_eq_ok_iff.mp h
  have hfile : ∀ p part, s.spliceFrom (stack ++ [place]) true p = .ok part →
      ∃ trees, s.ImportsTrees [p] trees ∧ part.imported = ImportTree.preorderAll trees := by
    intro p part hpart
    obtain ⟨⟨p, imports⟩, inner, rfl, htree, rfl, himported⟩ :=
      ih place bytes hholds hnew p part hpart
    refine ⟨[.file p imports], ⟨rfl, List.forall_mem_singleton.mpr htree⟩, ?_⟩
    rw [listed, if_pos rfl, himported, ImportTree.preorderAll, ImportTree.preorder,
      ImportTree.preorderAll, List.append_nil]
    rfl
  have hdirective : ∀ d ∈ EnvFile.directivesOf bytes, ∀ part,
      s.directiveSplice isImport path (fun p => s.spliceFrom (stack ++ [place]) true p) d =
        .ok part →
      ∃ trees, s.ImportsTrees (s.importsOf path d) trees ∧
        part.imported = ImportTree.preorderAll trees := by
    intro d _ part hpart
    cases d with
    | assignment key value =>
      obtain rfl := Except.ok.inj hpart
      refine ⟨[], ⟨rfl, by simp⟩, ?_⟩
      rw [assignmentSplice]
      split <;> rfl
    | importing target =>
      have htrees := exists_importsTrees_of_gather (fun p _ => hfile p) hpart
      rwa [List.flatMap_singleton'] at htrees
  obtain ⟨imports, ⟨hpaths, himports⟩, himported⟩ :=
    exists_importsTrees_of_gather hdirective hcontents
  exact ⟨.file path imports, contents, rfl, .file hholds hpaths himports, rfl, himported⟩

/-- What is read for layers are the layers that are there, each followed by the files below it in
its tree. -/
theorem exists_importsTree_of_scanned (h : s.Scanned layers scans) :
    ∃ logged : List (Layer × ImportTree),
      logged.map Prod.fst = (layers.filter fun layer => s.tree.isFile layer.path) ∧
      (∀ p ∈ logged, p.2.path = p.1.path ∧ s.ImportsTree p.2) ∧
      scans.flatMap Scan.layers =
        logged.flatMap fun p => p.1 :: p.2.descendants.map Layer.imported := by
  unfold Scanned at h
  generalize (layers.filter fun layer => s.tree.isFile layer.path) = present at h ⊢
  induction h with
  | nil => exact ⟨[], rfl, by simp, rfl⟩
  | @cons layer scan _ _ hscan _ ih =>
    obtain ⟨rfl, hsplice⟩ := hscan
    obtain ⟨t, contents, hpath, htree, hcontents, himported⟩ :=
      exists_importsTree_of_spliceFrom s [] false scan.layer.path scan.contents hsplice
    obtain rfl : scan.contents = contents := hcontents
    obtain ⟨logged, hlayers, htrees, hlogged⟩ := ih
    refine ⟨(scan.layer, t) :: logged, by rw [List.map_cons, hlayers],
      List.forall_mem_cons.mpr ⟨⟨hpath, htree⟩, htrees⟩, ?_⟩
    rw [List.flatMap_cons, List.flatMap_cons, hlogged, Scan.layers, himported]

end Site

namespace Request

variable {r : Request} {tree : FileTree} {env : LiveEnvironment}

/-- The layers of a resolution that succeeds are a log of its readings.  They are the paths that it
reads, in the order of reading, and each path is there as often as it is read.  Whatever it does not
access may be changed without a change of the result.  A path that is probed is found exactly if it
is a file, and is not among the layers if it is none.  The layers that are there, of the base file
and then of the modes chased, keep their own tiers and are each followed by the files below them in
their trees, which are imports. -/
theorem layers_log_readings {result : Resolution} (h : r.resolve tree env = .ok result) :
    (r.resolveRun tree env).outcome = .ok result ∧
      result.layers.map Layer.path = (r.resolveRun tree env).reads ∧
      (∀ p, (result.layers.map Layer.path).count p =
        (r.resolveRun tree env).accesses.count (.read p)) ∧
      (∀ tree', (r.resolveRun tree env).Untouched tree tree' → r.resolve tree' env = .ok result) ∧
      (∀ p found, .probe p found ∈ (r.resolveRun tree env).accesses →
        tree.isFile p = found ∧ (found = false → p ∉ result.layers.map Layer.path)) ∧
      ∃ (modes : List String) (logged : List (Layer × ImportTree)),
        (r.site tree).Chased (r.firstMode? tree env) modes ∧
        logged.map Prod.fst =
          (((r.site tree).fixedLayers ++ modes.flatMap (r.site tree).modeLayers).filter
            fun layer => tree.isFile layer.path) ∧
        (∀ p ∈ logged, p.2.path = p.1.path ∧ (r.site tree).ImportsTree p.2) ∧
        result.layers = logged.flatMap fun p => p.1 :: p.2.descendants.map Layer.imported := by
  obtain ⟨c, hcascade, hcomplete⟩ := exists_cascade_of_resolve h
  obtain ⟨-, -, -, hlayers, -⟩ := exists_stages_of_complete hcomplete
  have hreads : result.layers.map Layer.path = (r.resolveRun tree env).reads := by
    rw [hlayers, reads_resolveRun hcascade]
  have htruthful := truthful_resolveRun r tree env
  refine ⟨(outcome_resolveRun r tree env).trans h, hreads, fun p => ?_,
    fun tree' huntouched => resolve_of_untouched h huntouched,
    fun p found hprobe => ⟨htruthful.probe p found hprobe, ?_⟩, ?_⟩
  · rw [hreads, Run.count_reads]
  · -- a path among the layers was read, so that it is a file, whatever was probed
    rintro rfl hmem
    rw [hreads, Run.mem_reads_iff] at hmem
    have hfile := htruthful.read p hmem
    rw [htruthful.probe p false hprobe] at hfile
    exact absurd hfile Bool.false_ne_true
  · obtain ⟨fixed, chased, reached, hfixed, hchase, hscans, -⟩ :=
      Site.exists_chase_of_cascade hcascade
    obtain ⟨modes, hmodes, -, hchased, -⟩ := Site.exists_chased_of_chaseFrom hchase
    rw [name_seed hfixed] at hmodes
    obtain ⟨logged, hlogged, htrees, hlist⟩ :=
      Site.exists_importsTree_of_scanned (hfixed.append hchased)
    refine ⟨modes, logged, hmodes, hlogged, htrees, ?_⟩
    rw [hlayers, Cascade.layers, hscans, hlist]

/-- The base file imports two neighbours twice, and the file of its mode imports them again. -/
def rereadTree : FileTree where
  nodes := [
    (["w", ".env"], .file (Utf8.encode "import x\nMODE=dev\nimport x") false),
    (["w", ".env.x"], .file (Utf8.encode "A=shared") false),
    (["w", ".env.x.local"], .file (Utf8.encode "A=local") false),
    (["w", ".env.dev"], .file (Utf8.encode "import x") false)]
  workingDirectory := ["w"]

/-- Each reading of a file that is imported again is listed, and the missing neighbour of the base
file is not, though it was looked for. -/
theorem layers_rereadTree :
    ∃ result, ({} : Request).resolve rereadTree (.ofList []) = .ok result ∧
      result.layers.map Layer.path =
        [⟨"./.env"⟩, ⟨"./.env.x.local"⟩, ⟨"./.env.x"⟩, ⟨"./.env.x.local"⟩, ⟨"./.env.x"⟩,
          ⟨"./.env.dev"⟩, ⟨"./.env.x.local"⟩, ⟨"./.env.x"⟩] ∧
      (⟨"./.env.local"⟩ : Path) ∉ result.layers.map Layer.path := by
  have hsome : (({} : Request).resolve rereadTree (.ofList [])).toOption.isSome := by
    decide +kernel
  have hreads : (({} : Request).resolveRun rereadTree (.ofList [])).reads =
      [⟨"./.env"⟩, ⟨"./.env.x.local"⟩, ⟨"./.env.x"⟩, ⟨"./.env.x.local"⟩, ⟨"./.env.x"⟩,
        ⟨"./.env.dev"⟩, ⟨"./.env.x.local"⟩, ⟨"./.env.x"⟩] := by decide +kernel
  have hprobe : .probe ⟨"./.env.local"⟩ false ∈
      (({} : Request).resolveRun rereadTree (.ofList [])).accesses := by decide +kernel
  cases hresult : ({} : Request).resolve rereadTree (.ofList []) with
  | error e => simp [hresult, Except.toOption] at hsome
  | ok result =>
    obtain ⟨-, hlog, -, -, hprobed, -⟩ := layers_log_readings hresult
    exact ⟨result, rfl, hlog.trans hreads, (hprobed _ _ hprobe).2 rfl⟩

end Request

end LayeredEnv
