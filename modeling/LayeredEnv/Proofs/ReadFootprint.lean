import LayeredEnv.Proofs.FileAccess

/-!
# What a resolution inspects

The accesses of a run would be no record if something else of the tree had a part in the outcome.
Here the tree is exchanged for another one that leaves alone whatever the run accesses
(`Run.Untouched`): the paths that it probes are files or not as before, and the files that it reads
lie where they lay and hold what they held.  A run that comes to something comes to the same in the
other tree.

This is shown function by function, as for the outcomes: what a function gives over the other tree
is what its run comes to over the first one.  Main statement: `Request.resolve_of_untouched`.
-/

namespace LayeredEnv

namespace Run

variable {α β : Type} {tree tree' : FileTree} {x : Run α} {f : α → Run β}

/-- The other tree leaves alone whatever the run accesses. -/
structure Untouched (tree tree' : FileTree) (x : Run α) : Prop where
  probe : ∀ p found, .probe p found ∈ x.accesses → tree'.isFile p = tree.isFile p
  read : ∀ p, .read p ∈ x.accesses →
    ∀ place bytes, tree.Holds p place bytes → tree'.Holds p place bytes

theorem Untouched.of_subset {y : Run β} (h : y.Untouched tree tree')
    (hsubset : x.accesses ⊆ y.accesses) : x.Untouched tree tree' :=
  ⟨fun p found hmem => h.probe p found (hsubset hmem), fun p hmem => h.read p (hsubset hmem)⟩

/-- A run that others follow is a part of the whole. -/
theorem Untouched.first (h : (x.bind f).Untouched tree tree') : x.Untouched tree tree' := by
  refine h.of_subset fun a ha => ?_
  unfold Run.bind
  cases x.outcome with
  | error e => exact ha
  | ok b => exact List.mem_append_left _ ha

/-- So is the run that follows, if there is one. -/
theorem Untouched.next {a : α} (h : (x.bind f).Untouched tree tree') (ha : x.outcome = .ok a) :
    (f a).Untouched tree tree' := by
  refine h.of_subset fun b hb => ?_
  unfold Run.bind
  rw [ha]
  exact List.mem_append_right _ hb

theorem Untouched.of_map {f : α → β} (h : (x.map f).Untouched tree tree') :
    x.Untouched tree tree' :=
  h.of_subset fun _ ha => ha

/-- If what the runs of the members come to is computed otherwise too, so is what they gather. -/
theorem gather_of_untouched {f : α → Run Splice} {g : α → Except Fault Splice} {l : List α}
    (hmembers : ∀ a ∈ l, ∀ part, (f a).outcome = .ok part → (f a).Untouched tree tree' →
      g a = .ok part) {r : Splice} (hr : (gather f l).outcome = .ok r)
    (h : (gather f l).Untouched tree tree') : Splice.gather g l = .ok r := by
  induction l generalizing r with
  | nil => exact hr
  | cons a rest ih =>
    obtain ⟨hfirst, hrest⟩ := List.forall_mem_cons.mp hmembers
    rw [outcome_gather] at hr
    obtain ⟨first, others, ha, hothers, rfl⟩ := Splice.exists_of_gather_cons hr
    rw [← outcome_gather] at hothers
    rw [gather] at h
    rw [Splice.gather, hfirst first ha h.first, ih hrest hothers (h.next ha).of_map]

end Run

namespace Site

variable {s : Site} {tree' : FileTree}

/-! ### Splices -/

/-- Candidates that are probed one by one are there or not as before. -/
theorem gather_importedBy_of_untouched {read : Path → Run Splice}
    {read' : Path → Except Fault Splice}
    (hread : ∀ p part, (read p).outcome = .ok part → (read p).Untouched s.tree tree' →
      read' p = .ok part) (source : Path) (target : String) {r : Splice}
    (hr : (Run.gather (s.candidateRun read) (s.candidates source target)).outcome = .ok r)
    (h : (Run.gather (s.candidateRun read) (s.candidates source target)).Untouched s.tree tree') :
    Splice.gather read' ({ s with tree := tree' }.importedBy source target) = .ok r := by
  refine (Splice.gather_filter tree'.isFile read' (s.candidates source target)).trans ?_
  refine Run.gather_of_untouched (fun p _ part hpart hp => ?_) hr h
  have hprobed : (Run.access (.probe p (s.tree.isFile p))).outcome = .ok () := rfl
  have hsame : tree'.isFile p = s.tree.isFile p :=
    hp.first.probe p _ (List.mem_singleton_self _)
  have hrest := hp.next hprobed
  rw [candidateRun, Run.outcome_bind, hprobed] at hpart
  simp only [Except.bind] at hpart
  rw [hsame]
  cases hfile : s.tree.isFile p with
  | false =>
    rw [hfile] at hpart
    exact hpart
  | true =>
    rw [hfile, if_pos rfl] at hpart hrest
    exact hread p part hpart hrest

/-- A splice without a fault is the same over the other tree. -/
theorem spliceFrom_of_untouched (s : Site) (tree' : FileTree) (stack : List Location)
    (isImport : Bool) (path : Path) : ∀ r, s.spliceFrom stack isImport path = .ok r →
      (s.spliceRunFrom stack isImport path).Untouched s.tree tree' →
      { s with tree := tree' }.spliceFrom stack isImport path = .ok r := by
  induction stack, isImport, path using spliceFrom_induction (s := s) with
  | frame stack isImport path ih =>
  intro r hr h
  obtain ⟨place, bytes, contents, hholds, hnew, hcontents, rfl⟩ := spliceFrom_eq_ok_iff.mp hr
  rw [spliceRunFrom_of_holds hholds, if_neg hnew] at h
  have hholds' : tree'.Holds path place bytes :=
    h.first.read path (List.mem_singleton_self _) place bytes hholds
  refine spliceFrom_eq_ok_iff.mpr ⟨place, bytes, contents, hholds', hnew, ?_, rfl⟩
  rw [← outcome_gather_directiveRun] at hcontents
  refine Run.gather_of_untouched (fun d _ part hpart hd => ?_) hcontents (h.next rfl).of_map
  cases d with
  | assignment key value => exact hpart
  | importing target =>
    have hread : ∀ p part, (s.spliceRunFrom (stack ++ [place]) true p).outcome = .ok part →
        (s.spliceRunFrom (stack ++ [place]) true p).Untouched s.tree tree' →
        { s with tree := tree' }.spliceFrom (stack ++ [place]) true p = .ok part := by
      intro p part hp
      rw [outcome_spliceRunFrom] at hp
      exact ih place bytes hholds hnew p part hp
    exact gather_importedBy_of_untouched hread path target hpart hd

/-! ### Layers -/

theorem scan_of_untouched {layer : Layer} {found : Option Scan} (hfound : s.scan layer = .ok found)
    (h : (s.scanRun layer).Untouched s.tree tree') :
    { s with tree := tree' }.scan layer = .ok found := by
  have hprobed : (Run.access (.probe layer.path (s.tree.isFile layer.path))).outcome = .ok () := rfl
  have hsame : tree'.isFile layer.path = s.tree.isFile layer.path :=
    h.first.probe layer.path _ (List.mem_singleton_self _)
  have hrest := h.next hprobed
  cases hfile : s.tree.isFile layer.path with
  | false =>
    rw [scan_of_not_isFile hfile] at hfound
    rw [scan_of_not_isFile (s := { s with tree := tree' }) (hsame.trans hfile), hfound]
  | true =>
    rw [scan_of_isFile hfile] at hfound
    obtain ⟨contents, hcontents, rfl⟩ := exists_of_map_eq_ok hfound
    rw [hfile, if_pos rfl] at hrest
    rw [scan_of_isFile (s := { s with tree := tree' }) (hsame.trans hfile), splice,
      spliceFrom_of_untouched s tree' [] false layer.path contents hcontents hrest.of_map]
    rfl

theorem scanAll_of_untouched {layers : List Layer} {scans : List Scan}
    (hscans : s.scanAll layers = .ok scans) (h : (s.scanAllRun layers).Untouched s.tree tree') :
    { s with tree := tree' }.scanAll layers = .ok scans := by
  induction layers generalizing scans with
  | nil => exact hscans
  | cons layer rest ih =>
    rw [scanAll] at hscans
    split at hscans
    · simp at hscans
    · next first hfirst =>
      split at hscans
      · simp at hscans
      · next others hothers =>
        have hrest := h.next ((outcome_scanRun s layer).trans hfirst)
        rw [scanAll, scan_of_untouched hfirst h.first, ih hothers hrest.of_map]
        exact hscans

/-! ### The cascade -/

/-- A chase without a fault is the same over the other tree. -/
theorem chase_of_untouched (s : Site) (tree' : FileTree) (visited : List String)
    (mode : ActiveMode) : ∀ chased, s.chase visited mode = .ok chased →
      (s.chaseRun visited mode).Untouched s.tree tree' →
      { s with tree := tree' }.chase visited mode = .ok chased := by
  induction visited, mode using chase_induction (s := s) with
  | step visited mode ih =>
  intro chased hchased h
  rw [chaseRun_eq] at h
  cases hscans : s.scanAll (s.modeLayers mode.name) with
  | error e => simp [chase_of_error hscans] at hchased
  | ok scans =>
    have hscans' := scanAll_of_untouched hscans h.first
    have hrest := h.next ((outcome_scanAllRun s _).trans hscans)
    rw [chase_of_ok hscans] at hchased
    rw [chase_of_ok (s := { s with tree := tree' }) hscans']
    cases hnext : firstDeclaredMode? s.modeKey scans with
    | none =>
      simp only [hnext] at hchased ⊢
      exact hchased
    | some next =>
      simp only [hnext] at hchased hrest ⊢
      by_cases hsame : next.name = mode.name
      · simp only [if_pos hsame] at hchased ⊢
        exact hchased
      · by_cases hvisited : next.name ∈ visited
        · simp [hsame, hvisited] at hchased
        · simp only [if_neg hsame, if_neg hvisited] at hchased hrest ⊢
          obtain ⟨further, hfurther, rfl⟩ := exists_of_map_eq_ok hchased
          rw [ih scans next hscans hnext hvisited further hfurther hrest.of_map]
          rfl

theorem chaseFrom_of_untouched {seed : Option ActiveMode}
    {chased : List Scan × Option ActiveMode} (hchased : s.chaseFrom seed = .ok chased)
    (h : (s.chaseFromRun seed).Untouched s.tree tree') :
    { s with tree := tree' }.chaseFrom seed = .ok chased := by
  cases seed with
  | none => exact hchased
  | some mode =>
    rw [chaseFrom_some] at hchased
    obtain ⟨chased', hchased', rfl⟩ := exists_of_map_eq_ok hchased
    rw [chaseFrom_some, chase_of_untouched s tree' [mode.name] mode chased' hchased' h.of_map]
    rfl

/-- A cascade without a fault is the same over the other tree. -/
theorem cascade_of_untouched {precedence : ModePrecedence} {live : Option String} {c : Cascade}
    (hcascade : s.cascade precedence live = .ok c)
    (h : (s.cascadeRun precedence live).Untouched s.tree tree') :
    { s with tree := tree' }.cascade precedence live = .ok c := by
  unfold cascade at hcascade
  split at hcascade
  · simp at hcascade
  · next fixed hfixed =>
    simp only at hcascade
    split at hcascade
    · simp at hcascade
    · next chased last hchase =>
      have hrest := h.next ((outcome_scanAllRun s s.fixedLayers).trans hfixed)
      have hfixed' : { s with tree := tree' }.scanAll s.fixedLayers = .ok fixed :=
        scanAll_of_untouched hfixed h.first
      have hchase' := chaseFrom_of_untouched hchase hrest.of_map
      have hlayers : { s with tree := tree' }.fixedLayers = s.fixedLayers := rfl
      unfold cascade
      rw [hlayers, hfixed']
      simp only [hchase']
      exact hcascade

end Site

namespace Request

variable {r : Request} {tree tree' : FileTree} {env : LiveEnvironment}

/-- A resolution that succeeds comes to the same over any other tree that leaves alone what it
accesses. -/
theorem resolve_of_untouched {result : Resolution} (hresult : r.resolve tree env = .ok result)
    (h : (r.resolveRun tree env).Untouched tree tree') : r.resolve tree' env = .ok result := by
  unfold resolve at hresult ⊢
  cases hcascade : r.cascade tree env with
  | error e => simp [hcascade, bind, Except.bind] at hresult
  | ok c =>
    have hcascade' : r.cascade tree' env = .ok c :=
      Site.cascade_of_untouched (s := r.site tree) hcascade h.first
    rw [hcascade']
    rw [hcascade] at hresult
    exact hresult

end Request

end LayeredEnv
