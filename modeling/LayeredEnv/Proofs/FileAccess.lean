import LayeredEnv.Proofs.ModeChase
import LayeredEnv.Proofs.PlainSplice
import LayeredEnv.Resolution

/-!
# What a resolution does to the files

A resolution tells which layers it has read, but it is computed without a record of what was done to
the files.  Here it is computed along with one: a `Run` is a list of accesses in the order in which
they are made, together with what came of them.  An access looks whether a path leads to a file, or
it reads a file.

Every function of the resolution that goes to the files has its run, and the outcome of the run is
what the function gives (`Site.outcome_spliceRun` and so on, up to `Request.outcome_resolveRun`), so
the accesses are those of the resolution itself.  The record is a true one: what was probed was
there exactly if it was found there, and what was read is a file (`Request.truthful_resolveRun`).
-/

namespace LayeredEnv

/-- If a changed outcome is no fault, neither is the outcome that is changed. -/
theorem exists_of_map_eq_ok {ε : Type u} {α : Type v} {β : Type w} {x : Except ε α} {f : α → β}
    {b : β} (h : x.map f = .ok b) : ∃ a, x = .ok a ∧ f a = b := by
  cases x with
  | error e => cases h
  | ok a => exact ⟨a, rfl, Except.ok.inj h⟩

/-- Something that is done to a path. -/
inductive Access
  /-- Looking whether it leads to a file, and whether it did. -/
  | probe (path : Path) (found : Bool)
  /-- Reading the file. -/
  | read (path : Path)
  deriving DecidableEq, Repr

/-- The path that is read, if the access is a reading. -/
def Access.read? : Access → Option Path
  | probe _ _ => none
  | read path => some path

/-- What was done to the files, and what came of it. -/
structure Run (α : Type) where
  accesses : List Access
  outcome : Except Fault α

namespace Run

variable {α β : Type} {tree : FileTree}

/-- The paths that were read, in order. -/
def reads (x : Run α) : List Path :=
  x.accesses.filterMap Access.read?

/-- Nothing done, with an outcome. -/
def of (outcome : Except Fault α) : Run α :=
  ⟨[], outcome⟩

/-- One thing done. -/
def access (a : Access) : Run Unit :=
  ⟨[a], .ok ()⟩

/-- One run after the other, which may use what came of it; a fault ends both. -/
def bind (x : Run α) (f : α → Run β) : Run β :=
  match x.outcome with
  | .error e => ⟨x.accesses, .error e⟩
  | .ok a => ⟨x.accesses ++ (f a).accesses, (f a).outcome⟩

/-- A run together with the fact that it comes to what it comes to. -/
def attach : (x : Run α) → Run { a : α // x.outcome = .ok a }
  | ⟨accesses, .error e⟩ => ⟨accesses, .error e⟩
  | ⟨accesses, .ok a⟩ => ⟨accesses, .ok ⟨a, rfl⟩⟩

/-- What comes of a run, changed. -/
def map (f : α → β) (x : Run α) : Run β :=
  ⟨x.accesses, x.outcome.map f⟩

/-- Runs for the members of a list one after the other, up to the first fault. -/
def gather (f : α → Run Splice) : List α → Run Splice
  | [] => of (.ok .empty)
  | a :: rest => (f a).bind fun first => (gather f rest).map first.append

/-! ### Outcomes -/

@[simp] theorem outcome_of (outcome : Except Fault α) : (of outcome).outcome = outcome := rfl

@[simp] theorem outcome_map (f : α → β) (x : Run α) : (x.map f).outcome = x.outcome.map f := rfl

@[simp] theorem outcome_bind (x : Run α) (f : α → Run β) :
    (x.bind f).outcome = x.outcome.bind fun a => (f a).outcome := by
  unfold bind
  cases x.outcome <;> rfl

/-- What follows a run does not depend on the fact that it comes to something. -/
theorem bind_attach (x : Run α) (f : α → Run β) : (x.attach.bind fun a => f a.1) = x.bind f := by
  obtain ⟨accesses, outcome⟩ := x
  cases outcome <;> rfl

/-- Runs one after the other come to what their outcomes gather to. -/
theorem outcome_gather (f : α → Run Splice) (l : List α) :
    (gather f l).outcome = Splice.gather (fun a => (f a).outcome) l := by
  induction l with
  | nil => rfl
  | cons a rest ih =>
    rw [gather, outcome_bind, Splice.gather]
    simp only [outcome_map, ih]
    cases (f a).outcome with
    | error e => rfl
    | ok first => cases Splice.gather (fun a => (f a).outcome) rest <;> rfl

/-! ### Readings -/

@[simp] theorem reads_of (outcome : Except Fault α) : (of outcome).reads = [] := rfl

@[simp] theorem reads_map (f : α → β) (x : Run α) : (x.map f).reads = x.reads := rfl

/-- A path is among the readings if one of the accesses reads it. -/
theorem mem_reads_iff {x : Run α} {p : Path} : p ∈ x.reads ↔ .read p ∈ x.accesses := by
  constructor
  · intro h
    obtain ⟨a, ha, hread⟩ := List.mem_filterMap.mp h
    cases a with
    | probe q found => simp [Access.read?] at hread
    | read q =>
      obtain rfl := Option.some.inj hread
      exact ha
  · exact fun h => List.mem_filterMap.mpr ⟨_, h, rfl⟩

/-- A path is read as often as there are accesses that read it. -/
theorem count_reads (x : Run α) (p : Path) : x.reads.count p = x.accesses.count (.read p) := by
  have hread : (fun a : Access => a.read? == some p) = fun a => a == .read p := by
    funext a
    cases a <;> simp [Access.read?]
  rw [reads, List.count_filterMap, hread, List.count]

/-- A run that comes to something is followed by the other one. -/
theorem reads_bind {x : Run α} {a : α} (h : x.outcome = .ok a) (f : α → Run β) :
    (x.bind f).reads = x.reads ++ (f a).reads := by
  unfold bind
  rw [h, reads, List.filterMap_append]
  rfl

/-- If the runs of all members read what they import, then so do the runs one after the other. -/
theorem reads_gather {f : α → Run Splice} {l : List α}
    (h : ∀ a ∈ l, ∀ part, (f a).outcome = .ok part → (f a).reads = part.imported) {r : Splice}
    (hr : (gather f l).outcome = .ok r) : (gather f l).reads = r.imported := by
  induction l generalizing r with
  | nil =>
    obtain rfl := Except.ok.inj hr
    rfl
  | cons a rest ih =>
    obtain ⟨hfirst, hrest⟩ := List.forall_mem_cons.mp h
    rw [outcome_gather] at hr
    obtain ⟨first, others, ha, hothers, rfl⟩ := Splice.exists_of_gather_cons hr
    rw [← outcome_gather] at hothers
    rw [gather, reads_bind ha, reads_map, hfirst first ha, ih hrest hothers]
    rfl

/-! ### Truth -/

/-- What was probed was found exactly if it is a file, and only files were read. -/
structure Truthful (tree : FileTree) (x : Run α) : Prop where
  probe : ∀ p found, .probe p found ∈ x.accesses → tree.isFile p = found
  read : ∀ p, .read p ∈ x.accesses → tree.isFile p = true

theorem truthful_of (tree : FileTree) (outcome : Except Fault α) : (of outcome).Truthful tree :=
  ⟨fun _ _ h => absurd h List.not_mem_nil, fun _ h => absurd h List.not_mem_nil⟩

theorem Truthful.map {x : Run α} (h : x.Truthful tree) (f : α → β) : (x.map f).Truthful tree :=
  ⟨h.probe, h.read⟩

theorem Truthful.bind {x : Run α} (h : x.Truthful tree) {f : α → Run β}
    (hf : ∀ a, x.outcome = .ok a → (f a).Truthful tree) : (x.bind f).Truthful tree := by
  unfold Run.bind
  cases hx : x.outcome with
  | error e => exact ⟨h.probe, h.read⟩
  | ok a =>
    refine ⟨fun p found hmem => ?_, fun p hmem => ?_⟩
    · exact (List.mem_append.mp hmem).elim (h.probe p found) ((hf a hx).probe p found)
    · exact (List.mem_append.mp hmem).elim (h.read p) ((hf a hx).read p)

theorem truthful_gather {f : α → Run Splice} {l : List α} (h : ∀ a ∈ l, (f a).Truthful tree) :
    (gather f l).Truthful tree := by
  induction l with
  | nil => exact truthful_of tree _
  | cons a rest ih =>
    obtain ⟨hfirst, hrest⟩ := List.forall_mem_cons.mp h
    exact hfirst.bind fun first _ => (ih hrest).map first.append

/-- Probing a path tells the truth. -/
theorem truthful_probe (tree : FileTree) (p : Path) :
    (access (.probe p (tree.isFile p))).Truthful tree := by
  refine ⟨fun q found hmem => ?_, fun q hmem => ?_⟩
  · obtain ⟨rfl, rfl⟩ := Access.probe.inj (List.mem_singleton.mp hmem)
    rfl
  · exact absurd (List.mem_singleton.mp hmem) (by simp)

/-- Reading a file is reading a file. -/
theorem truthful_read {p : Path} (h : tree.isFile p = true) :
    (access (.read p)).Truthful tree := by
  refine ⟨fun q found hmem => ?_, fun q hmem => ?_⟩
  · exact absurd (List.mem_singleton.mp hmem) (by simp)
  · obtain rfl := Access.read.inj (List.mem_singleton.mp hmem)
    exact h

end Run

namespace Site

variable {s : Site} {stack : List Location} {isImport : Bool} {path : Path}

/-! ### Splices -/

/-- Reads an imported file if it is there, which is looked for first. -/
def candidateRun (s : Site) (read : Path → Run Splice) (p : Path) : Run Splice :=
  (Run.access (.probe p (s.tree.isFile p))).bind fun _ =>
    if s.tree.isFile p then read p else .of (.ok .empty)

/-- The run of a directive in the file `path`. -/
def directiveRun (s : Site) (isImport : Bool) (path : Path) (read : Path → Run Splice) :
    Directive → Run Splice
  | .assignment key value => .of (.ok (s.assignmentSplice isImport path key value))
  | .importing target => Run.gather (s.candidateRun read) (s.candidates path target)

/-- The run of a splice: a file is read, and then its directives are followed in order. -/
def spliceRunFrom (s : Site) (stack : List Location) (isImport : Bool) (path : Path) :
    Run Splice :=
  match s.tree.locate path with
  | .error e => .of (.error (.unreadableEnvFile path e))
  | .ok place =>
    if _hstack : place ∈ stack then .of (.error (.importCycle (stack ++ [place])))
    else
      match _hbytes : s.tree.bytesAt? place with
      | none => .of (.error (.unreadableEnvFile path .isADirectory))
      | some bytes =>
        (Run.access (.read path)).bind fun _ =>
          (Run.gather
            (s.directiveRun isImport path fun p => spliceRunFrom s (stack ++ [place]) true p)
            (EnvFile.directivesOf bytes)).map (listed isImport path)
termination_by unvisited s.tree.readableLocations stack
decreasing_by exact unvisited_append_lt (FileTree.mem_readableLocations _hbytes) _hstack

/-- The run of a splice that starts from the file itself. -/
def spliceRun (s : Site) (path : Path) : Run Splice :=
  s.spliceRunFrom [] false path

/-- Candidates that are probed one by one gather what those that are there do. -/
theorem outcome_gather_candidateRun (read : Path → Run Splice) (candidates : List Path) :
    (Run.gather (s.candidateRun read) candidates).outcome =
      Splice.gather (fun p => (read p).outcome) (candidates.filter s.tree.isFile) := by
  rw [Run.outcome_gather, Splice.gather_filter]
  congr 1
  funext p
  rw [candidateRun, Run.outcome_bind]
  cases s.tree.isFile p <;> rfl

theorem outcome_directiveRun (isImport : Bool) (path : Path) (read : Path → Run Splice)
    (d : Directive) :
    (s.directiveRun isImport path read d).outcome =
      s.directiveSplice isImport path (fun p => (read p).outcome) d := by
  cases d with
  | assignment key value => rfl
  | importing target => exact outcome_gather_candidateRun read (s.candidates path target)

theorem spliceRunFrom_of_holds {place : Location} {bytes : List UInt8}
    (h : s.tree.Holds path place bytes) :
    s.spliceRunFrom stack isImport path =
      if place ∈ stack then .of (.error (.importCycle (stack ++ [place])))
      else (Run.access (.read path)).bind fun _ =>
        (Run.gather
          (s.directiveRun isImport path fun p => s.spliceRunFrom (stack ++ [place]) true p)
          (EnvFile.directivesOf bytes)).map (listed isImport path) := by
  rw [spliceRunFrom]
  simp only [h.located]
  split
  · rfl
  · split
    · next hnone => simp [h.readable] at hnone
    · next found hfound =>
      obtain rfl := Option.some.inj (h.readable.symm.trans hfound)
      rfl

/-- Nothing is done to a file that cannot be read. -/
theorem spliceRunFrom_of_not_holds (h : ∀ place bytes, ¬ s.tree.Holds path place bytes) :
    s.spliceRunFrom stack isImport path = .of (s.spliceFrom stack isImport path) := by
  rw [spliceFrom_of_not_holds h, spliceRunFrom]
  cases hlocate : s.tree.locate path with
  | error e => rfl
  | ok place =>
    by_cases hstack : place ∈ stack
    · simp only [dif_pos hstack, if_pos hstack]
    · simp only [dif_neg hstack, if_neg hstack]
      split
      · rfl
      · next bytes hbytes => exact absurd ⟨hlocate, hbytes⟩ (h place bytes)

/-- The run of a splice comes to the splice. -/
theorem outcome_spliceRunFrom (s : Site) (stack : List Location) (isImport : Bool) (path : Path) :
    (s.spliceRunFrom stack isImport path).outcome = s.spliceFrom stack isImport path := by
  induction stack, isImport, path using spliceFrom_induction (s := s) with
  | frame stack isImport path ih =>
  by_cases hreadable : ∃ place bytes, s.tree.Holds path place bytes
  · obtain ⟨place, bytes, hholds⟩ := hreadable
    rw [spliceRunFrom_of_holds hholds, spliceFrom_of_holds hholds]
    split
    · rfl
    · next hnew =>
      have hread : (fun p => (s.spliceRunFrom (stack ++ [place]) true p).outcome) =
          fun p => s.spliceFrom (stack ++ [place]) true p := funext (ih place bytes hholds hnew)
      have hdirective := outcome_directiveRun (s := s) isImport path
        fun p => s.spliceRunFrom (stack ++ [place]) true p
      rw [hread] at hdirective
      rw [Run.outcome_bind, Run.outcome_map, Run.outcome_gather, funext hdirective]
      rfl
  · rw [spliceRunFrom_of_not_holds fun place bytes hholds => hreadable ⟨place, bytes, hholds⟩,
      Run.outcome_of]

/-- The runs of directives come to what the directives gather. -/
theorem outcome_gather_directiveRun (s : Site) (stack : List Location) (isImport : Bool)
    (path : Path) (ds : List Directive) :
    (Run.gather (s.directiveRun isImport path fun p => s.spliceRunFrom stack true p) ds).outcome =
      Splice.gather (s.directiveSplice isImport path fun p => s.spliceFrom stack true p) ds := by
  simp only [Run.outcome_gather, outcome_directiveRun, outcome_spliceRunFrom]

/-- Candidates read what they import, if the files that are there do. -/
theorem reads_candidateRun {read : Path → Run Splice}
    (h : ∀ p part, (read p).outcome = .ok part → (read p).reads = part.imported) (p : Path)
    (part : Splice) (hpart : (s.candidateRun read p).outcome = .ok part) :
    (s.candidateRun read p).reads = part.imported := by
  have hprobe : (Run.access (.probe p (s.tree.isFile p))).outcome = .ok () := rfl
  rw [candidateRun, Run.outcome_bind, hprobe] at hpart
  rw [candidateRun, Run.reads_bind hprobe]
  cases hfile : s.tree.isFile p with
  | false =>
    simp only [hfile, Except.bind] at hpart
    obtain rfl := Except.ok.inj hpart
    rfl
  | true =>
    simp only [hfile, Except.bind] at hpart
    exact h p part hpart

/-- Directives read what they import, if the files that are there do. -/
theorem reads_directiveRun {read : Path → Run Splice}
    (h : ∀ p part, (read p).outcome = .ok part → (read p).reads = part.imported) (d : Directive)
    (part : Splice) (hpart : (s.directiveRun isImport path read d).outcome = .ok part) :
    (s.directiveRun isImport path read d).reads = part.imported := by
  cases d with
  | assignment key value =>
    obtain rfl := Except.ok.inj hpart
    rw [directiveRun, Run.reads_of, assignmentSplice]
    split <;> rfl
  | importing target => exact Run.reads_gather (fun p _ => reads_candidateRun h p) hpart

/-- The run of a splice reads the file and then what the splice imports. -/
theorem exists_reads_of_spliceRunFrom (s : Site) (stack : List Location) (isImport : Bool)
    (path : Path) : ∀ r, s.spliceFrom stack isImport path = .ok r →
      ∃ contents, r = listed isImport path contents ∧
        (s.spliceRunFrom stack isImport path).reads = path :: contents.imported := by
  induction stack, isImport, path using spliceFrom_induction (s := s) with
  | frame stack isImport path ih =>
  intro r h
  obtain ⟨place, bytes, contents, hholds, hnew, hcontents, rfl⟩ := spliceFrom_eq_ok_iff.mp h
  refine ⟨contents, rfl, ?_⟩
  have hread : ∀ p part, (s.spliceRunFrom (stack ++ [place]) true p).outcome = .ok part →
      (s.spliceRunFrom (stack ++ [place]) true p).reads = part.imported := by
    intro p part hpart
    rw [outcome_spliceRunFrom] at hpart
    obtain ⟨inner, rfl, hreads⟩ := ih place bytes hholds hnew p part hpart
    exact hreads
  rw [← outcome_gather_directiveRun] at hcontents
  have hreads := Run.reads_gather (fun d _ => reads_directiveRun hread d) hcontents
  rw [spliceRunFrom_of_holds hholds, if_neg hnew, Run.reads_bind (a := ()) rfl, Run.reads_map,
    hreads]
  rfl

/-- The run of a splice of a file tells the truth. -/
theorem truthful_spliceRunFrom (s : Site) (stack : List Location) (isImport : Bool) (path : Path) :
    s.tree.isFile path = true → (s.spliceRunFrom stack isImport path).Truthful s.tree := by
  induction stack, isImport, path using spliceFrom_induction (s := s) with
  | frame stack isImport path ih =>
  intro hfile
  obtain ⟨place, bytes, hholds⟩ := FileTree.exists_holds_of_isFile hfile
  rw [spliceRunFrom_of_holds hholds]
  split
  · exact Run.truthful_of s.tree _
  · next hnew =>
    have hcandidate : ∀ p, (s.candidateRun
        (fun p => s.spliceRunFrom (stack ++ [place]) true p) p).Truthful s.tree := by
      intro p
      refine (Run.truthful_probe s.tree p).bind fun _ _ => ?_
      split
      · next hp => exact ih place bytes hholds hnew p hp
      · exact Run.truthful_of s.tree _
    refine (Run.truthful_read hfile).bind fun _ _ => Run.Truthful.map ?_ _
    refine Run.truthful_gather fun d _ => ?_
    cases d with
    | assignment key value => exact Run.truthful_of s.tree _
    | importing target => exact Run.truthful_gather fun p _ => hcandidate p

/-! ### Layers -/

/-- Reads a layer if it is there, which is looked for first. -/
def scanRun (s : Site) (layer : Layer) : Run (Option Scan) :=
  (Run.access (.probe layer.path (s.tree.isFile layer.path))).bind fun _ =>
    if s.tree.isFile layer.path then
      (s.spliceRun layer.path).map fun contents => some ⟨layer, contents⟩
    else .of (.ok none)

/-- The runs of the layers one after the other. -/
def scanAllRun (s : Site) : List Layer → Run (List Scan)
  | [] => .of (.ok [])
  | layer :: rest =>
    (s.scanRun layer).bind fun first => (scanAllRun s rest).map (first.toList ++ ·)

/-- The run of a splice that starts from the file itself comes to that splice. -/
theorem outcome_spliceRun (s : Site) (path : Path) :
    (s.spliceRun path).outcome = s.splice path :=
  outcome_spliceRunFrom s [] false path

/-- Such a run reads the file and then what the splice imports. -/
theorem reads_spliceRun {contents : Splice} (h : s.splice path = .ok contents) :
    (s.spliceRun path).reads = path :: contents.imported := by
  obtain ⟨_, rfl, hreads⟩ := exists_reads_of_spliceRunFrom s [] false path contents h
  exact hreads

theorem outcome_scanRun (s : Site) (layer : Layer) :
    (s.scanRun layer).outcome = s.scan layer := by
  rw [scanRun, Run.outcome_bind, scan, ← outcome_spliceRun]
  cases s.tree.isFile layer.path <;> rfl

theorem outcome_scanAllRun (s : Site) (layers : List Layer) :
    (s.scanAllRun layers).outcome = s.scanAll layers := by
  induction layers with
  | nil => rfl
  | cons layer rest ih =>
    rw [scanAllRun, Run.outcome_bind, outcome_scanRun, scanAll]
    simp only [Run.outcome_map, ih]
    cases s.scan layer with
    | error e => rfl
    | ok first => cases s.scanAll rest <;> rfl

/-- The run of a layer reads what is found for it. -/
theorem reads_scanRun {layer : Layer} {found : Option Scan} (h : s.scan layer = .ok found) :
    (s.scanRun layer).reads = (found.toList.flatMap Scan.layers).map Layer.path := by
  rw [scanRun, Run.reads_bind (a := ()) rfl]
  cases hfile : s.tree.isFile layer.path with
  | false =>
    rw [scan_of_not_isFile hfile] at h
    obtain rfl := Except.ok.inj h
    rfl
  | true =>
    rw [scan_of_isFile hfile] at h
    obtain ⟨contents, hsplice, rfl⟩ := exists_of_map_eq_ok h
    have himported : (contents.imported.map Layer.imported).map Layer.path =
        contents.imported := by
      rw [List.map_map]
      exact List.map_id' _
    rw [if_pos rfl, Run.reads_map, reads_spliceRun hsplice, Option.toList_some,
      List.flatMap_singleton, Scan.layers, List.map_cons, himported]
    rfl

/-- The runs of layers read what is found for them, in order. -/
theorem reads_scanAllRun {layers : List Layer} {scans : List Scan}
    (h : s.scanAll layers = .ok scans) :
    (s.scanAllRun layers).reads = (scans.flatMap Scan.layers).map Layer.path := by
  induction layers generalizing scans with
  | nil =>
    obtain rfl := Except.ok.inj h
    rfl
  | cons layer rest ih =>
    rw [scanAll] at h
    split at h
    · simp at h
    · next first hfirst =>
      split at h
      · simp at h
      · next others hothers =>
        obtain rfl := Except.ok.inj h
        rw [scanAllRun, Run.reads_bind ((outcome_scanRun s layer).trans hfirst), Run.reads_map,
          reads_scanRun hfirst, ih hothers, List.flatMap_append, List.map_append]

theorem truthful_scanRun (s : Site) (layer : Layer) : (s.scanRun layer).Truthful s.tree := by
  refine (Run.truthful_probe s.tree layer.path).bind fun _ _ => ?_
  split
  · next hfile => exact (truthful_spliceRunFrom s [] false layer.path hfile).map _
  · exact Run.truthful_of s.tree _

theorem truthful_scanAllRun (s : Site) (layers : List Layer) :
    (s.scanAllRun layers).Truthful s.tree := by
  induction layers with
  | nil => exact Run.truthful_of s.tree _
  | cons layer rest ih => exact (truthful_scanRun s layer).bind fun first _ => ih.map _

/-! ### The cascade -/

/-- The run of a chase: the layers of a mode are scanned, and then it goes by what they declare. -/
def chaseRun (s : Site) (visited : List String) (mode : ActiveMode) :
    Run (List Scan × ActiveMode) :=
  (s.scanAllRun (s.modeLayers mode.name)).attach.bind fun scans =>
    match _hnext : firstDeclaredMode? s.modeKey scans.1 with
    | none => .of (.ok (scans.1, mode))
    | some next =>
      if next.name = mode.name then .of (.ok (scans.1, mode))
      else if _hnew : next.name ∈ visited then .of (.error (.modeCycle (visited ++ [next.name])))
      else (chaseRun s (visited ++ [next.name]) next).map fun further =>
        (scans.1 ++ further.1, further.2)
termination_by unvisited (s.assigned s.modeKey) visited
decreasing_by
  have hscans := (outcome_scanAllRun s _).symm.trans scans.2
  exact unvisited_append_lt (firstDeclaredMode?_mem_assigned hscans _hnext) _hnew

/-- The run of the chase from a mode, if there is one. -/
def chaseFromRun (s : Site) : Option ActiveMode → Run (List Scan × Option ActiveMode)
  | none => .of (.ok ([], none))
  | some mode => (s.chaseRun [mode.name] mode).map fun chased => (chased.1, some chased.2)

/-- The run of a cascade: the fixed layers, and then the chase. -/
def cascadeRun (s : Site) (precedence : ModePrecedence) (live : Option String) : Run Cascade :=
  (s.scanAllRun s.fixedLayers).bind fun fixed =>
    let live := live.map fun name => ⟨name, .environment⟩
    (s.chaseFromRun (precedence.seed live (firstDeclaredMode? s.modeKey fixed))).map fun chased =>
      ⟨fixed ++ chased.1, precedence.report live chased.2⟩

theorem chaseRun_eq (s : Site) (visited : List String) (mode : ActiveMode) :
    s.chaseRun visited mode = (s.scanAllRun (s.modeLayers mode.name)).bind fun scans =>
      match firstDeclaredMode? s.modeKey scans with
      | none => .of (.ok (scans, mode))
      | some next =>
        if next.name = mode.name then .of (.ok (scans, mode))
        else if next.name ∈ visited then .of (.error (.modeCycle (visited ++ [next.name])))
        else (s.chaseRun (visited ++ [next.name]) next).map fun further =>
          (scans ++ further.1, further.2) := by
  refine (chaseRun.eq_def s visited mode).trans (Eq.trans ?_ (Run.bind_attach _ _))
  congr 1
  funext scans
  split
  · next hnext => simp only [hnext]
  · next next hnext => simp only [hnext, dite_eq_ite]

/-- The run of a chase comes to the chase. -/
theorem outcome_chaseRun (s : Site) (visited : List String) (mode : ActiveMode) :
    (s.chaseRun visited mode).outcome = s.chase visited mode := by
  induction visited, mode using chase_induction (s := s) with
  | step visited mode ih =>
  rw [chaseRun_eq, Run.outcome_bind, outcome_scanAllRun]
  cases hscans : s.scanAll (s.modeLayers mode.name) with
  | error e => rw [chase_of_error hscans]; rfl
  | ok scans =>
    rw [chase_of_ok hscans]
    simp only [Except.bind]
    cases hnext : firstDeclaredMode? s.modeKey scans with
    | none => rfl
    | some next =>
      by_cases hsame : next.name = mode.name
      · simp only [if_pos hsame, Run.outcome_of]
      · by_cases hvisited : next.name ∈ visited
        · simp only [if_neg hsame, if_pos hvisited, Run.outcome_of]
        · simp only [if_neg hsame, if_neg hvisited, Run.outcome_map,
            ih scans next hscans hnext hvisited]

/-- The run of a chase reads the files of its scans, in order. -/
theorem reads_chaseRun (s : Site) (visited : List String) (mode : ActiveMode) :
    ∀ chased, s.chase visited mode = .ok chased →
      (s.chaseRun visited mode).reads = (chased.1.flatMap Scan.layers).map Layer.path := by
  induction visited, mode using chase_induction (s := s) with
  | step visited mode ih =>
  intro chased h
  cases hscans : s.scanAll (s.modeLayers mode.name) with
  | error e => simp [chase_of_error hscans] at h
  | ok scans =>
    have hscansRun := (outcome_scanAllRun s (s.modeLayers mode.name)).trans hscans
    rw [chaseRun_eq, Run.reads_bind hscansRun, reads_scanAllRun hscans]
    rw [chase_of_ok hscans] at h
    cases hnext : firstDeclaredMode? s.modeKey scans with
    | none =>
      simp only [hnext, Except.ok.injEq] at h
      obtain rfl := h
      simp
    | some next =>
      simp only [hnext] at h
      by_cases hsame : next.name = mode.name
      · simp only [if_pos hsame, Except.ok.injEq] at h
        obtain rfl := h
        simp [hsame]
      · by_cases hvisited : next.name ∈ visited
        · simp [hsame, hvisited] at h
        · simp only [if_neg hsame, if_neg hvisited] at h ⊢
          obtain ⟨further, hfurther, rfl⟩ := exists_of_map_eq_ok h
          rw [Run.reads_map, ih scans next hscans hnext hvisited further hfurther,
            List.flatMap_append, List.map_append]

theorem truthful_chaseRun (s : Site) (visited : List String) (mode : ActiveMode) :
    (s.chaseRun visited mode).Truthful s.tree := by
  induction visited, mode using chase_induction (s := s) with
  | step visited mode ih =>
  rw [chaseRun_eq]
  refine (truthful_scanAllRun s _).bind fun scans hscans => ?_
  rw [outcome_scanAllRun] at hscans
  split
  · exact Run.truthful_of s.tree _
  · next next hnext =>
    split
    · exact Run.truthful_of s.tree _
    · split
      · exact Run.truthful_of s.tree _
      · next hvisited => exact (ih scans next hscans hnext hvisited).map _

theorem outcome_chaseFromRun (s : Site) (seed : Option ActiveMode) :
    (s.chaseFromRun seed).outcome = s.chaseFrom seed := by
  cases seed with
  | none => rfl
  | some mode => rw [chaseFromRun, Run.outcome_map, outcome_chaseRun, chaseFrom_some]

theorem reads_chaseFromRun {seed : Option ActiveMode} {chased : List Scan × Option ActiveMode}
    (h : s.chaseFrom seed = .ok chased) :
    (s.chaseFromRun seed).reads = (chased.1.flatMap Scan.layers).map Layer.path := by
  cases seed with
  | none =>
    obtain rfl := Except.ok.inj h
    rfl
  | some mode =>
    rw [chaseFrom_some] at h
    obtain ⟨chased', hchase, rfl⟩ := exists_of_map_eq_ok h
    rw [chaseFromRun, Run.reads_map, reads_chaseRun s _ _ _ hchase]

theorem truthful_chaseFromRun (s : Site) (seed : Option ActiveMode) :
    (s.chaseFromRun seed).Truthful s.tree := by
  cases seed with
  | none => exact Run.truthful_of s.tree _
  | some mode => exact (truthful_chaseRun s _ mode).map _

/-- The run of a cascade comes to the cascade. -/
theorem outcome_cascadeRun (s : Site) (precedence : ModePrecedence) (live : Option String) :
    (s.cascadeRun precedence live).outcome = s.cascade precedence live := by
  rw [cascadeRun, Run.outcome_bind, outcome_scanAllRun]
  unfold cascade
  cases s.scanAll s.fixedLayers with
  | error e => rfl
  | ok fixed =>
    simp only [Except.bind, Run.outcome_map, outcome_chaseFromRun]
    split
    · next e he => rw [he]; rfl
    · next chased last hchase => rw [hchase]; rfl

/-- The run of a cascade reads the files of the cascade, in order. -/
theorem reads_cascadeRun {precedence : ModePrecedence} {live : Option String} {c : Cascade}
    (h : s.cascade precedence live = .ok c) :
    (s.cascadeRun precedence live).reads = c.layers.map Layer.path := by
  unfold cascade at h
  split at h
  · simp at h
  · next fixed hfixed =>
    simp only at h
    split at h
    · simp at h
    · next chased last hchase =>
      obtain rfl := Except.ok.inj h
      have hfixedRun := (outcome_scanAllRun s s.fixedLayers).trans hfixed
      rw [cascadeRun, Run.reads_bind hfixedRun, Run.reads_map, reads_scanAllRun hfixed,
        reads_chaseFromRun hchase, ← List.map_append, ← List.flatMap_append]
      rfl

theorem truthful_cascadeRun (s : Site) (precedence : ModePrecedence) (live : Option String) :
    (s.cascadeRun precedence live).Truthful s.tree :=
  (truthful_scanAllRun s _).bind fun _ _ => (truthful_chaseFromRun s _).map _

end Site

namespace Request

/-! ### The resolution -/

variable {r : Request} {tree : FileTree} {env : LiveEnvironment}

/-- The run of a resolution: after the cascade nothing more is done to the files. -/
def resolveRun (r : Request) (tree : FileTree) (env : LiveEnvironment) : Run Resolution :=
  ((r.site tree).cascadeRun r.precedence (r.liveMode? env)).bind fun c => .of (r.complete env c)

/-- The run of a resolution comes to the resolution. -/
theorem outcome_resolveRun (r : Request) (tree : FileTree) (env : LiveEnvironment) :
    (r.resolveRun tree env).outcome = r.resolve tree env := by
  rw [resolveRun, Run.outcome_bind, Site.outcome_cascadeRun]
  rfl

/-- The run of a resolution that completes a cascade reads the files of the cascade, in order. -/
theorem reads_resolveRun {c : Cascade} (h : r.cascade tree env = .ok c) :
    (r.resolveRun tree env).reads = c.layers.map Layer.path := by
  have hrun := (Site.outcome_cascadeRun (r.site tree) r.precedence (r.liveMode? env)).trans h
  rw [resolveRun, Run.reads_bind hrun, Run.reads_of, List.append_nil, Site.reads_cascadeRun h]

/-- The run of a resolution tells the truth about the files. -/
theorem truthful_resolveRun (r : Request) (tree : FileTree) (env : LiveEnvironment) :
    (r.resolveRun tree env).Truthful tree :=
  (Site.truthful_cascadeRun (r.site tree) _ _).bind fun _ _ => Run.truthful_of tree _

end Request

end LayeredEnv
