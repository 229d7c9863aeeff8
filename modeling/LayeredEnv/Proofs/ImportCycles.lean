import LayeredEnv.Proofs.Splicing
import Mathlib.Data.List.Chain
import Mathlib.Data.List.Nodup
import Mathlib.Data.List.Perm.Subperm

/-!
# Import cycles

A file *imports* another one if one of its directives stands for it.  An import walk goes from file
to file along imports, each path text being resolved against the parent of the one before.  Many
walks may pass one file under many path texts, so the places that a walk passes are compared by
location.

The walk along directives keeps the locations of the files being read on a stack.  If it succeeds,
it has gone along every import walk with that walk's own locations on the stack, so no walk meets a
location twice (`Site.exists_places_of_importWalk`).  If it fails, the stack and the location met
again are the locations of an import walk (`Site.exists_importWalk_of_spliceFrom_error`).

Main statement: a file cannot be spliced exactly if an import walk from it meets a location twice
(`Site.splice_fails_iff_walk_repeats`).
-/

namespace LayeredEnv

/-- A walk that has met nothing twice goes on so if what it meets next is new. -/
theorem nodup_append_singleton_iff {α : Type u} {l : List α} {a : α} :
    (l ++ [a]).Nodup ↔ a ∉ l ∧ l.Nodup := by
  rw [← List.concat_eq_append, List.nodup_concat]

namespace Site

/-! ### Import walks -/

/-- The file at `q` is one that an import directive of the file at `p` stands for. -/
def Imports (s : Site) (p q : Path) : Prop :=
  ∃ bytes target, s.tree.read p = .ok bytes ∧ .importing target ∈ EnvFile.directivesOf bytes ∧
    q ∈ s.candidates p target ∧ s.tree.isFile q = true

/-- A walk along imports that begins at a path. -/
structure ImportWalk (s : Site) (path : Path) (walk : List Path) : Prop where
  start : walk.head? = some path
  steps : walk.IsChain s.Imports

variable {s : Site} {stack : List Location} {isImport : Bool} {path q : Path}

/-- The imported files are the candidates that are there. -/
theorem mem_importedBy_iff {target : String} :
    q ∈ s.importedBy path target ↔ q ∈ s.candidates path target ∧ s.tree.isFile q = true :=
  List.mem_filter

theorem Imports.isFile (h : s.Imports path q) : s.tree.isFile q = true := by
  obtain ⟨_, _, _, _, _, hfile⟩ := h
  exact hfile

theorem ImportWalk.single (s : Site) (path : Path) : s.ImportWalk path [path] :=
  ⟨rfl, .singleton path⟩

/-- An import walk may begin one file earlier. -/
theorem ImportWalk.cons {walk : List Path} (hstep : s.Imports path q) (h : s.ImportWalk q walk) :
    s.ImportWalk path (path :: walk) := by
  refine ⟨rfl, List.isChain_cons.mpr ⟨fun p hp => ?_, h.steps⟩⟩
  obtain rfl : q = p := Option.some.inj (h.start.symm.trans hp)
  exact hstep

/-- A walk stays where it begins or goes on with the walk from an imported file. -/
theorem ImportWalk.cases {walk : List Path} (h : s.ImportWalk path walk) :
    walk = [path] ∨ ∃ q rest, walk = path :: rest ∧ s.Imports path q ∧ s.ImportWalk q rest := by
  obtain ⟨hstart, hsteps⟩ := h
  cases walk with
  | nil => simp at hstart
  | cons p rest =>
    obtain rfl : p = path := by simpa using hstart
    cases rest with
    | nil => exact .inl rfl
    | cons q rest =>
      obtain ⟨hstep, hrest⟩ := List.isChain_cons_cons.mp hsteps
      exact .inr ⟨q, q :: rest, rfl, hstep, rfl, hrest⟩

/-- Every path of a walk that begins at a file leads to a file. -/
theorem ImportWalk.isFile_of_mem {walk : List Path} (h : s.ImportWalk path walk)
    (hfile : s.tree.isFile path = true) {p : Path} (hp : p ∈ walk) : s.tree.isFile p = true := by
  induction walk generalizing path with
  | nil => simp at hp
  | cons first rest ih =>
    rcases h.cases with hwalk | ⟨q, rest', hwalk, hstep, hrest⟩
    · rw [hwalk] at hp
      obtain rfl := List.mem_singleton.mp hp
      exact hfile
    · obtain ⟨rfl, rfl⟩ := List.cons.inj hwalk
      rcases List.mem_cons.mp hp with rfl | hp
      · exact hfile
      · exact ih hrest hstep.isFile hp

/-! ### Walks of a successful splice -/

/-- Splicing a file splices every file that it imports, with its own location on the stack. -/
theorem exists_splice_of_imports {r : Splice} (h : s.spliceFrom stack isImport path = .ok r)
    (hstep : s.Imports path q) :
    ∃ place, s.tree.locate path = .ok place ∧ place ∉ stack ∧
      ∃ r', s.spliceFrom (stack ++ [place]) true q = .ok r' := by
  obtain ⟨place, bytes, contents, hholds, hnew, hcontents, -⟩ := spliceFrom_eq_ok_iff.mp h
  obtain ⟨bytes', target, hread, hmem, hcandidate, hfile⟩ := hstep
  obtain rfl : bytes = bytes' := Except.ok.inj (hholds.read.symm.trans hread)
  obtain ⟨part, hpart⟩ := Splice.exists_ok_of_gather hcontents hmem
  have hq : q ∈ s.importedBy path target := mem_importedBy_iff.mpr ⟨hcandidate, hfile⟩
  obtain ⟨r', hr'⟩ := Splice.exists_ok_of_gather hpart hq
  exact ⟨place, hholds.located, hnew, r', hr'⟩

/-- The locations that a walk passes are new to the stack and to one another if the file where the
walk begins can be spliced. -/
theorem exists_places_of_importWalk {walk : List Path} {r : Splice}
    (h : s.spliceFrom stack isImport path = .ok r) (hstack : stack.Nodup)
    (hwalk : s.ImportWalk path walk) :
    ∃ places : List Location,
      walk.map s.tree.locate = places.map .ok ∧ (stack ++ places).Nodup := by
  induction walk generalizing stack isImport path r with
  | nil => exact ⟨[], rfl, by simpa using hstack⟩
  | cons first rest ih =>
    obtain ⟨place, bytes, contents, hholds, hnew, -, -⟩ := spliceFrom_eq_ok_iff.mp h
    have hstack' : (stack ++ [place]).Nodup := nodup_append_singleton_iff.mpr ⟨hnew, hstack⟩
    rcases hwalk.cases with hsingle | ⟨q, rest', hcons, hstep, hrest⟩
    · exact ⟨[place], by rw [hsingle]; simp [hholds.located], hstack'⟩
    · obtain ⟨rfl, rfl⟩ := List.cons.inj hcons
      obtain ⟨place', hplace', -, r', hr'⟩ := exists_splice_of_imports h hstep
      obtain rfl : place = place' := Except.ok.inj (hholds.located.symm.trans hplace')
      obtain ⟨places, hplaces, hnodup⟩ := ih hr' hstack' hrest
      refine ⟨place :: places, ?_, by simpa using hnodup⟩
      rw [List.map_cons, List.map_cons, hholds.located, hplaces]

/-! ### The walk behind a fault -/

/-- A file of the tree is at fault only for a walk that comes back to a location on the stack or to
one of its own. -/
theorem exists_importWalk_of_spliceFrom_error (s : Site) (stack : List Location) (isImport : Bool)
    (path : Path) :
    s.tree.isFile path = true → stack.Nodup → ∀ fault,
      s.spliceFrom stack isImport path = .error fault →
      ∃ walk before last, s.ImportWalk path walk ∧
        walk.map s.tree.locate = (before ++ [last]).map .ok ∧
        (stack ++ before).Nodup ∧ last ∈ stack ++ before ∧
        fault = .importCycle (stack ++ before ++ [last]) := by
  induction stack, isImport, path using spliceFrom_induction (s := s) with
  | frame stack isImport path ih =>
  intro hfile hstack fault hfault
  obtain ⟨place, bytes, hholds⟩ := FileTree.exists_holds_of_isFile hfile
  rw [spliceFrom_of_holds hholds] at hfault
  split at hfault
  · next hmem =>
    obtain rfl := Except.error.inj hfault
    exact ⟨[path], [], place, .single s path, by simp [hholds.located], by simpa using hstack,
      by simpa using hmem, by simp⟩
  · next hnew =>
    -- some directive is at fault, and it can only be an import
    cases hgather : Splice.gather
        (s.directiveSplice isImport path fun p => s.spliceFrom (stack ++ [place]) true p)
        (EnvFile.directivesOf bytes) with
    | ok contents => simp [hgather, Except.map] at hfault
    | error e =>
      obtain rfl : e = fault := by simpa [hgather, Except.map] using hfault
      obtain ⟨d, hd, hpart⟩ := Splice.exists_error_of_gather hgather
      obtain ⟨target, rfl, q, hq, herror⟩ := exists_import_of_directiveSplice_error hpart
      obtain ⟨hcandidate, hfile'⟩ := mem_importedBy_iff.mp hq
      have hstep : s.Imports path q := ⟨bytes, target, hholds.read, hd, hcandidate, hfile'⟩
      have hstack' : (stack ++ [place]).Nodup := nodup_append_singleton_iff.mpr ⟨hnew, hstack⟩
      obtain ⟨walk, before, last, hwalk, hplaces, hnodup, hlast, rfl⟩ :=
        ih place bytes hholds hnew q hfile' hstack' e herror
      refine ⟨path :: walk, place :: before, last, .cons hstep hwalk, ?_, by simpa using hnodup,
        by simpa using hlast, by simp⟩
      rw [List.map_cons, hplaces, hholds.located]
      rfl

/-- A file of the tree is at fault only for an import cycle.  The chain tells the locations of a
walk from the file; they differ from one another up to the last one, which is one of those before.
-/
theorem exists_cycle_of_splice_error {fault : Fault} (hfile : s.tree.isFile path = true)
    (h : s.splice path = .error fault) :
    ∃ root before last walk, fault = .importCycle (before ++ [last]) ∧
      s.tree.locate path = .ok root ∧ before.head? = some root ∧
      before.Nodup ∧ before.count last = 1 ∧
      s.ImportWalk path walk ∧ walk.map s.tree.locate = (before ++ [last]).map .ok := by
  obtain ⟨walk, before, last, hwalk, hplaces, hnodup, hlast, rfl⟩ :=
    exists_importWalk_of_spliceFrom_error s [] false path hfile .nil fault h
  rw [List.nil_append] at hnodup hlast
  obtain ⟨root, rest, rfl⟩ := List.exists_cons_of_ne_nil (List.ne_nil_of_mem hlast)
  have hroot : s.tree.locate path = .ok root := by
    have hhead := congrArg List.head? hplaces
    rw [List.head?_map, hwalk.start] at hhead
    simpa using hhead
  exact ⟨root, root :: rest, last, walk, rfl, hroot, rfl, hnodup,
    List.count_eq_one_of_mem hnodup hlast, hwalk, hplaces⟩

/-- A walk that never meets a location twice passes no more files than there are. -/
theorem ImportWalk.length_le_of_nodup {walk : List Path} (h : s.ImportWalk path walk)
    (hfile : s.tree.isFile path = true) (hnodup : (walk.map s.tree.locate).Nodup) :
    walk.length ≤ s.tree.readableLocations.length := by
  have hsubset : walk.map s.tree.locate ⊆ s.tree.readableLocations.map .ok := by
    intro located hlocated
    obtain ⟨p, hp, rfl⟩ := List.mem_map.mp hlocated
    obtain ⟨place, bytes, hholds⟩ :=
      FileTree.exists_holds_of_isFile (h.isFile_of_mem hfile hp)
    rw [hholds.located]
    exact List.mem_map_of_mem (FileTree.mem_readableLocations hholds.readable)
  have hlength := (List.subperm_of_subset hnodup hsubset).length_le
  rwa [List.length_map, List.length_map] at hlength

/-! ### When a file can be spliced -/

/-- A file of the tree cannot be spliced exactly if some import walk from it meets a location twice.
The fault then is an import cycle whose chain tells the locations of an import walk from the file:
they are pairwise distinct up to the last one, which is one of those before.  Walks that meet no
location twice are no longer than there are files, so there are finitely many steps to take. -/
theorem splice_fails_iff_walk_repeats (s : Site) {path : Path}
    (hfile : s.tree.isFile path = true) :
    ((∃ fault, s.splice path = .error fault) ↔
        ∃ walk, s.ImportWalk path walk ∧ ¬ (walk.map s.tree.locate).Nodup) ∧
      (∀ fault, s.splice path = .error fault →
        ∃ root before last walk, fault = .importCycle (before ++ [last]) ∧
          s.tree.locate path = .ok root ∧ before.head? = some root ∧
          before.Nodup ∧ before.count last = 1 ∧
          s.ImportWalk path walk ∧ walk.map s.tree.locate = (before ++ [last]).map .ok) ∧
      ∀ walk, s.ImportWalk path walk → (walk.map s.tree.locate).Nodup →
        walk.length ≤ s.tree.readableLocations.length := by
  refine ⟨⟨?_, ?_⟩, fun fault => exists_cycle_of_splice_error hfile,
    fun walk hwalk hnodup => hwalk.length_le_of_nodup hfile hnodup⟩
  · rintro ⟨fault, hfault⟩
    obtain ⟨root, before, last, walk, -, -, -, -, hcount, hwalk, hplaces⟩ :=
      exists_cycle_of_splice_error hfile hfault
    refine ⟨walk, hwalk, fun hnodup => ?_⟩
    rw [hplaces] at hnodup
    have hlast : last ∉ before := (nodup_append_singleton_iff.mp (List.Nodup.of_map _ hnodup)).1
    rw [List.count_eq_zero_of_not_mem hlast] at hcount
    exact absurd hcount (by decide)
  · rintro ⟨walk, hwalk, hrepeat⟩
    cases hsplice : s.splice path with
    | error fault => exact ⟨fault, rfl⟩
    | ok r =>
      obtain ⟨places, hplaces, hnodup⟩ := exists_places_of_importWalk hsplice .nil hwalk
      rw [hplaces] at hrepeat
      exact absurd (hnodup.map fun _ _ => Except.ok.inj) hrepeat

/-- A link `d` leads back to its own directory, so the file `.env.x` imports itself under longer and
longer path texts. -/
def linkLoop : Site where
  tree :=
    { nodes := [
        (["w", "d"], .link ⟨"."⟩),
        (["w", ".env"], .file (Utf8.encode "import d/x") false),
        (["w", ".env.x"], .file (Utf8.encode "import d/x") false)]
      workingDirectory := ["w"] }
  directory := ⟨"."⟩
  scheme := ⟨.after, .after⟩
  modeKey := "MODE"

/-- The chain of the import cycle that a splice meets; empty if it meets none. -/
def cycleChain : Except Fault Splice → List Location
  | .error (.importCycle chain) => chain
  | _ => []

/-- Around the link the chain names one location twice, and an import walk passes it. -/
theorem splice_fails_around_linkLoop :
    linkLoop.tree.isFile ⟨".env"⟩ = true ∧
      ∃ walk, linkLoop.ImportWalk ⟨".env"⟩ walk ∧
        walk.map linkLoop.tree.locate =
          [.ok ["w", ".env"], .ok ["w", ".env.x"], .ok ["w", ".env.x"]] := by
  have hfile : linkLoop.tree.isFile ⟨".env"⟩ = true := by decide +kernel
  have hchain : cycleChain (linkLoop.splice ⟨".env"⟩) =
      [["w", ".env"], ["w", ".env.x"], ["w", ".env.x"]] := by decide +kernel
  refine ⟨hfile, ?_⟩
  cases hsplice : linkLoop.splice ⟨".env"⟩ with
  | ok r => simp [hsplice, cycleChain] at hchain
  | error fault =>
    obtain ⟨-, before, last, walk, rfl, -, -, -, -, hwalk, hplaces⟩ :=
      (splice_fails_iff_walk_repeats linkLoop hfile).2.1 fault hsplice
    simp only [hsplice, cycleChain] at hchain
    rw [hchain] at hplaces
    exact ⟨walk, hwalk, hplaces⟩

-- A file that two others import is read twice and is no fault.
example :
    let diamond : Site := {
      tree := {
        nodes := [
          (["w", ".env"], .file (Utf8.encode "import a\nimport b") false),
          (["w", ".env.a"], .file (Utf8.encode "import c") false),
          (["w", ".env.b"], .file (Utf8.encode "import c") false),
          (["w", ".env.c"], .file (Utf8.encode "C=1") false)]
        workingDirectory := ["w"] }
      directory := ⟨"."⟩
      scheme := ⟨.after, .after⟩
      modeKey := "MODE" }
    (diamond.splice ⟨".env"⟩).toOption.map Splice.imported =
      some [⟨".env.a"⟩, ⟨".env.c"⟩, ⟨".env.b"⟩, ⟨".env.c"⟩] := by
  decide +kernel

end Site

end LayeredEnv
