import LayeredEnv.Splice
import Mathlib.Data.List.Forall2

/-!
# What a splice is made of

A file that is read successfully is a *frame*: it lies at a location that is not being read already,
and its directives contribute one part each, in order.  `Site.spliceFrom_eq_ok_iff` says so, and
`Site.spliceFrom_of_holds` says what happens to any file that can be read; everything else about
splices is derived from these two laws and from the laws of `Splice.gather`.

The assignment to a key that counts in a splice is the last one, `Splice.lastAssignment?`.  In parts
put one after the other it is found by looking through the parts from the back.
-/

namespace LayeredEnv

namespace FileTree

/-- The path leads to a place where these bytes can be read. -/
structure Holds (t : FileTree) (p : Path) (place : Location) (bytes : List UInt8) : Prop where
  located : t.locate p = .ok place
  readable : t.bytesAt? place = some bytes

variable {t : FileTree} {p : Path} {place : Location} {bytes : List UInt8}

theorem Holds.read (h : t.Holds p place bytes) : t.read p = .ok bytes := by
  unfold FileTree.read
  rw [h.located]
  simp only [h.readable]

/-- Bytes are read exactly where a place holds them. -/
theorem read_eq_ok_iff : t.read p = .ok bytes ↔ ∃ place, t.Holds p place bytes := by
  constructor
  · intro h
    unfold FileTree.read at h
    split at h
    · simp at h
    · next place hplace =>
      split at h
      · next found hfound =>
        obtain rfl := Except.ok.inj h
        exact ⟨place, hplace, hfound⟩
      · simp at h
  · rintro ⟨place, h⟩
    exact h.read

/-- Every file holds some bytes at its place. -/
theorem exists_holds_of_isFile (h : t.isFile p = true) : ∃ place bytes, t.Holds p place bytes := by
  obtain ⟨bytes, hread⟩ := exists_read_of_isFile h
  obtain ⟨place, hholds⟩ := read_eq_ok_iff.mp hread
  exact ⟨place, bytes, hholds⟩

end FileTree

namespace Splice

/-! ### Parts one after the other -/

/-- Splices one after the other. -/
def concat (parts : List Splice) : Splice :=
  parts.foldr append empty

@[simp] theorem concat_nil : concat [] = empty := rfl

@[simp] theorem concat_cons (part : Splice) (parts : List Splice) :
    concat (part :: parts) = part.append (concat parts) := rfl

/-- A list gathers exactly if each of its members does, and then to the members' splices one after
the other. -/
theorem gather_eq_ok_iff {α ε : Type} {f : α → Except ε Splice} {l : List α} {r : Splice} :
    gather f l = .ok r ↔
      ∃ parts, List.Forall₂ (fun a part => f a = .ok part) l parts ∧ r = concat parts := by
  induction l generalizing r with
  | nil => simp [gather, eq_comm]
  | cons a rest ih =>
    rw [gather]
    constructor
    · intro h
      split at h
      · simp at h
      · next first hfirst =>
        split at h
        · simp at h
        · next others hothers =>
          obtain ⟨parts, hparts, rfl⟩ := ih.mp hothers
          obtain rfl := Except.ok.inj h
          exact ⟨first :: parts, .cons hfirst hparts, rfl⟩
    · rintro ⟨parts, hparts, rfl⟩
      obtain ⟨first, others, hfirst, hothers, rfl⟩ := List.forall₂_cons_left_iff.mp hparts
      rw [hfirst, ih.mpr ⟨others, hothers, rfl⟩]
      rfl

/-- What a list gathers is what its first member contributes and what the others gather. -/
theorem exists_of_gather_cons {α ε : Type} {f : α → Except ε Splice} {a : α} {rest : List α}
    {r : Splice} (h : gather f (a :: rest) = .ok r) :
    ∃ first others, f a = .ok first ∧ gather f rest = .ok others ∧ r = first.append others := by
  obtain ⟨parts, hparts, rfl⟩ := gather_eq_ok_iff.mp h
  obtain ⟨first, others, hfirst, hothers, rfl⟩ := List.forall₂_cons_left_iff.mp hparts
  exact ⟨first, concat others, hfirst, gather_eq_ok_iff.mpr ⟨others, hothers, rfl⟩, rfl⟩

/-- If a list does not gather, one of its members is at fault. -/
theorem exists_error_of_gather {α ε : Type} {f : α → Except ε Splice} {l : List α} {e : ε}
    (h : gather f l = .error e) : ∃ a ∈ l, f a = .error e := by
  induction l with
  | nil => simp [gather] at h
  | cons a rest ih =>
    rw [gather] at h
    split at h
    · next e' he =>
      obtain rfl := Except.error.inj h
      exact ⟨a, List.mem_cons_self .., he⟩
    · next first hfirst =>
      split at h
      · next e' he =>
        obtain rfl := Except.error.inj h
        obtain ⟨b, hb, hfault⟩ := ih he
        exact ⟨b, List.mem_cons_of_mem a hb, hfault⟩
      · simp at h

/-- Each member of a list that gathers contributes one of the parts. -/
theorem exists_part_of_mem {α ε : Type} {f : α → Except ε Splice} {l : List α}
    {parts : List Splice} (h : List.Forall₂ (fun a part => f a = .ok part) l parts) {a : α}
    (ha : a ∈ l) : ∃ part ∈ parts, f a = .ok part := by
  induction h with
  | nil => simp at ha
  | cons hfirst _ ih =>
    rcases List.mem_cons.mp ha with rfl | ha
    · exact ⟨_, List.mem_cons_self .., hfirst⟩
    · obtain ⟨part, hmem, hpart⟩ := ih ha
      exact ⟨part, List.mem_cons_of_mem _ hmem, hpart⟩

/-- If a list gathers, each of its members has a part. -/
theorem exists_ok_of_gather {α ε : Type} {f : α → Except ε Splice} {l : List α} {r : Splice}
    (h : gather f l = .ok r) {a : α} (ha : a ∈ l) : ∃ part, f a = .ok part := by
  obtain ⟨parts, hparts, -⟩ := gather_eq_ok_iff.mp h
  obtain ⟨part, -, hpart⟩ := exists_part_of_mem hparts ha
  exact ⟨part, hpart⟩

/-- The files imported for a list are those imported for its members. -/
theorem mem_imported_of_gather_iff {α ε : Type} {f : α → Except ε Splice} {l : List α} {r : Splice}
    {p : Path} (h : gather f l = .ok r) :
    p ∈ r.imported ↔ ∃ a ∈ l, ∃ part, f a = .ok part ∧ p ∈ part.imported := by
  induction l generalizing r with
  | nil =>
    obtain rfl := Except.ok.inj h
    simp [empty]
  | cons a rest ih =>
    obtain ⟨first, others, hfirst, hothers, rfl⟩ := exists_of_gather_cons h
    have hmem : p ∈ (first.append others).imported ↔ p ∈ first.imported ∨ p ∈ others.imported :=
      List.mem_append
    rw [hmem, ih hothers]
    simp [hfirst]

/-! ### The last assignment to a key -/

/-- The assignment to a key that comes last. -/
def lastAssignment? (s : Splice) (key : String) : Option Entry :=
  s.entries.reverse.find? fun e => e.key == key

theorem lastValue?_eq_map (s : Splice) (key : String) :
    s.lastValue? key = (s.lastAssignment? key).map Entry.value := rfl

@[simp] theorem lastAssignment?_empty (key : String) : empty.lastAssignment? key = none := rfl

/-- The last assignment to a key is an entry with that key. -/
theorem mem_of_lastAssignment? {s : Splice} {key : String} {e : Entry}
    (h : s.lastAssignment? key = some e) : e ∈ s.entries ∧ e.key = key :=
  ⟨List.mem_reverse.mp (List.mem_of_find?_eq_some h), by simpa using List.find?_some h⟩

/-- Of two splices the second one counts, and the first one if the second is silent. -/
theorem lastAssignment?_append (a b : Splice) (key : String) :
    (a.append b).lastAssignment? key = (b.lastAssignment? key).or (a.lastAssignment? key) := by
  simp [lastAssignment?, append, List.find?_append]

/-- In parts one after the other the assignment that counts is that of the last part with one. -/
theorem lastAssignment?_concat (parts : List Splice) (key : String) :
    (concat parts).lastAssignment? key =
      parts.reverse.findSome? fun part => part.lastAssignment? key := by
  induction parts with
  | nil => rfl
  | cons part parts ih =>
    rw [concat_cons, lastAssignment?_append, ih, List.reverse_cons, List.findSome?_append]
    simp

/-- The winners are the last assignments. -/
theorem get?_winners (s : Splice) (key : String) : s.winners.get? key = s.lastAssignment? key := by
  have fold : ∀ (entries : List Entry) (m : KeyMap Entry),
      (entries.foldl (fun m e => m.insert e.key e) m).get? key =
        (entries.reverse.find? fun e => e.key == key).or (m.get? key) := by
    intro entries
    induction entries with
    | nil => simp
    | cons e entries ih =>
      intro m
      rw [List.foldl_cons, ih, KeyMap.get?_insert, List.reverse_cons, List.find?_append,
        Option.or_assoc]
      by_cases hkey : key = e.key
      · simp [hkey]
      · simp [hkey, Ne.symm hkey]
  rw [winners, fold, KeyMap.get?_empty, Option.or_none]
  rfl

end Splice

namespace Site

variable {s : Site} {stack : List Location} {isImport : Bool} {path : Path} {place : Location}
  {bytes : List UInt8}

/-! ### Frames -/

@[simp] theorem listed_entries (isImport : Bool) (path : Path) (contents : Splice) :
    (listed isImport path contents).entries = contents.entries := by
  cases isImport <;> rfl

@[simp] theorem mem_imported_listed {p : Path} {contents : Splice} :
    p ∈ (listed isImport path contents).imported ↔
      (isImport = true ∧ p = path) ∨ p ∈ contents.imported := by
  cases isImport <;> simp [listed]

@[simp] theorem lastAssignment?_listed (isImport : Bool) (path : Path) (contents : Splice)
    (key : String) :
    (listed isImport path contents).lastAssignment? key = contents.lastAssignment? key := by
  rw [Splice.lastAssignment?, listed_entries, Splice.lastAssignment?]

/-- A file that can be read is at fault if it is being read already, and otherwise it is read
directive by directive. -/
theorem spliceFrom_of_holds (h : s.tree.Holds path place bytes) :
    s.spliceFrom stack isImport path =
      if place ∈ stack then .error (.importCycle (stack ++ [place]))
      else (Splice.gather
        (s.directiveSplice isImport path fun p => s.spliceFrom (stack ++ [place]) true p)
        (EnvFile.directivesOf bytes)).map (listed isImport path) := by
  rw [spliceFrom]
  simp only [h.located]
  split
  · rfl
  · split
    · next hnone => simp [h.readable] at hnone
    · next found hfound =>
      obtain rfl := Option.some.inj (h.readable.symm.trans hfound)
      rfl

/-- A file that cannot be read is at fault for what keeps it from being read, or for being read
already. -/
theorem spliceFrom_of_not_holds (h : ∀ place bytes, ¬ s.tree.Holds path place bytes) :
    s.spliceFrom stack isImport path =
      match s.tree.locate path with
      | .error e => .error (.unreadableEnvFile path e)
      | .ok place =>
        if place ∈ stack then .error (.importCycle (stack ++ [place]))
        else .error (.unreadableEnvFile path .isADirectory) := by
  rw [spliceFrom]
  cases hlocate : s.tree.locate path with
  | error e => rfl
  | ok place =>
    by_cases hstack : place ∈ stack
    · simp only [dif_pos hstack, if_pos hstack]
    · simp only [dif_neg hstack, if_neg hstack]
      split
      · rfl
      · next bytes hbytes => exact absurd ⟨hlocate, hbytes⟩ (h place bytes)

/-- A splice is a frame: the file can be read, it is not being read already, and the splice holds
the parts that its directives contribute. -/
theorem spliceFrom_eq_ok_iff {r : Splice} :
    s.spliceFrom stack isImport path = .ok r ↔
      ∃ place bytes contents, s.tree.Holds path place bytes ∧ place ∉ stack ∧
        Splice.gather
          (s.directiveSplice isImport path fun p => s.spliceFrom (stack ++ [place]) true p)
          (EnvFile.directivesOf bytes) = .ok contents ∧
        r = listed isImport path contents := by
  constructor
  · intro h
    obtain ⟨place, bytes, hholds⟩ : ∃ place bytes, s.tree.Holds path place bytes := by
      rw [spliceFrom] at h
      split at h
      · simp at h
      · next place hplace =>
        split at h
        · simp at h
        · split at h
          · simp at h
          · next bytes hbytes => exact ⟨place, bytes, hplace, hbytes⟩
    rw [spliceFrom_of_holds hholds] at h
    split at h
    · simp at h
    · next hnew =>
      cases hcontents : Splice.gather
          (s.directiveSplice isImport path fun p => s.spliceFrom (stack ++ [place]) true p)
          (EnvFile.directivesOf bytes) with
      | error e => simp [hcontents, Except.map] at h
      | ok contents =>
        simp only [hcontents, Except.map, Except.ok.injEq] at h
        exact ⟨place, bytes, contents, hholds, hnew, hcontents, h.symm⟩
  · rintro ⟨place, bytes, contents, hholds, hnew, hcontents, rfl⟩
    rw [spliceFrom_of_holds hholds, if_neg hnew, hcontents]
    rfl

/-- A directive is at fault only if it is an import of a file at fault. -/
theorem exists_import_of_directiveSplice_error {read : Path → Except Fault Splice} {d : Directive}
    {fault : Fault} (h : s.directiveSplice isImport path read d = .error fault) :
    ∃ target, d = .importing target ∧ ∃ q ∈ s.importedBy path target, read q = .error fault := by
  cases d with
  | assignment key value => simp [directiveSplice] at h
  | importing target => exact ⟨target, rfl, Splice.exists_error_of_gather h⟩

/-- Induction over the frames of a splice: what holds of a file whenever it holds of all that it
imports, holds of every file. -/
theorem spliceFrom_induction {motive : List Location → Bool → Path → Prop}
    (frame : ∀ stack isImport path,
      (∀ place bytes, s.tree.Holds path place bytes → place ∉ stack →
        ∀ q, motive (stack ++ [place]) true q) → motive stack isImport path)
    (stack : List Location) (isImport : Bool) (path : Path) : motive stack isImport path := by
  induction stack, isImport, path using spliceFrom.induct s with
  | case1 stack isImport path e hlocate =>
    refine frame stack isImport path fun place bytes hholds => ?_
    simp [hholds.located] at hlocate
  | case2 stack isImport path place hlocate hmem =>
    refine frame stack isImport path fun place' bytes hholds hnew => ?_
    obtain rfl := Except.ok.inj (hlocate.symm.trans hholds.located)
    exact absurd hmem hnew
  | case3 stack isImport path place hlocate hnew hbytes =>
    refine frame stack isImport path fun place' bytes hholds => ?_
    obtain rfl := Except.ok.inj (hlocate.symm.trans hholds.located)
    simp [hholds.readable] at hbytes
  | case4 stack isImport path place hlocate hnew bytes hbytes ih =>
    refine frame stack isImport path fun place' bytes' hholds _ q => ?_
    obtain rfl := Except.ok.inj (hlocate.symm.trans hholds.located)
    exact ih q

end Site

end LayeredEnv
