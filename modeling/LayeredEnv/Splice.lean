import LayeredEnv.EnvFile
import LayeredEnv.Fault
import LayeredEnv.Fresh
import LayeredEnv.Layer

/-!
# Splicing imports into an env file

An import directive stands for the lines of the files it names: first the machine-local one, then
the shared one, each only if it is there.  `Site.splice` reads a file with all of its imports put
in their places, however deep they go.  Assignments to the mode key count only in the file that the
splice starts from.

The files being read are kept on a stack by location.  A file that is met again while it is on the
stack is a cycle; a file that is met again later is simply read again.  Each step pushes a location
of a file that is not on the stack, so the walk ends.  Main statement: every assignment of a splice
is a line of some file of the tree (`Site.mem_assigned_of_splice`).
-/

namespace LayeredEnv

/-- An assignment and the file that it stands in. -/
structure Entry where
  key : String
  value : String
  source : Path
  deriving DecidableEq, Repr

/-- The assignments of a file with its imports, in order, and the files that were imported, in the
order in which they were read. -/
structure Splice where
  entries : List Entry
  imported : List Path
  deriving DecidableEq, Repr

namespace Splice

/-- Nothing read. -/
def empty : Splice := ⟨[], []⟩

/-- One read after the other. -/
def append (a b : Splice) : Splice :=
  ⟨a.entries ++ b.entries, a.imported ++ b.imported⟩

/-- Reads the members of a list one after the other, up to the first fault. -/
def gather (f : α → Except ε Splice) : List α → Except ε Splice
  | [] => .ok empty
  | a :: rest =>
    match f a with
    | .error e => .error e
    | .ok first =>
      match gather f rest with
      | .error e => .error e
      | .ok others => .ok (first.append others)

/-- The last assignment of each key. -/
def winners (s : Splice) : KeyMap Entry :=
  s.entries.foldl (fun m e => m.insert e.key e) .empty

/-- The value that is assigned to a key last. -/
def lastValue? (s : Splice) (key : String) : Option String :=
  (s.entries.reverse.find? fun e => e.key == key).map Entry.value

theorem mem_entries_of_gather {f : α → Except ε Splice} {l : List α} {s : Splice}
    (h : gather f l = .ok s) {e : Entry} (he : e ∈ s.entries) :
    ∃ a ∈ l, ∃ t, f a = .ok t ∧ e ∈ t.entries := by
  induction l generalizing s with
  | nil =>
    obtain rfl := Except.ok.inj h
    simp [empty] at he
  | cons a rest ih =>
    rw [gather] at h
    split at h
    · simp at h
    · next first hfirst =>
      split at h
      · simp at h
      · next others hothers =>
        obtain rfl := Except.ok.inj h
        rcases List.mem_append.1 he with he | he
        · exact ⟨a, List.mem_cons_self .., first, hfirst, he⟩
        · obtain ⟨b, hb, t, ht, het⟩ := ih hothers he
          exact ⟨b, List.mem_cons_of_mem _ hb, t, ht, het⟩

end Splice

/-- Where env files are looked for: a tree of files, a directory in it, how files are named, and
the key that holds the mode. -/
structure Site where
  tree : FileTree
  directory : Path
  scheme : NameScheme
  modeKey : String
  deriving Repr

namespace Site

/-- The files that an import directive in the file `source` may stand for, the machine-local one
first. -/
def candidates (s : Site) (source : Path) (target : String) : List Path :=
  let home := source.parent?.getD ⟨"."⟩
  let name := (Path.fileName? ⟨target⟩).getD ""
  let directory :=
    match Path.parent? ⟨target⟩ with
    | some p => if p.text == "" then home else home.join p.text
    | none => home
  [directory.join (s.scheme.fileName (some name) true),
    directory.join (s.scheme.fileName (some name) false)]

/-- Those of the files that are there. -/
def importedBy (s : Site) (source : Path) (target : String) : List Path :=
  (s.candidates source target).filter s.tree.isFile

/-- What an assignment in the file `path` adds to a splice. -/
def assignmentSplice (s : Site) (isImport : Bool) (path : Path) (key value : String) : Splice :=
  if isImport && key == s.modeKey then .empty else ⟨[⟨key, value, path⟩], []⟩

/-- A splice with its own file listed if it is an import. -/
def listed (isImport : Bool) (path : Path) (contents : Splice) : Splice :=
  if isImport then ⟨contents.entries, path :: contents.imported⟩ else contents

/-- What a directive in the file `path` adds to a splice, where `read` splices an imported file. -/
def directiveSplice (s : Site) (isImport : Bool) (path : Path) (read : Path → Except Fault Splice) :
    Directive → Except Fault Splice
  | .assignment key value => .ok (s.assignmentSplice isImport path key value)
  | .importing target => Splice.gather read (s.importedBy path target)

/-- Splices a file while the files on the stack are being read. -/
def spliceFrom (s : Site) (stack : List Location) (isImport : Bool) (path : Path) :
    Except Fault Splice :=
  match s.tree.locate path with
  | .error e => .error (.unreadableEnvFile path e)
  | .ok place =>
    if _hstack : place ∈ stack then .error (.importCycle (stack ++ [place]))
    else
      match _hbytes : s.tree.bytesAt? place with
      | none => .error (.unreadableEnvFile path .isADirectory)
      | some bytes =>
        (Splice.gather
          (s.directiveSplice isImport path fun p => spliceFrom s (stack ++ [place]) true p)
          (EnvFile.directivesOf bytes)).map (listed isImport path)
termination_by unvisited s.tree.readableLocations stack
decreasing_by exact unvisited_append_lt (FileTree.mem_readableLocations _hbytes) _hstack

/-- Reads a file with all of its imports spliced in. -/
def splice (s : Site) (path : Path) : Except Fault Splice :=
  s.spliceFrom [] false path

/-! ### Where the values come from -/

/-- The values that some file of the tree assigns to a key. -/
def assigned (s : Site) (key : String) : List String :=
  s.tree.nodes.flatMap fun p => (p.2.bytes?.map (EnvFile.valuesOf key)).getD []

theorem mem_assigned {s : Site} {place : Location} {bytes : List UInt8} {key value : String}
    (hbytes : s.tree.bytesAt? place = some bytes)
    (h : .assignment key value ∈ EnvFile.directivesOf bytes) : value ∈ s.assigned key := by
  obtain ⟨node, hnode, hread⟩ := FileTree.mem_nodes_of_bytesAt? hbytes
  refine List.mem_flatMap.2 ⟨_, hnode, ?_⟩
  simp only [hread, Option.map_some, Option.getD_some]
  exact List.mem_filterMap.2 ⟨_, h, by simp⟩

theorem mem_assigned_of_directiveSplice {s : Site} {isImport : Bool} {path : Path}
    {read : Path → Except Fault Splice} {place : Location} {bytes : List UInt8}
    (hbytes : s.tree.bytesAt? place = some bytes)
    (hread : ∀ p r, read p = .ok r → ∀ e ∈ r.entries, e.value ∈ s.assigned e.key)
    {d : Directive} (hd : d ∈ EnvFile.directivesOf bytes) {r : Splice}
    (h : s.directiveSplice isImport path read d = .ok r) {e : Entry} (he : e ∈ r.entries) :
    e.value ∈ s.assigned e.key := by
  cases d with
  | assignment key value =>
    obtain rfl := Except.ok.inj h
    unfold assignmentSplice at he
    split at he
    · simp [Splice.empty] at he
    · obtain rfl := List.mem_singleton.1 he
      exact mem_assigned hbytes hd
  | importing target =>
    obtain ⟨p, _, t, ht, het⟩ := Splice.mem_entries_of_gather h he
    exact hread p t ht e het

theorem mem_assigned_of_spliceFrom (s : Site) (stack : List Location) (isImport : Bool)
    (path : Path) : ∀ r, s.spliceFrom stack isImport path = .ok r →
      ∀ e ∈ r.entries, e.value ∈ s.assigned e.key := by
  induction stack, isImport, path using spliceFrom.induct s with
  | case1 stack isImport path e hloc =>
    intro r h
    simp [spliceFrom, hloc] at h
  | case2 stack isImport path place hloc hmem =>
    intro r h
    simp [spliceFrom, hloc, hmem] at h
  | case3 stack isImport path place hloc hnew hbytes =>
    intro r h
    rw [spliceFrom] at h
    simp only [hloc, hnew, dite_false] at h
    split at h <;> simp_all
  | case4 stack isImport path place hloc hnew bytes hbytes ih =>
    intro r h e he
    rw [spliceFrom] at h
    simp only [hloc, hnew, dite_false] at h
    split at h
    · simp_all
    · next b hb =>
      obtain rfl := Option.some.inj (hbytes.symm.trans hb)
      cases hg : Splice.gather
          (s.directiveSplice isImport path fun p => s.spliceFrom (stack ++ [place]) true p)
          (EnvFile.directivesOf bytes) with
      | error fault => simp [hg, Except.map] at h
      | ok contents =>
        simp only [hg, Except.map, Except.ok.injEq] at h
        subst h
        have he : e ∈ contents.entries := by cases isImport <;> exact he
        obtain ⟨d, hd, t, ht, het⟩ := Splice.mem_entries_of_gather hg he
        exact mem_assigned_of_directiveSplice hbytes (fun p => ih p) hd ht het

/-- Every assignment of a splice is a line of some file of the tree. -/
theorem mem_assigned_of_splice {s : Site} {path : Path} {r : Splice} (h : s.splice path = .ok r)
    {e : Entry} (he : e ∈ r.entries) : e.value ∈ s.assigned e.key :=
  mem_assigned_of_spliceFrom s [] false path r h e he

/-- The value assigned last is assigned by some file of the tree. -/
theorem lastValue_mem_assigned {s : Site} {path : Path} {r : Splice} (h : s.splice path = .ok r)
    {key value : String} (hv : r.lastValue? key = some value) : value ∈ s.assigned key := by
  obtain ⟨e, he, rfl⟩ := Option.map_eq_some_iff.1 hv
  have hkey : e.key = key := by simpa using List.find?_some he
  have hmem : e ∈ r.entries := List.mem_reverse.1 (List.mem_of_find?_eq_some he)
  exact hkey ▸ mem_assigned_of_splice h hmem

end Site

end LayeredEnv
