import LayeredEnv.Proofs.Splicing

/-!
# A file rewritten

Writing to a file that is there changes what can be read at one place, and nothing else.  A walk
sees of a file only that it is one, so trees that differ in the contents of files lead every path to
the same place (`FileTree.SameShape.locate`).  Whatever leads to the place of the file, by a link or
by another spelling of its path, reads the new bytes.

Main statement: `FileTree.rewritten_write`.
-/

namespace LayeredEnv

namespace FileTree

variable {t t' : FileTree} {place : Location} {node : Node} {bytes : List UInt8}
  {executable : Bool}

/-! ### Trees of the same shape -/

/-- The same stands in both, or a file in both. -/
inductive SameKind : Option Node → Option Node → Prop
  | refl (found : Option Node) : SameKind found found
  | files (bytes bytes' : List UInt8) (executable executable' : Bool) :
      SameKind (some (.file bytes executable)) (some (.file bytes' executable'))

/-- The trees differ in the contents of files only. -/
structure SameShape (t t' : FileTree) : Prop where
  workingDirectory : t.workingDirectory = t'.workingDirectory
  node : ∀ place, SameKind (t.node? place) (t'.node? place)

/-- A walk does not look into files. -/
theorem SameShape.walk (h : t.SameShape t') (here : Location) (pieces : List (List Char)) :
    t.walk here pieces = t'.walk here pieces := by
  induction pieces generalizing here with
  | nil => rfl
  | cons piece rest ih =>
    rw [FileTree.walk, FileTree.walk, ih here, ih here.dropLast]
    dsimp only
    have hkind := h.node (here ++ [String.ofList piece])
    generalize t.node? (here ++ [String.ofList piece]) = found at hkind ⊢
    generalize t'.node? (here ++ [String.ofList piece]) = found' at hkind ⊢
    cases hkind with
    | refl => simp only [ih]
    | files => rfl

theorem SameShape.follow (h : t.SameShape t') (links : Nat) (here : Location)
    (pieces : List (List Char)) : t.follow links here pieces = t'.follow links here pieces := by
  induction links generalizing here pieces with
  | zero =>
    rw [FileTree.follow, FileTree.follow, h.walk]
  | succ links ih =>
    rw [FileTree.follow, FileTree.follow, h.walk]
    simp only [ih]

/-- Every path leads to the same place in trees of the same shape, or nowhere in both. -/
theorem SameShape.locate (h : t.SameShape t') (p : Path) : t.locate p = t'.locate p := by
  unfold FileTree.locate FileTree.spot
  rw [h.follow, h.workingDirectory]

theorem SameShape.isFile (h : t.SameShape t') (p : Path) : t.isFile p = t'.isFile p := by
  unfold FileTree.isFile
  rw [h.locate p]
  cases t'.locate p with
  | error e => rfl
  | ok place =>
    have hkind := h.node place
    dsimp only
    generalize t.node? place = found at hkind ⊢
    generalize t'.node? place = found' at hkind ⊢
    cases hkind <;> rfl

/-! ### Setting a node -/

theorem listed?_filter_ne {l : Location} (h : l ≠ place) (nodes : List (Location × Node)) :
    listed? l (nodes.filter fun p => p.1 != place) = listed? l nodes := by
  induction nodes with
  | nil => rfl
  | cons p rest ih =>
    by_cases hp : p.1 = place
    · have hl : p.1 ≠ l := fun hl => h (hl.symm.trans hp)
      rw [List.filter_cons_of_neg (by simp [hp]), ih, listed?, if_neg hl]
    · rw [List.filter_cons_of_pos (by simpa using hp), listed?, listed?, ih]

/-- A node in the place of a file changes what stands there only: the place was listed before, so
there are no more directories above it than there were. -/
theorem node?_set (h : t.node? place = some (.file bytes executable)) (node : Node)
    (l : Location) :
    (t.set place node).node? l = if l = place then some node else t.node? l := by
  have hlisted : ∃ p ∈ t.nodes, p.1 = place := by
    have hbytes : t.bytesAt? place = some bytes := by
      rw [bytesAt?, h]
      rfl
    obtain ⟨found, hfound, -⟩ := mem_nodes_of_bytesAt? hbytes
    exact ⟨_, hfound, rfl⟩
  by_cases hl : l = place
  · rw [if_pos hl, node?, set, listed?, if_pos hl.symm]
  · rw [if_neg hl]
    have hsame : listed? l (t.set place node).nodes = listed? l t.nodes := by
      rw [set, listed?, if_neg (Ne.symm hl), listed?_filter_ne hl]
    have hany : (t.set place node).nodes.any (fun p => l.isPrefixOf p.1) =
        t.nodes.any fun p => l.isPrefixOf p.1 := by
      rw [Bool.eq_iff_iff, List.any_eq_true, List.any_eq_true]
      constructor
      · rintro ⟨p, hp, hbegin⟩
        rcases List.mem_cons.mp hp with rfl | hp
        · obtain ⟨q, hq, hplace⟩ := hlisted
          exact ⟨q, hq, by rw [hplace]; exact hbegin⟩
        · exact ⟨p, (List.mem_filter.mp hp).1, hbegin⟩
      · rintro ⟨p, hp, hbegin⟩
        by_cases hplace : p.1 = place
        · exact ⟨(place, node), List.mem_cons_self .., by rw [← hplace]; exact hbegin⟩
        · have hkept : p ∈ t.nodes.filter fun p => p.1 != place :=
            List.mem_filter.mpr ⟨hp, by simpa using hplace⟩
          exact ⟨p, List.mem_cons_of_mem _ hkept, hbegin⟩
    rw [node?, node?, hsame, hany]
    rfl

/-! ### Writing to a file -/

/-- The second tree is the first one with other bytes in one file, which lies at the place: every
path leads to where it led, and elsewhere the same bytes can be read. -/
structure Rewritten (t t' : FileTree) (place : Location) (bytes : List UInt8) : Prop where
  shape : t.SameShape t'
  here : t'.bytesAt? place = some bytes
  elsewhere : ∀ l, l ≠ place → t'.bytesAt? l = t.bytesAt? l

/-- Writing to a file rewrites it at the place that its path leads to. -/
theorem rewritten_write {p : Path} (hfile : t.isFile p = true) (hplace : t.locate p = .ok place)
    (bytes : List UInt8) (executable : Bool) :
    t.Rewritten (t.write p bytes executable) place bytes := by
  obtain ⟨found, before, wasExecutable, hfound, hnode⟩ := isFile_iff.mp hfile
  obtain rfl := Except.ok.inj (hplace.symm.trans hfound)
  have hspot : t.spot p = .ok (.taken place) := by
    unfold locate at hplace
    split at hplace
    · next hspot => rw [hspot, Except.ok.inj hplace]
    · simp at hplace
    · simp at hplace
  have hwrite : t.write p bytes executable =
      t.set place (.file bytes (executable || wasExecutable)) := by
    unfold write
    simp only [hspot, hnode]
  rw [hwrite]
  refine ⟨⟨rfl, fun l => ?_⟩, ?_, fun l hl => ?_⟩
  · rw [node?_set hnode]
    split
    · next hl =>
      rw [hl, hnode]
      exact .files ..
    · exact .refl _
  · rw [bytesAt?, node?_set hnode, if_pos rfl]
    rfl
  · rw [bytesAt?, bytesAt?, node?_set hnode, if_neg hl]

end FileTree

end LayeredEnv
