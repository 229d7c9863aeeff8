import LayeredEnv.Cascade
import LayeredEnv.Proofs.OwnLines

/-!
# Scanned layers

Scanning passes over the layers that are not there and splices the others: `Site.Scanned` relates a
list of layers to what is read for it, and `Site.scanAll_eq_ok_iff` says that this is all that a
scan without a fault does.  The only fault that a scan can meet is an import cycle.

What a layer declares as the mode hangs on the layer's own lines only.  `Site.ownMode?` tells it
without any scan, `Site.declaration?` with the layer as its origin, and
`Site.firstDeclaredMode?_eq_findSome?` says that scans agree with that.
-/

namespace LayeredEnv

namespace Site

variable {s : Site} {layer : Layer} {layers others : List Layer} {scans : List Scan}

/-! ### Which layers are scanned -/

/-- What is read for a list of layers: those that are there, in order, with their imports. -/
def Scanned (s : Site) (layers : List Layer) (scans : List Scan) : Prop :=
  List.Forall₂ (fun layer scan => scan.layer = layer ∧ s.splice layer.path = .ok scan.contents)
    (layers.filter fun layer => s.tree.isFile layer.path) scans

theorem scan_of_isFile (h : s.tree.isFile layer.path = true) :
    s.scan layer = (s.splice layer.path).map fun contents => some ⟨layer, contents⟩ :=
  if_pos h

theorem scan_of_not_isFile (h : s.tree.isFile layer.path = false) : s.scan layer = .ok none := by
  unfold scan
  rw [h]
  rfl

/-- A layer that is there is spliced, and then the others are read. -/
theorem scanned_cons_of_isFile (h : s.tree.isFile layer.path = true) :
    s.Scanned (layer :: layers) scans ↔
      ∃ contents rest, s.splice layer.path = .ok contents ∧ s.Scanned layers rest ∧
        scans = ⟨layer, contents⟩ :: rest := by
  unfold Scanned
  rw [List.filter_cons_of_pos (by simpa using h), List.forall₂_cons_left_iff]
  constructor
  · rintro ⟨scan, rest, ⟨rfl, hcontents⟩, hrest, rfl⟩
    exact ⟨scan.contents, rest, hcontents, hrest, rfl⟩
  · rintro ⟨contents, rest, hcontents, hrest, rfl⟩
    exact ⟨⟨layer, contents⟩, rest, ⟨rfl, hcontents⟩, hrest, rfl⟩

/-- A layer that is not there is passed over. -/
theorem scanned_cons_of_not_isFile (h : s.tree.isFile layer.path = false) :
    s.Scanned (layer :: layers) scans ↔ s.Scanned layers scans := by
  unfold Scanned
  rw [List.filter_cons_of_neg (by simp [h])]

/-- Lists of layers are read one after the other. -/
theorem Scanned.append {further : List Scan} (h : s.Scanned layers scans)
    (h' : s.Scanned others further) : s.Scanned (layers ++ others) (scans ++ further) := by
  unfold Scanned
  rw [List.filter_append]
  exact List.rel_append h h'

/-- Layers scan without a fault exactly to what is read for those that are there. -/
theorem scanAll_eq_ok_iff : s.scanAll layers = .ok scans ↔ s.Scanned layers scans := by
  induction layers generalizing scans with
  | nil => simp [scanAll, Scanned, eq_comm]
  | cons layer rest ih =>
    rw [scanAll]
    cases hfile : s.tree.isFile layer.path with
    | false =>
      rw [scan_of_not_isFile hfile, scanned_cons_of_not_isFile hfile, ← ih]
      cases s.scanAll rest <;> simp
    | true =>
      rw [scan_of_isFile hfile, scanned_cons_of_isFile hfile]
      cases hsplice : s.splice layer.path with
      | error e => simp [Except.map]
      | ok contents =>
        simp only [Except.map, Except.ok.injEq, ← ih]
        cases s.scanAll rest <;> simp [eq_comm]

/-- What was read is the splice of one of the layers. -/
theorem Scanned.of_mem {found : Scan} (h : s.Scanned layers scans) (hfound : found ∈ scans) :
    found.layer ∈ layers ∧ s.tree.isFile found.layer.path = true ∧
      s.splice found.layer.path = .ok found.contents := by
  induction layers generalizing scans with
  | nil =>
    obtain rfl : scans = [] := by simpa [Scanned] using h
    simp at hfound
  | cons layer rest ih =>
    cases hfile : s.tree.isFile layer.path with
    | false =>
      obtain ⟨hmem, hspliced⟩ := ih ((scanned_cons_of_not_isFile hfile).mp h) hfound
      exact ⟨List.mem_cons_of_mem layer hmem, hspliced⟩
    | true =>
      obtain ⟨contents, others, hcontents, hothers, rfl⟩ := (scanned_cons_of_isFile hfile).mp h
      rcases List.mem_cons.mp hfound with rfl | hfound
      · exact ⟨List.mem_cons_self .., hfile, hcontents⟩
      · obtain ⟨hmem, hspliced⟩ := ih hothers hfound
        exact ⟨List.mem_cons_of_mem layer hmem, hspliced⟩

/-! ### Faults of a scan -/

/-- A layer is at fault only for an import cycle. -/
theorem exists_importCycle_of_scan_error {fault : Fault} (h : s.scan layer = .error fault) :
    ∃ chain, fault = .importCycle chain := by
  cases hfile : s.tree.isFile layer.path with
  | false => simp [scan_of_not_isFile hfile] at h
  | true =>
    rw [scan_of_isFile hfile] at h
    cases hsplice : s.splice layer.path with
    | ok contents => simp [hsplice, Except.map] at h
    | error e =>
      obtain rfl : e = fault := by simpa [hsplice, Except.map] using h
      obtain ⟨_, before, last, _, hcycle, -⟩ := exists_cycle_of_splice_error hfile hsplice
      exact ⟨before ++ [last], hcycle⟩

/-- Layers are at fault only for one of them. -/
theorem exists_scan_error_of_scanAll_error {fault : Fault} (h : s.scanAll layers = .error fault) :
    ∃ layer ∈ layers, s.scan layer = .error fault := by
  induction layers with
  | nil => simp [scanAll] at h
  | cons layer rest ih =>
    rw [scanAll] at h
    split at h
    · next e he =>
      obtain rfl := Except.error.inj h
      exact ⟨layer, List.mem_cons_self .., he⟩
    · split at h
      · next e he =>
        obtain rfl := Except.error.inj h
        obtain ⟨other, hmem, hfault⟩ := ih he
        exact ⟨other, List.mem_cons_of_mem layer hmem, hfault⟩
      · simp at h

/-! ### The mode that a layer declares -/

/-- The mode that a layer's own lines assign last, if the layer is there; an empty mode is none. -/
def ownMode? (s : Site) (layer : Layer) : Option String :=
  if s.tree.isFile layer.path then
    (s.tree.ownValue? layer.path s.modeKey).filter fun name => name != ""
  else none

theorem ownMode?_of_not_isFile (h : s.tree.isFile layer.path = false) :
    s.ownMode? layer = none := by
  unfold ownMode?
  rw [h]
  rfl

/-- The mode that a layer's own lines assign, with the layer as its origin. -/
def declaration? (s : Site) (layer : Layer) : Option ActiveMode :=
  (s.ownMode? layer).map fun name => ⟨name, .file layer.path layer.tier⟩

/-- The declared mode is named by the own lines. -/
theorem name_findSome?_declaration? (s : Site) (layers : List Layer) :
    (layers.findSome? s.declaration?).map ActiveMode.name = layers.findSome? s.ownMode? := by
  rw [List.map_findSome?]
  congr 1
  funext layer
  simp [declaration?, Function.comp_def]

/-- A layer that is there declares the mode of its own lines, whatever it imports. -/
theorem declaredMode?_eq_declaration? {contents : Splice}
    (hfile : s.tree.isFile layer.path = true) (h : s.splice layer.path = .ok contents) :
    Scan.declaredMode? s.modeKey ⟨layer, contents⟩ = s.declaration? layer := by
  unfold Scan.declaredMode? declaration? ownMode?
  rw [if_pos hfile, lastValue?_modeKey h]

/-- Scanned layers declare what the first of them with a mode declares. -/
theorem firstDeclaredMode?_eq_findSome? (h : s.Scanned layers scans) :
    firstDeclaredMode? s.modeKey scans = layers.findSome? s.declaration? := by
  induction layers generalizing scans with
  | nil =>
    obtain rfl : scans = [] := by simpa [Scanned] using h
    rfl
  | cons layer rest ih =>
    cases hfile : s.tree.isFile layer.path with
    | false =>
      have hnone : s.declaration? layer = none := by
        rw [declaration?, ownMode?_of_not_isFile hfile, Option.map_none]
      rw [List.findSome?_cons, hnone]
      exact ih ((scanned_cons_of_not_isFile hfile).mp h)
    | true =>
      obtain ⟨contents, others, hcontents, hothers, rfl⟩ := (scanned_cons_of_isFile hfile).mp h
      rw [firstDeclaredMode?, List.findSome?_cons, List.findSome?_cons,
        declaredMode?_eq_declaration? hfile hcontents]
      cases s.declaration? layer with
      | none => exact ih hothers
      | some mode => rfl

/-- A mode that one of the layers declares is declared by its scan. -/
theorem Scanned.exists_declaredMode? {mode : ActiveMode} (h : s.Scanned layers scans)
    (hlayer : layer ∈ layers) (hmode : s.declaration? layer = some mode) :
    ∃ found ∈ scans, found.declaredMode? s.modeKey = some mode := by
  have hfile : s.tree.isFile layer.path = true := by
    by_contra hfile
    rw [declaration?, ownMode?_of_not_isFile (by simpa using hfile)] at hmode
    simp at hmode
  induction layers generalizing scans with
  | nil => simp at hlayer
  | cons other rest ih =>
    cases hother : s.tree.isFile other.path with
    | false =>
      have hrest : layer ∈ rest := by
        rcases List.mem_cons.mp hlayer with rfl | hrest
        · simp [hfile] at hother
        · exact hrest
      exact ih ((scanned_cons_of_not_isFile hother).mp h) hrest
    | true =>
      obtain ⟨contents, others, hcontents, hothers, rfl⟩ := (scanned_cons_of_isFile hother).mp h
      rcases List.mem_cons.mp hlayer with rfl | hrest
      · have hdeclared := (declaredMode?_eq_declaration? hfile hcontents).trans hmode
        exact ⟨_, List.mem_cons_self .., hdeclared⟩
      · obtain ⟨found, hfound, hdeclared⟩ := ih hothers hrest
        exact ⟨found, List.mem_cons_of_mem _ hfound, hdeclared⟩

/-- Scanned layers declare the mode of the first layer whose own lines assign one. -/
theorem name_firstDeclaredMode? (h : s.Scanned layers scans) :
    (firstDeclaredMode? s.modeKey scans).map ActiveMode.name = layers.findSome? s.ownMode? := by
  rw [firstDeclaredMode?_eq_findSome? h, name_findSome?_declaration?]

end Site

end LayeredEnv
