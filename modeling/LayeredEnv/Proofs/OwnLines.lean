import LayeredEnv.Proofs.ImportCycles
import Mathlib.Logic.Relation

/-!
# Own lines of a file

What a file assigns to a key *on its own* is told by its own lines alone, whatever they import:
`FileTree.ownValue?` reads the file and takes the last assignment to the key.

In a splice the lines of imported files stand between the lines of the file that imports them, and
one file may be read many times.  Even so, the assignment to a key that comes last in a splice is
the last one of the file that it stands in (`Site.ownValue?_of_lastAssignment?`): a later one in the
same file would come later in the splice as well.  It comes from the last directive that contributes
an assignment to the key, the *winning directive*.

No imported file assigns the mode key, so the value of the mode key in a splice is the one that the
file assigns on its own (`Site.lastValue?_modeKey`).
-/

namespace LayeredEnv

/-- The value that a directive assigns to a key, if it does. -/
def Directive.valueFor? (key : String) : Directive → Option String
  | .assignment k v => if k = key then some v else none
  | .importing _ => none

theorem Directive.valueFor?_eq_some_iff {key value : String} {d : Directive} :
    d.valueFor? key = some value ↔ d = .assignment key value := by
  cases d with
  | assignment k v => simp [valueFor?]
  | importing target => simp [valueFor?]

theorem EnvFile.valuesOf_eq_filterMap (key : String) (bytes : List UInt8) :
    EnvFile.valuesOf key bytes = (EnvFile.directivesOf bytes).filterMap (Directive.valueFor? key) :=
  rfl

/-- The value that the file at a path assigns to a key last in its own lines; none if no file can be
read there. -/
def FileTree.ownValue? (t : FileTree) (p : Path) (key : String) : Option String :=
  match t.read p with
  | .ok bytes => (EnvFile.valuesOf key bytes).getLast?
  | .error _ => none

/-- The own value is the last one among the directives of the bytes that are read. -/
theorem FileTree.Holds.ownValue? {t : FileTree} {p : Path} {place : Location}
    {bytes : List UInt8} (h : t.Holds p place bytes) (key : String) :
    t.ownValue? p key =
      ((EnvFile.directivesOf bytes).filterMap (Directive.valueFor? key)).getLast? := by
  unfold FileTree.ownValue?
  simp only [h.read, EnvFile.valuesOf_eq_filterMap]

namespace Splice

/-- If the parts put together assign nothing to a key, no part does. -/
theorem lastAssignment?_eq_none_of_gather {α ε : Type} {f : α → Except ε Splice} {l : List α}
    {r : Splice} {key : String} (h : gather f l = .ok r) (hnone : r.lastAssignment? key = none)
    {a : α} (ha : a ∈ l) {part : Splice} (hpart : f a = .ok part) :
    part.lastAssignment? key = none := by
  obtain ⟨parts, hparts, rfl⟩ := gather_eq_ok_iff.mp h
  rw [lastAssignment?_concat, List.findSome?_eq_none_iff] at hnone
  obtain ⟨part', hmem, hpart'⟩ := exists_part_of_mem hparts ha
  obtain rfl : part = part' := Except.ok.inj (hpart.symm.trans hpart')
  exact hnone part (List.mem_reverse.mpr hmem)

/-- The assignment to a key that comes last in parts put together is that of the last member of the
list whose part has one. -/
theorem exists_winner_of_gather {α ε : Type} {f : α → Except ε Splice} {l : List α} {r : Splice}
    {key : String} {e : Entry} (h : gather f l = .ok r) (he : r.lastAssignment? key = some e) :
    ∃ before a after part, l = before ++ a :: after ∧ f a = .ok part ∧
      part.lastAssignment? key = some e ∧
      ∀ b ∈ after, ∀ other, f b = .ok other → other.lastAssignment? key = none := by
  induction l generalizing r with
  | nil =>
    obtain rfl := Except.ok.inj h
    simp at he
  | cons a rest ih =>
    obtain ⟨first, others, hfirst, hothers, rfl⟩ := exists_of_gather_cons h
    rw [lastAssignment?_append] at he
    cases hlater : others.lastAssignment? key with
    | some e' =>
      obtain rfl : e' = e := by simpa [hlater] using he
      obtain ⟨before, b, after, part, rfl, hpart, hlast, hafter⟩ := ih hothers hlater
      exact ⟨a :: before, b, after, part, rfl, hpart, hlast, hafter⟩
    | none =>
      rw [hlater, Option.none_or] at he
      exact ⟨[], a, rest, first, rfl, hfirst, he, fun b hb other hother =>
        lastAssignment?_eq_none_of_gather hothers hlater hb hother⟩

end Splice

namespace Site

variable {s : Site} {stack : List Location} {isImport : Bool} {path : Path} {place : Location}
  {bytes : List UInt8} {key value : String} {e : Entry}

/-! ### What an assignment contributes -/

/-- Assignments count, those to the mode key in an imported file apart. -/
theorem assignmentSplice_of_counts (h : ¬ (isImport = true ∧ key = s.modeKey)) :
    s.assignmentSplice isImport path key value = ⟨[⟨key, value, path⟩], []⟩ := by
  unfold assignmentSplice
  rw [if_neg (by simpa using h)]

/-- An assignment to the mode key in an imported file contributes nothing. -/
theorem assignmentSplice_of_dropped (h : key = s.modeKey) :
    s.assignmentSplice true path key value = .empty := by
  unfold assignmentSplice
  rw [if_pos (by simpa using h)]

/-- What an assignment contributes is its own line, if it counts. -/
theorem mem_assignmentSplice (h : e ∈ (s.assignmentSplice isImport path key value).entries) :
    e = ⟨key, value, path⟩ ∧ ¬ (isImport = true ∧ key = s.modeKey) := by
  unfold assignmentSplice at h
  split at h
  · simp [Splice.empty] at h
  · next hcounts => exact ⟨List.mem_singleton.mp h, by simpa using hcounts⟩

@[simp] theorem imported_assignmentSplice (s : Site) (isImport : Bool) (path : Path)
    (key value : String) : (s.assignmentSplice isImport path key value).imported = [] := by
  unfold assignmentSplice
  split <;> rfl

/-! ### Entries of a splice -/

/-- Induction over the entries of a splice: an entry is an own assignment of the file or an entry of
a file that it imports. -/
theorem entry_induction {motive : Bool → Path → Entry → Prop}
    (own : ∀ isImport path key value, ¬ (isImport = true ∧ key = s.modeKey) →
      motive isImport path ⟨key, value, path⟩)
    (imported : ∀ isImport path q e, s.Imports path q → motive true q e → motive isImport path e)
    (stack : List Location) (isImport : Bool) (path : Path) :
    ∀ r, s.spliceFrom stack isImport path = .ok r → ∀ e ∈ r.entries, motive isImport path e := by
  induction stack, isImport, path using spliceFrom_induction (s := s) with
  | frame stack isImport path ih =>
  intro r h e he
  obtain ⟨place, bytes, contents, hholds, hnew, hcontents, rfl⟩ := spliceFrom_eq_ok_iff.mp h
  rw [listed_entries] at he
  obtain ⟨d, hd, part, hpart, hmem⟩ := Splice.mem_entries_of_gather hcontents he
  cases d with
  | assignment key value =>
    obtain rfl := Except.ok.inj hpart
    obtain ⟨rfl, hcounts⟩ := mem_assignmentSplice hmem
    exact own isImport path key value hcounts
  | importing target =>
    obtain ⟨q, hq, r', hr', hmem'⟩ := Splice.mem_entries_of_gather hpart hmem
    obtain ⟨hcandidate, hfile⟩ := mem_importedBy_iff.mp hq
    have hstep : s.Imports path q := ⟨bytes, target, hholds.read, hd, hcandidate, hfile⟩
    exact imported isImport path q e hstep (ih place bytes hholds hnew q r' hr' e hmem')

/-- No imported file assigns the mode key. -/
theorem key_ne_modeKey_of_imported {r : Splice} (h : s.spliceFrom stack true path = .ok r)
    (he : e ∈ r.entries) : e.key ≠ s.modeKey := by
  have hentry : ∀ isImport : Bool, ∀ r, s.spliceFrom stack isImport path = .ok r →
      ∀ e ∈ r.entries, isImport = true → e.key ≠ s.modeKey := fun isImport =>
    entry_induction (motive := fun isImport _ e => isImport = true → e.key ≠ s.modeKey)
      (fun _ _ _ _ hcounts himport hkey => hcounts ⟨himport, hkey⟩)
      (fun _ _ _ _ _ hq _ => hq rfl) stack isImport path
  exact hentry true r h e he rfl

/-- Every entry stands in the file itself or in one that it imports, directly or through others. -/
theorem reflTransGen_imports_of_mem {r : Splice} (h : s.spliceFrom stack isImport path = .ok r)
    (he : e ∈ r.entries) : Relation.ReflTransGen s.Imports path e.source :=
  entry_induction (motive := fun _ path e => Relation.ReflTransGen s.Imports path e.source)
    (fun _ _ _ _ _ => .refl) (fun _ _ _ _ hstep hq => .head hstep hq) stack isImport path r h e he

/-- An imported file is listed among the files imported. -/
theorem mem_imported_self {r : Splice} (h : s.spliceFrom stack true path = .ok r) :
    path ∈ r.imported := by
  obtain ⟨place, bytes, contents, -, -, -, rfl⟩ := spliceFrom_eq_ok_iff.mp h
  exact mem_imported_listed.mpr (.inl ⟨rfl, rfl⟩)

/-- Every entry stands in the file itself or in one that is listed as imported. -/
theorem source_eq_or_mem_imported (s : Site) (stack : List Location) (isImport : Bool)
    (path : Path) : ∀ r, s.spliceFrom stack isImport path = .ok r →
      ∀ e ∈ r.entries, e.source = path ∨ e.source ∈ r.imported := by
  induction stack, isImport, path using spliceFrom_induction (s := s) with
  | frame stack isImport path ih =>
  intro r h e he
  obtain ⟨place, bytes, contents, hholds, hnew, hcontents, rfl⟩ := spliceFrom_eq_ok_iff.mp h
  rw [listed_entries] at he
  obtain ⟨d, hd, part, hpart, hmem⟩ := Splice.mem_entries_of_gather hcontents he
  cases d with
  | assignment key value =>
    obtain rfl := Except.ok.inj hpart
    obtain ⟨rfl, -⟩ := mem_assignmentSplice hmem
    exact .inl rfl
  | importing target =>
    obtain ⟨q, hq, r', hr', hmem'⟩ := Splice.mem_entries_of_gather hpart hmem
    have hlisted : e.source ∈ r'.imported := by
      rcases ih place bytes hholds hnew q r' hr' e hmem' with heq | hsource
      · exact heq ▸ mem_imported_self hr'
      · exact hsource
    have hpart' : e.source ∈ part.imported :=
      (Splice.mem_imported_of_gather_iff hpart).mpr ⟨q, hq, r', hr', hlisted⟩
    have hcontents' : e.source ∈ contents.imported :=
      (Splice.mem_imported_of_gather_iff hcontents).mpr ⟨_, hd, part, hpart, hpart'⟩
    exact .inr (mem_imported_listed.mpr (.inr hcontents'))

/-! ### The winning directive -/

/-- In a file in which nothing behind an assignment to a key contributes to the key, that assignment
is the last one of the file's own. -/
theorem ownValue?_of_split {read : Path → Except Fault Splice} {before after : List Directive}
    (hholds : s.tree.Holds path place bytes)
    (hsplit : EnvFile.directivesOf bytes = before ++ .assignment key value :: after)
    (hcounts : ¬ (isImport = true ∧ key = s.modeKey))
    (hafter : ∀ d ∈ after, ∀ part, s.directiveSplice isImport path read d = .ok part →
      part.lastAssignment? key = none) :
    s.tree.ownValue? path key = some value := by
  have hnone : after.filterMap (Directive.valueFor? key) = [] := by
    refine List.filterMap_eq_nil_iff.mpr fun d hd => ?_
    by_contra hsome
    obtain ⟨v, hv⟩ := Option.ne_none_iff_exists'.mp hsome
    obtain rfl := Directive.valueFor?_eq_some_iff.mp hv
    have hpart := hafter _ hd _ rfl
    rw [assignmentSplice_of_counts hcounts] at hpart
    simp [Splice.lastAssignment?] at hpart
  rw [hholds.ownValue?, hsplit, List.filterMap_append, List.filterMap_cons, hnone]
  simp [Directive.valueFor?]

/-- A file that assigns nothing to a key in its splice assigns nothing to it on its own, imported
files and the mode key apart. -/
theorem ownValue?_eq_none {read : Path → Except Fault Splice} {contents : Splice}
    (hholds : s.tree.Holds path place bytes)
    (hcontents : Splice.gather (s.directiveSplice isImport path read)
      (EnvFile.directivesOf bytes) = .ok contents)
    (hcounts : ¬ (isImport = true ∧ key = s.modeKey))
    (hnone : contents.lastAssignment? key = none) : s.tree.ownValue? path key = none := by
  rw [hholds.ownValue?, List.getLast?_eq_none_iff]
  refine List.filterMap_eq_nil_iff.mpr fun d hd => ?_
  by_contra hsome
  obtain ⟨v, hv⟩ := Option.ne_none_iff_exists'.mp hsome
  obtain rfl := Directive.valueFor?_eq_some_iff.mp hv
  have hpart := Splice.lastAssignment?_eq_none_of_gather hcontents hnone hd rfl
  rw [assignmentSplice_of_counts hcounts] at hpart
  simp [Splice.lastAssignment?] at hpart

/-- The assignment to a key that comes last in a splice is the last one that its file makes on its
own. -/
theorem ownValue?_of_lastAssignment? (s : Site) (stack : List Location) (isImport : Bool)
    (path : Path) : ∀ r, s.spliceFrom stack isImport path = .ok r → ∀ key e,
      r.lastAssignment? key = some e → s.tree.ownValue? e.source key = some e.value := by
  induction stack, isImport, path using spliceFrom_induction (s := s) with
  | frame stack isImport path ih =>
  intro r h key e he
  obtain ⟨place, bytes, contents, hholds, hnew, hcontents, rfl⟩ := spliceFrom_eq_ok_iff.mp h
  rw [lastAssignment?_listed] at he
  obtain ⟨before, d, after, part, hsplit, hpart, hlast, hafter⟩ :=
    Splice.exists_winner_of_gather hcontents he
  cases d with
  | assignment k v =>
    obtain rfl := Except.ok.inj hpart
    obtain ⟨hmem, hkey⟩ := Splice.mem_of_lastAssignment? hlast
    obtain ⟨rfl, hcounts⟩ := mem_assignmentSplice hmem
    obtain rfl : k = key := hkey
    exact ownValue?_of_split hholds hsplit hcounts hafter
  | importing target =>
    obtain ⟨_, q, _, r', _, hr', hlast', -⟩ := Splice.exists_winner_of_gather hpart hlast
    exact ih place bytes hholds hnew q r' hr' key e hlast'

/-- If a splice assigns nothing to a key other than the mode key, then neither the file nor any of
those imported for it does so in its own lines. -/
theorem ownValue?_eq_none_of_imported (s : Site) (stack : List Location) (isImport : Bool)
    (path : Path) : ∀ r, s.spliceFrom stack isImport path = .ok r → ∀ key, key ≠ s.modeKey →
      r.lastAssignment? key = none → ∀ p, p = path ∨ p ∈ r.imported →
        s.tree.ownValue? p key = none := by
  induction stack, isImport, path using spliceFrom_induction (s := s) with
  | frame stack isImport path ih =>
  intro r h key hkey hnone p hp
  obtain ⟨place, bytes, contents, hholds, hnew, hcontents, rfl⟩ := spliceFrom_eq_ok_iff.mp h
  rw [lastAssignment?_listed] at hnone
  have hown : s.tree.ownValue? path key = none :=
    ownValue?_eq_none hholds hcontents (fun hcounts => hkey hcounts.2) hnone
  have hcases : p = path ∨ p ∈ contents.imported := by
    rcases hp with heq | hlisted
    · exact .inl heq
    · exact (mem_imported_listed.mp hlisted).imp_left And.right
  rcases hcases with rfl | himported
  · exact hown
  · obtain ⟨d, hd, part, hpart, hmem⟩ := (Splice.mem_imported_of_gather_iff hcontents).mp himported
    have hpart' := Splice.lastAssignment?_eq_none_of_gather hcontents hnone hd hpart
    cases d with
    | assignment k value =>
      obtain rfl := Except.ok.inj hpart
      simp at hmem
    | importing target =>
      obtain ⟨q, hq, r', hr', hmem'⟩ := (Splice.mem_imported_of_gather_iff hpart).mp hmem
      have hr'' := Splice.lastAssignment?_eq_none_of_gather hpart hpart' hq hr'
      exact ih place bytes hholds hnew q r' hr' key hkey hr'' p (.inr hmem')

/-- The mode key has the value in a splice that the file assigns to it on its own. -/
theorem lastValue?_modeKey {r : Splice} (h : s.splice path = .ok r) :
    r.lastValue? s.modeKey = s.tree.ownValue? path s.modeKey := by
  obtain ⟨place, bytes, contents, hholds, -, hcontents, hr⟩ := spliceFrom_eq_ok_iff.mp h
  obtain rfl : r = contents := hr
  rw [Splice.lastValue?_eq_map]
  cases hlast : r.lastAssignment? s.modeKey with
  | none =>
    rw [ownValue?_eq_none hholds hcontents (by simp) hlast]
    rfl
  | some e =>
    obtain ⟨before, d, after, part, hsplit, hpart, hlast', hafter⟩ :=
      Splice.exists_winner_of_gather hcontents hlast
    obtain ⟨hmem, hkey⟩ := Splice.mem_of_lastAssignment? hlast'
    cases d with
    | assignment k v =>
      obtain rfl := Except.ok.inj hpart
      obtain ⟨rfl, hcounts⟩ := mem_assignmentSplice hmem
      obtain rfl : k = s.modeKey := hkey
      rw [ownValue?_of_split hholds hsplit hcounts hafter]
      rfl
    | importing target =>
      obtain ⟨q, hq, r', hr', hmem'⟩ := Splice.mem_entries_of_gather hpart hmem
      exact absurd hkey (key_ne_modeKey_of_imported hr' hmem')

end Site

end LayeredEnv
