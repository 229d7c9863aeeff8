import LayeredEnv.Proofs.PlainSplice
import LayeredEnv.Proofs.ReferenceSemantics
import LayeredEnv.Proofs.RewrittenFile
import LayeredEnv.Proofs.SideTables

/-!
# Resolutions that agree but for one key

An assignment that is appended to a file of the tree may be read many times: the file may be a layer
for several reasons, by links, and any layer may import it.  To compare the resolutions over the two
trees, the key of the assignment is left out of what is read.

A splice without a key (`Splice.without`) is the same for both trees, because the appended line has
no part in it, and so are the scans, the chase and the cascade (`Site.cascade_without`).  Both fail
in the same way or not at all, since a key that is no mode key is in no fault before the
conversions, and without a conversion in none of theirs.  What is left to tell of the second
resolution is then what the key itself is bound to (`Request.complete_of_without`).
-/

namespace LayeredEnv

/-- Computations that agree in what is made of their results fail in the same way, or both give a
result. -/
theorem cases_of_map_eq_map {ε : Type u} {α : Type v} {β : Type w} {γ : Type z} {x : Except ε α}
    {y : Except ε β} {f : α → γ} {g : β → γ} (h : x.map f = y.map g) :
    (∃ e, x = .error e ∧ y = .error e) ∨ ∃ a b, x = .ok a ∧ y = .ok b ∧ f a = g b := by
  cases x with
  | error e =>
    cases y with
    | error e' =>
      obtain rfl : e = e' := Except.error.inj h
      exact .inl ⟨e, rfl, rfl⟩
    | ok b => cases h
  | ok a =>
    cases y with
    | error e => cases h
    | ok b => exact .inr ⟨a, b, rfl, rfl, Except.ok.inj h⟩

/-- A walk along a list finds the same first with tests that agree on its members. -/
theorem findSome?_congr {α : Type u} {β : Type v} {f g : α → Option β} {l : List α}
    (h : ∀ a ∈ l, f a = g a) : l.findSome? f = l.findSome? g := by
  induction l with
  | nil => rfl
  | cons a rest ih =>
    obtain ⟨hfirst, hrest⟩ := List.forall_mem_cons.mp h
    rw [List.findSome?_cons, List.findSome?_cons, hfirst, ih hrest]

/-! ### Leaving a key out -/

namespace Splice

variable {key other : String}

/-- The splice without the assignments to a key. -/
def without (key : String) (s : Splice) : Splice :=
  ⟨s.entries.filter fun e => e.key != key, s.imported⟩

@[simp] theorem without_append (key : String) (a b : Splice) :
    (a.append b).without key = (a.without key).append (b.without key) := by
  simp [without, append, List.filter_append]

/-- Other keys have the same last assignment. -/
theorem lastAssignment?_without (h : other ≠ key) (s : Splice) :
    (s.without key).lastAssignment? other = s.lastAssignment? other := by
  unfold lastAssignment? without
  rw [← List.filter_reverse, List.find?_filter]
  congr 1
  funext e
  by_cases he : e.key = other
  · simp [he, h]
  · simp [he]

/-- Two lists put together gather one after the other. -/
theorem gather_append {α ε : Type} (f : α → Except ε Splice) (l m : List α) :
    gather f (l ++ m) = (gather f l).bind fun first => (gather f m).map first.append := by
  induction l with
  | nil =>
    have hid : empty.append = id := funext empty_append
    simp [gather, Except.bind, hid]
  | cons a rest ih =>
    rw [List.cons_append, gather, gather, ih]
    cases f a with
    | error e => rfl
    | ok first =>
      cases gather f rest with
      | error e => rfl
      | ok others =>
        cases gather f m with
        | error e => rfl
        | ok further => simp [Except.bind, Except.map, append_assoc]

/-- Members that agree without a key gather to splices that agree without it. -/
theorem gather_without_congr {α ε : Type} {f g : α → Except ε Splice} {l : List α}
    (h : ∀ a ∈ l, (f a).map (without key) = (g a).map (without key)) :
    (gather f l).map (without key) = (gather g l).map (without key) := by
  induction l with
  | nil => rfl
  | cons a rest ih =>
    obtain ⟨hfirst, hrest⟩ := List.forall_mem_cons.mp h
    rw [gather, gather]
    rcases cases_of_map_eq_map hfirst with ⟨e, hf, hg⟩ | ⟨first, first', hf, hg, hwithout⟩
    · rw [hf, hg]
    · rw [hf, hg]
      rcases cases_of_map_eq_map (ih hrest) with ⟨e, hf, hg⟩ | ⟨others, others', hf, hg, hothers⟩
      · simp only [hf, hg]
      · simp only [hf, hg, Except.map, without_append, hwithout, hothers]

/-- A last member of which nothing is left without a key changes nothing else. -/
theorem gather_concat_without {α ε : Type} {f : α → Except ε Splice} {x : α} {extra : Splice}
    (hextra : f x = .ok extra) (hempty : extra.without key = empty) (l : List α) :
    (gather f (l ++ [x])).map (without key) = (gather f l).map (without key) := by
  have hlast : gather f [x] = .ok extra := by
    rw [gather, hextra, gather]
    simp
  rw [gather_append, hlast]
  cases gather f l with
  | error e => rfl
  | ok others => simp [Except.bind, Except.map, hempty]

end Splice

namespace FileTree

variable {t t' : FileTree} {place : Location} {added : Directive} {p : Path} {l : Location}
  {bytes : List UInt8}

/-- The second tree is the first one with one more directive at the end of the file at the place. -/
structure Appended (t t' : FileTree) (place : Location) (added : Directive) : Prop where
  shape : t.SameShape t'
  here : ∃ bytes bytes', t.bytesAt? place = some bytes ∧ t'.bytesAt? place = some bytes' ∧
    EnvFile.directivesOf bytes' = EnvFile.directivesOf bytes ++ [added]
  elsewhere : ∀ l, l ≠ place → t'.bytesAt? l = t.bytesAt? l

/-- What holds something in one of the trees does so in the other one, with the same directives or
with the added one behind them. -/
theorem Appended.exists_holds (h : t.Appended t' place added) (hholds : t.Holds p l bytes) :
    ∃ bytes', t'.Holds p l bytes' ∧
      (EnvFile.directivesOf bytes' = EnvFile.directivesOf bytes ∨
        EnvFile.directivesOf bytes' = EnvFile.directivesOf bytes ++ [added]) := by
  have hlocated : t'.locate p = .ok l := (h.shape.locate p).symm.trans hholds.located
  by_cases hl : l = place
  · obtain ⟨before, bytes', hbefore, hbytes', hdirectives⟩ := h.here
    subst hl
    obtain rfl := Option.some.inj (hbefore.symm.trans hholds.readable)
    exact ⟨bytes', ⟨hlocated, hbytes'⟩, .inr hdirectives⟩
  · have hreadable : t'.bytesAt? l = some bytes := (h.elsewhere l hl).trans hholds.readable
    exact ⟨bytes, ⟨hlocated, hreadable⟩, .inl rfl⟩

/-- What holds nothing in the one tree holds nothing in the other one. -/
theorem Appended.not_holds (h : t.Appended t' place added)
    (hnone : ∀ l bytes, ¬ t.Holds p l bytes) : ∀ l bytes, ¬ t'.Holds p l bytes := by
  intro l bytes hholds
  have hlocated : t.locate p = .ok l := (h.shape.locate p).trans hholds.located
  by_cases hl : l = place
  · obtain ⟨before, -, hbefore, -⟩ := h.here
    exact hnone l before ⟨hlocated, hl ▸ hbefore⟩
  · exact hnone l bytes ⟨hlocated, (h.elsewhere l hl).symm.trans hholds.readable⟩

end FileTree

namespace Site

variable {s : Site} {tree' : FileTree} {place : Location} {key value : String}

@[simp] theorem without_listed (key : String) (isImport : Bool) (path : Path) (contents : Splice) :
    (listed isImport path contents).without key = listed isImport path (contents.without key) := by
  cases isImport <;> rfl

/-- A key may be left out before a file is listed. -/
theorem map_listed_without (x : Except Fault Splice) (key : String) (isImport : Bool)
    (path : Path) :
    (x.map (listed isImport path)).map (Splice.without key) =
      (x.map (Splice.without key)).map (listed isImport path) := by
  cases x with
  | error e => rfl
  | ok contents => exact congrArg Except.ok (without_listed key isImport path contents)

/-- Without its key an assignment adds nothing. -/
theorem without_assignmentSplice (s : Site) (isImport : Bool) (path : Path) (key value : String) :
    (s.assignmentSplice isImport path key value).without key = .empty := by
  unfold assignmentSplice
  split
  · rfl
  · simp [Splice.without, Splice.empty]

/-- Imports find the same files. -/
theorem importedBy_congr (h : s.tree.SameShape tree') (source : Path) (target : String) :
    { s with tree := tree' }.importedBy source target = s.importedBy source target :=
  List.filter_congr fun p _ => (h.isFile p).symm

/-- Directives agree without a key if the files they import do. -/
theorem directiveSplice_without_congr (h : s.tree.SameShape tree')
    {read read' : Path → Except Fault Splice}
    (hread : ∀ p, (read' p).map (Splice.without key) = (read p).map (Splice.without key))
    (isImport : Bool) (path : Path) (d : Directive) :
    ({ s with tree := tree' }.directiveSplice isImport path read' d).map (Splice.without key) =
      (s.directiveSplice isImport path read d).map (Splice.without key) := by
  cases d with
  | assignment key' value => rfl
  | importing target =>
    rw [directiveSplice, directiveSplice, importedBy_congr h]
    exact Splice.gather_without_congr fun p _ => hread p

/-- A splice agrees with the one from the tree with one more assignment, if the key of that one is
left out. -/
theorem spliceFrom_without (h : s.tree.Appended tree' place (.assignment key value))
    (stack : List Location) (isImport : Bool) (path : Path) :
    ({ s with tree := tree' }.spliceFrom stack isImport path).map (Splice.without key) =
      (s.spliceFrom stack isImport path).map (Splice.without key) := by
  induction stack, isImport, path using spliceFrom_induction (s := s) with
  | frame stack isImport path ih =>
  by_cases hreadable : ∃ l bytes, s.tree.Holds path l bytes
  · obtain ⟨l, bytes, hholds⟩ := hreadable
    obtain ⟨bytes', hholds', hdirectives⟩ := h.exists_holds hholds
    rw [spliceFrom_of_holds hholds, spliceFrom_of_holds hholds']
    split
    · rfl
    · next hnew =>
      have hread := ih l bytes hholds hnew
      have hadds : { s with tree := tree' }.directiveSplice isImport path
          ({ s with tree := tree' }.spliceFrom (stack ++ [l]) true) (.assignment key value) =
            .ok _ := rfl
      have hmembers := fun ds : List Directive => Splice.gather_without_congr (l := ds) fun d _ =>
        directiveSplice_without_congr h.shape hread isImport path d
      rw [map_listed_without, map_listed_without]
      refine congrArg (Except.map (listed isImport path)) ?_
      rcases hdirectives with hsame | hadded
      · rw [hsame, hmembers]
      · rw [hadded, Splice.gather_concat_without hadds (without_assignmentSplice ..), hmembers]
  · have hnone : ∀ l bytes, ¬ s.tree.Holds path l bytes := fun l bytes hholds =>
      hreadable ⟨l, bytes, hholds⟩
    rw [spliceFrom_of_not_holds hnone, spliceFrom_of_not_holds (h.not_holds hnone),
      h.shape.locate path]

end Site

/-- The scan without the assignments to a key. -/
def Scan.without (key : String) (scan : Scan) : Scan :=
  ⟨scan.layer, scan.contents.without key⟩

/-- The cascade without the assignments to a key. -/
def Cascade.without (key : String) (c : Cascade) : Cascade :=
  ⟨c.scans.map (Scan.without key), c.mode⟩

/-- The mode hangs on the assignments to the mode key only. -/
theorem firstDeclaredMode?_map_without {modeKey key : String} (hkey : key ≠ modeKey)
    (scans : List Scan) :
    firstDeclaredMode? modeKey (scans.map (Scan.without key)) =
      firstDeclaredMode? modeKey scans := by
  have hscan : Scan.declaredMode? modeKey ∘ Scan.without key = Scan.declaredMode? modeKey := by
    funext scan
    simp only [Function.comp_apply, Scan.declaredMode?, Scan.without, Splice.lastValue?_eq_map,
      Splice.lastAssignment?_without hkey.symm]
  rw [firstDeclaredMode?, List.findSome?_map, hscan, firstDeclaredMode?]

namespace Site

variable {s : Site} {tree' : FileTree} {place : Location} {key value : String}

theorem scan_without (h : s.tree.Appended tree' place (.assignment key value)) (layer : Layer) :
    ({ s with tree := tree' }.scan layer).map (Option.map (Scan.without key)) =
      (s.scan layer).map (Option.map (Scan.without key)) := by
  have hsplice := spliceFrom_without h [] false layer.path
  unfold scan splice
  rw [h.shape.isFile]
  split
  · rcases cases_of_map_eq_map hsplice with ⟨e, hx, hy⟩ | ⟨contents, contents', hx, hy, hcontents⟩
    · rw [hx, hy]
    · rw [hx, hy]
      exact congrArg (fun contents => Except.ok (some (Scan.mk layer contents))) hcontents
  · rfl

theorem scanAll_without (h : s.tree.Appended tree' place (.assignment key value))
    (layers : List Layer) :
    ({ s with tree := tree' }.scanAll layers).map (List.map (Scan.without key)) =
      (s.scanAll layers).map (List.map (Scan.without key)) := by
  induction layers with
  | nil => rfl
  | cons layer rest ih =>
    rw [scanAll, scanAll]
    rcases cases_of_map_eq_map (scan_without h layer) with
      ⟨e, hx, hy⟩ | ⟨found, found', hx, hy, hfound⟩
    · simp only [hx, hy]
    · rcases cases_of_map_eq_map ih with ⟨e, hx', hy'⟩ | ⟨others, others', hx', hy', hothers⟩
      · simp only [hx, hy, hx', hy']
      · simp only [hx, hy, hx', hy', Except.map, List.map_append, hothers,
          ← Option.toList_map, hfound]

theorem chase_without (h : s.tree.Appended tree' place (.assignment key value))
    (hkey : key ≠ s.modeKey) (visited : List String) (mode : ActiveMode) :
    ({ s with tree := tree' }.chase visited mode).map (Prod.map (List.map (Scan.without key)) id) =
      (s.chase visited mode).map (Prod.map (List.map (Scan.without key)) id) := by
  induction visited, mode using chase_induction (s := s) with
  | step visited mode ih =>
  have hlayers := scanAll_without h (s.modeLayers mode.name)
  rcases cases_of_map_eq_map hlayers with ⟨e, hx, hy⟩ | ⟨scans, scans', hx, hy, hscans⟩
  · rw [chase_of_error (s := { s with tree := tree' }) hx, chase_of_error hy]
  · have hdeclared : firstDeclaredMode? s.modeKey scans = firstDeclaredMode? s.modeKey scans' := by
      rw [← firstDeclaredMode?_map_without hkey, hscans, firstDeclaredMode?_map_without hkey]
    have hstop : Prod.map (List.map (Scan.without key)) id (scans, mode) =
        Prod.map (List.map (Scan.without key)) id (scans', mode) := by
      simp only [Prod.map, hscans]
    rw [chase_of_ok (s := { s with tree := tree' }) hx, chase_of_ok hy, hdeclared]
    cases hnext : firstDeclaredMode? s.modeKey scans' with
    | none => exact congrArg Except.ok hstop
    | some next =>
      dsimp only
      split
      · exact congrArg Except.ok hstop
      · split
        · rfl
        · next hnew =>
          rcases cases_of_map_eq_map (ih scans' next hy hnext hnew) with
            ⟨e, hx', hy'⟩ | ⟨further, further', hx', hy', hfurther⟩
          · rw [hx', hy']
            rfl
          · rw [hx', hy']
            obtain ⟨hothers, hlast⟩ := Prod.mk.inj hfurther
            simp only [Except.map, Prod.map, List.map_append, hscans, hothers, id] at hlast ⊢
            rw [hlast]

theorem chaseFrom_without (h : s.tree.Appended tree' place (.assignment key value))
    (hkey : key ≠ s.modeKey) (seed : Option ActiveMode) :
    ({ s with tree := tree' }.chaseFrom seed).map (Prod.map (List.map (Scan.without key)) id) =
      (s.chaseFrom seed).map (Prod.map (List.map (Scan.without key)) id) := by
  cases seed with
  | none => rfl
  | some mode =>
    rw [chaseFrom_some, chaseFrom_some]
    rcases cases_of_map_eq_map (chase_without h hkey [mode.name] mode) with
      ⟨e, hx, hy⟩ | ⟨chased, chased', hx, hy, hchased⟩
    · rw [hx, hy]
    · obtain ⟨hscans, hlast⟩ := Prod.mk.inj hchased
      rw [hx, hy]
      simp only [Except.map, Prod.map, hscans, id] at hlast ⊢
      rw [hlast]

/-- The cascades over the two trees agree without the key, or they fail in the same way. -/
theorem cascade_without (h : s.tree.Appended tree' place (.assignment key value))
    (hkey : key ≠ s.modeKey) (precedence : ModePrecedence) (live : Option String) :
    ({ s with tree := tree' }.cascade precedence live).map (Cascade.without key) =
      (s.cascade precedence live).map (Cascade.without key) := by
  have hlayers : { s with tree := tree' }.fixedLayers = s.fixedLayers := rfl
  unfold cascade
  rw [hlayers]
  rcases cases_of_map_eq_map (scanAll_without h s.fixedLayers) with
    ⟨e, hx, hy⟩ | ⟨fixed, fixed', hx, hy, hfixed⟩
  · rw [hx, hy]
  · have hdeclared : firstDeclaredMode? s.modeKey fixed = firstDeclaredMode? s.modeKey fixed' := by
      rw [← firstDeclaredMode?_map_without hkey, hfixed, firstDeclaredMode?_map_without hkey]
    simp only [hx, hy, hdeclared]
    rcases cases_of_map_eq_map (chaseFrom_without h hkey (precedence.seed
        (live.map (⟨·, .environment⟩)) (firstDeclaredMode? s.modeKey fixed'))) with
      ⟨e, hx', hy'⟩ | ⟨⟨chased, last⟩, ⟨chased', last'⟩, hx', hy', hchased⟩
    · simp only [hx', hy']
    · obtain ⟨hscans, rfl⟩ := Prod.mk.inj hchased
      simp only [hx', hy', Except.map, Cascade.without, List.map_append, hfixed, hscans, id]

end Site

namespace Cascade

variable {c c' : Cascade} {key other : String}

/-- Leaving a key out leaves no file out. -/
theorem layers_without (key : String) (c : Cascade) : (c.without key).layers = c.layers := by
  rw [layers, layers, without, List.flatMap_map]
  rfl

/-- Scans that agree without a key give the same to every other key. -/
theorem findSome?_binding?_without (hother : other ≠ key) (scans : List Scan) :
    ((scans.map (Scan.without key)).findSome? fun scan => scan.binding? other) =
      scans.findSome? fun scan => scan.binding? other := by
  rw [List.findSome?_map]
  congr 1
  funext scan
  exact congrArg (Option.map _) (Splice.lastAssignment?_without hother scan.contents)

end Cascade

namespace Request

variable {r : Request} {tree tree' : FileTree} {env : LiveEnvironment} {c c' : Cascade}
  {key : String}

/-! ### After the cascade -/

/-- Before the conversions, cascades that agree without a key bind every other key alike. -/
theorem get?_rawBindings_of_without (hwithout : c'.without key = c.without key) {other : String}
    (hother : other ≠ key) :
    (r.rawBindings env c').get? other = (r.rawBindings env c).get? other := by
  obtain ⟨hscans, hmode⟩ := Cascade.mk.inj hwithout
  by_cases hmodeKey : other = r.modeKey
  · rw [hmodeKey, get?_rawBindings_modeKey, get?_rawBindings_modeKey, hmode]
  · rw [get?_rawBindings hmodeKey, get?_rawBindings hmodeKey,
      ← Cascade.findSome?_binding?_without hother c'.scans, hscans,
      Cascade.findSome?_binding?_without hother]

theorem convertBinding_of_plain (hconversion : r.conversions.get? key = none) (b : Binding String) :
    r.convertBinding key b = .ok ⟨.string b.value, b.origin⟩ := by
  rw [convertBinding, hconversion]

/-- A key without a conversion has no part in what keeps bindings from being converted. -/
theorem findSome?_errorOf?_insert (hconversion : r.conversions.get? key = none)
    (m : KeyMap (Binding String)) (b : Binding String) :
    ((m.insert key b).entries.findSome? fun p => errorOf? (r.convertBinding p.1 p.2)) =
      m.entries.findSome? fun p => errorOf? (r.convertBinding p.1 p.2) := by
  rw [findSome?_errorOf?_convertBinding, findSome?_errorOf?_convertBinding]
  refine findSome?_congr fun p hp => ?_
  have hp : r.conversions.get? p.1 = some p.2 := KeyMap.mem_entries_iff.mp hp
  have hne : p.1 ≠ key := by
    intro hkey
    rw [hkey, hconversion] at hp
    exact absurd hp.symm (Option.some_ne_none p.2)
  rw [KeyMap.map_insert, KeyMap.get?_insert, if_neg hne]

/-- A key without a conversion keeps its text, and every other key is converted as without it. -/
theorem convert_insert (hconversion : r.conversions.get? key = none)
    (m : KeyMap (Binding String)) (b : Binding String) :
    r.convert (m.insert key b) =
      (r.convert m).map fun converted => converted.insert key ⟨.string b.value, b.origin⟩ := by
  have hfault := findSome?_errorOf?_insert hconversion m b
  rw [convert, convert]
  rcases KeyMap.traverse_cases r.convertBinding m with
    ⟨hnone, converted, hwalk⟩ | ⟨e, hsome, hwalk⟩ <;>
  rcases KeyMap.traverse_cases r.convertBinding (m.insert key b) with
    ⟨hnone', converted', hwalk'⟩ | ⟨e', hsome', hwalk'⟩
  · rw [hwalk, hwalk']
    refine congrArg Except.ok (KeyMap.ext_get? fun other => ?_)
    rw [KeyMap.get?_insert]
    rw [KeyMap.get?_eq_bind_of_traverse hwalk', KeyMap.get?_insert]
    split
    · next hother =>
      rw [hother, Option.bind_some, convertBinding_of_plain hconversion]
      rfl
    · rw [KeyMap.get?_eq_bind_of_traverse hwalk]
  · exact absurd (hsome'.symm.trans (hfault.trans hnone)) (Option.some_ne_none e')
  · exact absurd (hsome.symm.trans (hfault.symm.trans hnone')) (Option.some_ne_none e)
  · obtain rfl : e = e' := Option.some.inj (hsome.symm.trans (hfault.symm.trans hsome'))
    rw [hwalk, hwalk']
    rfl

theorem fillDefaults_insert (r : Request) (m : KeyMap (Binding Json)) (key : String)
    (b : Binding Json) : r.fillDefaults (m.insert key b) = (r.fillDefaults m).insert key b := by
  refine KeyMap.ext_get? fun other => ?_
  simp only [get?_fillDefaults, KeyMap.get?_insert]
  split
  · rw [Option.some_or]
  · rfl

/-- A cascade that agrees with another one without a key, and that binds the key, is completed to
the same with that binding put in. -/
theorem complete_of_without (hschema : r.schema = none) (hrequired : r.required = [])
    (hconversion : r.conversions.get? key = none) (hwithout : c'.without key = c.without key)
    {b : Binding String} (hbound : (r.rawBindings env c').get? key = some b) :
    r.complete env c' = (r.complete env c).map fun result =>
      { result with bindings := result.bindings.insert key ⟨.string b.value, b.origin⟩ } := by
  have hraw : r.rawBindings env c' = (r.rawBindings env c).insert key b := by
    refine KeyMap.ext_get? fun other => ?_
    rw [KeyMap.get?_insert]
    split
    · next hother => rw [hother, hbound]
    · next hother => exact get?_rawBindings_of_without hwithout hother
  have hlayers : c'.layers = c.layers := by
    rw [← Cascade.layers_without key, hwithout, Cascade.layers_without]
  have hmode : c'.mode = c.mode := (Cascade.mk.inj hwithout).2
  have hexamine : ∀ result, r.examine result = .ok result := by
    intro result
    rw [examine, hrequired]
    rfl
  have happly : ∀ m, r.applySchema m = .ok m := fun m => by rw [applySchema, hschema]
  unfold complete
  rw [hraw, convert_insert hconversion, hlayers, hmode]
  cases r.convert (r.rawBindings env c) with
  | error e => rfl
  | ok converted =>
    simp only [Except.map, bind, Except.bind, fillDefaults_insert, happly, hexamine]

end Request

end LayeredEnv
