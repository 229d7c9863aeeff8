import LayeredEnv.Proofs.OwnLines

/-!
# The plain splice

What a splice consists of can be told without a word about cycles: the lines of a file in order,
each import replaced by the splices of the candidates that are there.  `Site.PlainSplice` says just
that, by rules for files, lines and candidates.  The rules look at nothing but the path and lead to
one result at most (`Site.PlainSplice.unique`), so a file contributes the same wherever it is
imported; on a cycle they never come to an end, and then there is no result.

`Site.splice` differs from it in its guard, the stack of the files being read.  A walk that works in
place differs further: `Site.expandInto` goes through nested loops that push to one stack, pop from
it, and write to one output.  It takes its stack back to where it was, which is part of its type,
since the loops that go on with the stack end for no other reason.  What it writes is the splice
behind whatever was written before (`Site.expandInto_eq`), and a splice is the plain one
(`Site.plainSplice_of_spliceFrom`).

Main statement: `Site.splice_is_plain`.
-/

namespace LayeredEnv

namespace Splice

variable {α ε : Type}

/-! ### Passing over members of a list -/

@[simp] theorem append_empty (s : Splice) : s.append empty = s := by
  simp [append, empty]

@[simp] theorem empty_append (s : Splice) : empty.append s = s := by
  simp [append, empty]

theorem append_assoc (a b c : Splice) : (a.append b).append c = a.append (b.append c) := by
  simp [append]

/-- Members that are passed over contribute nothing. -/
theorem gather_filter (keep : α → Bool) (f : α → Except ε Splice) (l : List α) :
    gather f (l.filter keep) = gather (fun a => if keep a then f a else .ok empty) l := by
  induction l with
  | nil => rfl
  | cons a rest ih =>
    cases hkeep : keep a with
    | true =>
      rw [List.filter_cons_of_pos hkeep, gather, gather, ih, if_pos hkeep]
    | false =>
      rw [List.filter_cons_of_neg (by simp [hkeep]), gather, ih]
      cases gather (fun a => if keep a then f a else .ok empty) rest with
      | error e => simp [hkeep]
      | ok others => simp [hkeep]

end Splice

namespace Site

variable {s : Site} {stack : List Location} {isImport : Bool} {path : Path}

/-! ### Without a guard -/

mutual

/-- What a file contributes to a splice, told without a stack: what its lines do. -/
inductive PlainSplice (s : Site) : Bool → Path → Splice → Prop
  | file {isImport : Bool} {path : Path} {bytes : List UInt8} {r : Splice} :
      s.tree.read path = .ok bytes →
      PlainLines s isImport path (EnvFile.directivesOf bytes) r → PlainSplice s isImport path r

/-- What the lines of a file contribute, in order. -/
inductive PlainLines (s : Site) : Bool → Path → List Directive → Splice → Prop
  | nil {isImport : Bool} {path : Path} : PlainLines s isImport path [] .empty
  /-- In an imported file the assignments to the mode key are left out. -/
  | dropped {path : Path} {key value : String} {rest : List Directive} {r : Splice} :
      key = s.modeKey → PlainLines s true path rest r →
      PlainLines s true path (.assignment key value :: rest) r
  /-- Any other assignment has the file as its source. -/
  | assignment {isImport : Bool} {path : Path} {key value : String} {rest : List Directive}
      {r : Splice} : ¬ (isImport = true ∧ key = s.modeKey) → PlainLines s isImport path rest r →
      PlainLines s isImport path (.assignment key value :: rest)
        ⟨⟨key, value, path⟩ :: r.entries, r.imported⟩
  /-- An import is replaced by the splices of its candidates. -/
  | importing {isImport : Bool} {path : Path} {target : String} {rest : List Directive}
      {spliced r : Splice} : PlainImports s (s.candidates path target) spliced →
      PlainLines s isImport path rest r →
      PlainLines s isImport path (.importing target :: rest) (spliced.append r)

/-- What the candidates of an import contribute, in order. -/
inductive PlainImports (s : Site) : List Path → Splice → Prop
  | nil : PlainImports s [] .empty
  /-- A candidate that is no file contributes nothing. -/
  | absent {candidate : Path} {rest : List Path} {r : Splice} :
      s.tree.isFile candidate = false → PlainImports s rest r →
      PlainImports s (candidate :: rest) r
  /-- A candidate that is a file is listed as imported before the files that it imports. -/
  | present {candidate : Path} {rest : List Path} {part r : Splice} :
      s.tree.isFile candidate = true → PlainSplice s true candidate part →
      PlainImports s rest r →
      PlainImports s (candidate :: rest)
        (Splice.append ⟨part.entries, candidate :: part.imported⟩ r)

end

mutual

/-- A file contributes one thing only. -/
theorem PlainSplice.unique : ∀ {isImport : Bool} {path : Path} {r r' : Splice},
    s.PlainSplice isImport path r → s.PlainSplice isImport path r' → r = r'
  | _, _, _, _, .file hread hlines, .file hread' hlines' => by
    obtain rfl := Except.ok.inj (hread.symm.trans hread')
    exact hlines.unique hlines'

theorem PlainLines.unique :
    ∀ {isImport : Bool} {path : Path} {directives : List Directive} {r r' : Splice},
      s.PlainLines isImport path directives r → s.PlainLines isImport path directives r' → r = r'
  | _, _, _, _, _, .nil, .nil => rfl
  | _, _, _, _, _, .dropped _ hrest, .dropped _ hrest' => hrest.unique hrest'
  | _, _, _, _, _, .dropped hkey _, .assignment hother _ => absurd ⟨rfl, hkey⟩ hother
  | _, _, _, _, _, .assignment hother _, .dropped hkey _ => absurd ⟨rfl, hkey⟩ hother
  | _, _, _, _, _, .assignment _ hrest, .assignment _ hrest' => by rw [hrest.unique hrest']
  | _, _, _, _, _, .importing hspliced hrest, .importing hspliced' hrest' => by
    rw [hspliced.unique hspliced', hrest.unique hrest']

theorem PlainImports.unique : ∀ {candidates : List Path} {r r' : Splice},
    s.PlainImports candidates r → s.PlainImports candidates r' → r = r'
  | _, _, _, .nil, .nil => rfl
  | _, _, _, .absent _ hrest, .absent _ hrest' => hrest.unique hrest'
  | _, _, _, .absent habsent _, .present hfile _ _ => by
    rw [habsent] at hfile
    exact absurd hfile (by decide)
  | _, _, _, .present hfile _ _, .absent habsent _ => by
    rw [habsent] at hfile
    exact absurd hfile (by decide)
  | _, _, _, .present _ hpart hrest, .present _ hpart' hrest' => by
    rw [hpart.unique hpart', hrest.unique hrest']

end

/-- The files among the candidates of an import contribute what they do without the guard, if each
of them does. -/
theorem plainImports_of_gather {read : Path → Except Fault Splice}
    (hread : ∀ q part, read q = .ok part →
      ∃ contents, s.PlainSplice true q contents ∧ part = listed true q contents)
    {candidates : List Path} {r : Splice}
    (h : Splice.gather read (candidates.filter s.tree.isFile) = .ok r) :
    s.PlainImports candidates r := by
  induction candidates generalizing r with
  | nil =>
    obtain rfl := Except.ok.inj h
    exact .nil
  | cons q rest ih =>
    cases hfile : s.tree.isFile q with
    | false =>
      rw [List.filter_cons_of_neg (by simp [hfile])] at h
      exact .absent hfile (ih h)
    | true =>
      rw [List.filter_cons_of_pos hfile] at h
      obtain ⟨first, others, hfirst, hothers, rfl⟩ := Splice.exists_of_gather_cons h
      obtain ⟨contents, hcontents, rfl⟩ := hread q first hfirst
      exact .present hfile hcontents (ih hothers)

/-- The lines of a file contribute what they do without the guard, if the files that they import
do. -/
theorem plainLines_of_gather {read : Path → Except Fault Splice}
    (hread : ∀ q part, read q = .ok part →
      ∃ contents, s.PlainSplice true q contents ∧ part = listed true q contents)
    {directives : List Directive} {r : Splice}
    (h : Splice.gather (s.directiveSplice isImport path read) directives = .ok r) :
    s.PlainLines isImport path directives r := by
  induction directives generalizing r with
  | nil =>
    obtain rfl := Except.ok.inj h
    exact .nil
  | cons d rest ih =>
    obtain ⟨first, others, hfirst, hothers, rfl⟩ := Splice.exists_of_gather_cons h
    cases d with
    | importing target => exact .importing (plainImports_of_gather hread hfirst) (ih hothers)
    | assignment key value =>
      obtain rfl := Except.ok.inj hfirst
      by_cases hdropped : isImport = true ∧ key = s.modeKey
      · obtain ⟨rfl, hkey⟩ := hdropped
        rw [assignmentSplice_of_dropped hkey, Splice.empty_append]
        exact .dropped hkey (ih hothers)
      · rw [assignmentSplice_of_counts hdropped]
        exact .assignment hdropped (ih hothers)

/-- A splice is the plain one, whatever is on the stack. -/
theorem plainSplice_of_spliceFrom (s : Site) (stack : List Location) (isImport : Bool)
    (path : Path) : ∀ r, s.spliceFrom stack isImport path = .ok r →
      ∃ contents, s.PlainSplice isImport path contents ∧
        r = listed isImport path contents := by
  induction stack, isImport, path using spliceFrom_induction (s := s) with
  | frame stack isImport path ih =>
  intro r h
  obtain ⟨place, bytes, contents, hholds, hnew, hgather, rfl⟩ := spliceFrom_eq_ok_iff.mp h
  have hlines := plainLines_of_gather (ih place bytes hholds hnew) hgather
  exact ⟨contents, .file hholds.read hlines, rfl⟩

/-! ### In place -/

/-- A walk along imports on its way: the files being read, and what has been read so far. -/
structure Progress where
  stack : List Location
  output : Splice

namespace Progress

/-- Progress with these files being read. -/
abbrev At (stack : List Location) := { w : Progress // w.stack = stack }

/-- Reads some more. -/
def advance (w : At stack) (more : Splice) : At stack :=
  ⟨⟨w.1.stack, w.1.output.append more⟩, w.2⟩

@[simp] theorem advance_empty (w : At stack) : advance w .empty = w := by
  simp [advance]

theorem advance_advance (w : At stack) (a b : Splice) :
    advance (advance w a) b = advance w (a.append b) := by
  simp [advance, Splice.append_assoc]

/-- A file is read from here on. -/
def push (w : Progress) (place : Location) (more : Splice) : At (w.stack ++ [place]) :=
  ⟨⟨w.stack ++ [place], w.output.append more⟩, rfl⟩

/-- The file that is read has come to its end. -/
def pop {place : Location} (w : At (stack ++ [place])) : At stack :=
  ⟨⟨w.1.stack.dropLast, w.1.output⟩, by rw [w.2, List.dropLast_concat]⟩

/-- Between push and pop the stack comes back, and what was read in between stays. -/
theorem pop_advance_push (w : Progress) (place : Location) (a b : Splice) :
    pop (advance (w.push place a) b) = advance ⟨w, rfl⟩ (a.append b) := by
  refine Subtype.ext ?_
  simp [pop, advance, push, Splice.append_assoc]

/-- A loop each round of which reads what its member contributes reads what all of them contribute,
one after the other. -/
theorem foldlM_eq_gather {α : Type} {step : At stack → α → Except Fault (At stack)}
    {f : α → Except Fault Splice} (hstep : ∀ w a, step w a = (f a).map (advance w)) (l : List α)
    (w : At stack) : l.foldlM step w = (Splice.gather f l).map (advance w) := by
  induction l generalizing w with
  | nil => exact congrArg Except.ok (advance_empty w).symm
  | cons a rest ih =>
    rw [List.foldlM_cons, hstep, Splice.gather]
    cases f a with
    | error e => rfl
    | ok first =>
      have hrest : rest.foldlM step (advance w first) =
          (Splice.gather f rest).map (advance (advance w first)) := ih (advance w first)
      refine hrest.trans ?_
      cases Splice.gather f rest with
      | error e => rfl
      | ok others => exact congrArg Except.ok (advance_advance w first others)

end Progress

/-- Goes on with a line: writes its assignment behind what is there, or goes on with the candidates
of its import that are there, one after the other. -/
def expandLine (s : Site) (isImport : Bool) (path : Path)
    (expand : Path → Progress.At stack → Except Fault (Progress.At stack))
    (w : Progress.At stack) : Directive → Except Fault (Progress.At stack)
  | .assignment key value =>
    .ok (if isImport = true ∧ key = s.modeKey then w
      else Progress.advance w ⟨[⟨key, value, path⟩], []⟩)
  | .importing target =>
    (s.candidates path target).foldlM
      (fun w candidate => if s.tree.isFile candidate then expand candidate w else .ok w) w

/-- Goes on with a file: pushes it to the stack, goes on with its lines in order, and takes it from
the stack again. -/
def expandInto (s : Site) (isImport : Bool) (path : Path) (w : Progress) :
    Except Fault (Progress.At w.stack) :=
  match s.tree.locate path with
  | .error e => .error (.unreadableEnvFile path e)
  | .ok place =>
    if _hstack : place ∈ w.stack then .error (.importCycle (w.stack ++ [place]))
    else
      match _hbytes : s.tree.bytesAt? place with
      | none => .error (.unreadableEnvFile path .isADirectory)
      | some bytes =>
        ((EnvFile.directivesOf bytes).foldlM
          (s.expandLine isImport path fun candidate (inner : Progress.At (w.stack ++ [place])) =>
            (expandInto s true candidate inner.1).map fun further =>
              ⟨further.1, further.2.trans inner.2⟩)
          (w.push place ⟨[], if isImport then [path] else []⟩)).map Progress.pop
termination_by unvisited s.tree.readableLocations w.stack
decreasing_by
  rw [inner.2]
  exact unvisited_append_lt (FileTree.mem_readableLocations _hbytes) _hstack

/-- To list the file first is to write it before its contents. -/
theorem append_eq_listed (isImport : Bool) (path : Path) (contents : Splice) :
    (⟨[], if isImport then [path] else []⟩ : Splice).append contents =
      listed isImport path contents := by
  cases isImport <;> rfl

/-- A line writes what its directive contributes, if the candidates do. -/
theorem expandLine_eq {expand : Path → Progress.At stack → Except Fault (Progress.At stack)}
    {read : Path → Except Fault Splice}
    (hexpand : ∀ q w, expand q w = (read q).map (Progress.advance w)) (w : Progress.At stack)
    (d : Directive) :
    s.expandLine isImport path expand w d =
      (s.directiveSplice isImport path read d).map (Progress.advance w) := by
  cases d with
  | assignment key value =>
    by_cases hdropped : isImport = true ∧ key = s.modeKey
    · simp [expandLine, directiveSplice, assignmentSplice, hdropped, Except.map]
    · simp [expandLine, directiveSplice, assignmentSplice, hdropped, Except.map]
  | importing target =>
    rw [directiveSplice, importedBy, Splice.gather_filter]
    refine Progress.foldlM_eq_gather (fun w candidate => ?_) _ w
    cases hfile : s.tree.isFile candidate with
    | false => simp [Except.map]
    | true => simpa using hexpand candidate w

/-- A file that can be read is at fault if it is on the stack, and otherwise it is pushed, gone
through line by line, and popped. -/
theorem expandInto_of_holds {place : Location} {bytes : List UInt8} {w : Progress}
    (h : s.tree.Holds path place bytes) :
    s.expandInto isImport path w =
      if place ∈ w.stack then .error (.importCycle (w.stack ++ [place]))
      else ((EnvFile.directivesOf bytes).foldlM
        (s.expandLine isImport path fun candidate (inner : Progress.At (w.stack ++ [place])) =>
          (s.expandInto true candidate inner.1).map fun further =>
            ⟨further.1, further.2.trans inner.2⟩)
        (w.push place ⟨[], if isImport then [path] else []⟩)).map Progress.pop := by
  rw [expandInto]
  simp only [h.located]
  split
  · rfl
  · split
    · next hnone => simp [h.readable] at hnone
    · next found hfound =>
      obtain rfl := Option.some.inj (h.readable.symm.trans hfound)
      rfl

/-- A file that cannot be read is at fault in the same way with the walk in place. -/
theorem expandInto_of_not_holds {w : Progress}
    (h : ∀ place bytes, ¬ s.tree.Holds path place bytes) :
    s.expandInto isImport path w =
      (s.spliceFrom w.stack isImport path).map (Progress.advance ⟨w, rfl⟩) := by
  cases hlocate : s.tree.locate path with
  | error e =>
    rw [expandInto, spliceFrom]
    simp only [hlocate]
    rfl
  | ok place =>
    have hunreadable : s.tree.bytesAt? place = none :=
      Option.eq_none_iff_forall_ne_some.mpr fun bytes hbytes => h place bytes ⟨hlocate, hbytes⟩
    by_cases hstack : place ∈ w.stack
    · rw [expandInto, spliceFrom]
      simp only [hlocate, dif_pos hstack]
      rfl
    · have hexpand : s.expandInto isImport path w =
          .error (.unreadableEnvFile path .isADirectory) := by
        rw [expandInto]
        simp only [hlocate, dif_neg hstack]
        split
        · rfl
        · next hsome => simp [hunreadable] at hsome
      have hsplice : s.spliceFrom w.stack isImport path =
          .error (.unreadableEnvFile path .isADirectory) := by
        rw [spliceFrom]
        simp only [hlocate, dif_neg hstack]
        split
        · rfl
        · next hsome => simp [hunreadable] at hsome
      rw [hexpand, hsplice]
      rfl

/-- The walk in place takes its stack back to where it was and writes the splice behind what was
written before; it fails exactly as the splice does. -/
theorem expandInto_eq (s : Site) (stack : List Location) (isImport : Bool) (path : Path) :
    ∀ w : Progress, w.stack = stack → s.expandInto isImport path w =
      (s.spliceFrom w.stack isImport path).map (Progress.advance ⟨w, rfl⟩) := by
  induction stack, isImport, path using spliceFrom_induction (s := s) with
  | frame stack isImport path ih =>
  rintro w rfl
  by_cases hreadable : ∃ place bytes, s.tree.Holds path place bytes
  · obtain ⟨place, bytes, hholds⟩ := hreadable
    rw [expandInto_of_holds hholds, spliceFrom_of_holds hholds]
    by_cases hstack : place ∈ w.stack
    · rw [if_pos hstack, if_pos hstack]
      rfl
    · rw [if_neg hstack, if_neg hstack]
      have hinner : ∀ q (inner : Progress.At (w.stack ++ [place])),
          ((s.expandInto true q inner.1).map fun further =>
            (⟨further.1, further.2.trans inner.2⟩ : Progress.At (w.stack ++ [place]))) =
            (s.spliceFrom (w.stack ++ [place]) true q).map (Progress.advance inner) := by
        rintro q ⟨inner, hinner⟩
        rw [ih place bytes hholds hstack q inner hinner]
        generalize w.stack ++ [place] = within at hinner
        subst hinner
        cases s.spliceFrom inner.stack true q <;> rfl
      rw [Progress.foldlM_eq_gather (expandLine_eq hinner)]
      cases Splice.gather (s.directiveSplice isImport path fun p =>
          s.spliceFrom (w.stack ++ [place]) true p) (EnvFile.directivesOf bytes) with
      | error e => rfl
      | ok contents =>
        refine congrArg Except.ok ?_
        rw [Progress.pop_advance_push, append_eq_listed]
  · exact expandInto_of_not_holds fun place bytes hholds => hreadable ⟨place, bytes, hholds⟩

/-- Goes through a file from the start, with nothing on the stack and nothing written. -/
def expand (s : Site) (path : Path) : Except Fault Splice :=
  (s.expandInto false path ⟨[], .empty⟩).map fun w => w.1.output

/-- The walk in place from the start is the splice. -/
theorem expand_eq_splice (s : Site) (path : Path) : s.expand path = s.splice path := by
  have h := expandInto_eq s [] false path ⟨[], .empty⟩ rfl
  unfold expand splice
  rw [h]
  cases s.spliceFrom [] false path with
  | error e => rfl
  | ok r => exact congrArg Except.ok (Splice.empty_append r)

/-- Wherever the walk in place goes through an imported file, it writes the file and what its plain
splice imports, and the assignments of its plain splice, behind what is there. -/
theorem exists_plainSplice_of_expandInto {q : Path} {w : Progress} {w' : Progress.At w.stack}
    (h : s.expandInto true q w = .ok w') :
    ∃ contents, s.PlainSplice true q contents ∧ w'.1.stack = w.stack ∧
      w'.1.output = ⟨w.output.entries ++ contents.entries,
        w.output.imported ++ q :: contents.imported⟩ := by
  rw [expandInto_eq s w.stack true q w rfl] at h
  cases hsplice : s.spliceFrom w.stack true q with
  | error e => simp [hsplice, Except.map] at h
  | ok r =>
    obtain ⟨contents, hcontents, rfl⟩ := plainSplice_of_spliceFrom s w.stack true q r hsplice
    rw [hsplice] at h
    obtain rfl := Except.ok.inj h
    exact ⟨contents, hcontents, rfl, rfl⟩

/-! ### Every occurrence -/

/-- Wherever a file is listed as imported, the files that its plain splice imports come next, and
the assignments of its plain splice stand together. -/
def Unfolds (s : Site) (r : Splice) : Prop :=
  ∀ before q after, r.imported = before ++ q :: after →
    ∃ contents further earlier later, s.PlainSplice true q contents ∧
      after = contents.imported ++ further ∧ r.entries = earlier ++ contents.entries ++ later

/-- Without imported files there is nothing to unfold. -/
theorem Unfolds.of_imported_eq_nil {r : Splice} (h : r.imported = []) : s.Unfolds r := by
  intro before q after hsplit
  simp [h] at hsplit

/-- In splices one after the other an imported file is listed in one of them. -/
theorem Unfolds.append {a b : Splice} (ha : s.Unfolds a) (hb : s.Unfolds b) :
    s.Unfolds (a.append b) := by
  intro before q after h
  have hsecond : ∀ rest, b.imported = rest ++ q :: after →
      ∃ contents further earlier later, s.PlainSplice true q contents ∧
        after = contents.imported ++ further ∧
        (a.append b).entries = earlier ++ contents.entries ++ later := by
    intro rest hrest
    obtain ⟨contents, further, earlier, later, hcontents, hfurther, hentries⟩ :=
      hb rest q after hrest
    refine ⟨contents, further, a.entries ++ earlier, later, hcontents, hfurther, ?_⟩
    simp [Splice.append, hentries]
  rcases List.append_eq_append_iff.mp h with ⟨rest, -, hrest⟩ | ⟨rest, hrest, hafter⟩
  · exact hsecond rest hrest
  · cases rest with
    | nil => exact hsecond [] hafter.symm
    | cons first rest =>
      obtain ⟨rfl, hrest'⟩ := List.cons.inj hafter
      obtain ⟨contents, further, earlier, later, hcontents, rfl, hentries⟩ := ha before q rest hrest
      refine ⟨contents, further ++ b.imported, earlier, later ++ b.entries, hcontents, ?_, ?_⟩
      · rw [hrest', List.append_eq, List.append_assoc]
      · simp [Splice.append, hentries]

/-- What a list gathers unfolds its imported files if each part does. -/
theorem Unfolds.of_gather {α : Type} {f : α → Except Fault Splice}
    (hf : ∀ a part, f a = .ok part → s.Unfolds part) {l : List α} {r : Splice}
    (h : Splice.gather f l = .ok r) : s.Unfolds r := by
  induction l generalizing r with
  | nil =>
    obtain rfl := Except.ok.inj h
    exact .of_imported_eq_nil rfl
  | cons a rest ih =>
    obtain ⟨first, others, hfirst, hothers, rfl⟩ := Splice.exists_of_gather_cons h
    exact (hf a first hfirst).append (ih hothers)

/-- A splice tells what its file contributes. -/
theorem listed_injective {contents contents' : Splice}
    (h : listed isImport path contents = listed isImport path contents') :
    contents = contents' := by
  cases isImport with
  | false => exact h
  | true =>
    obtain ⟨hentries, himported⟩ := Splice.mk.inj h
    exact congrArg₂ Splice.mk hentries (List.cons.inj himported).2

/-- In a splice every imported file is unfolded wherever it is listed. -/
theorem unfolds_of_spliceFrom (s : Site) (stack : List Location) (isImport : Bool) (path : Path) :
    ∀ r, s.spliceFrom stack isImport path = .ok r → s.Unfolds r := by
  induction stack, isImport, path using spliceFrom_induction (s := s) with
  | frame stack isImport path ih =>
  intro r h
  obtain ⟨contents, hplain, rfl⟩ := plainSplice_of_spliceFrom s stack isImport path r h
  obtain ⟨place, bytes, contents', hholds, hnew, hgather, hlisted⟩ := spliceFrom_eq_ok_iff.mp h
  obtain rfl : contents = contents' := listed_injective hlisted
  have hcontents : s.Unfolds contents := by
    refine .of_gather (fun d part hpart => ?_) hgather
    cases d with
    | assignment key value =>
      obtain rfl := Except.ok.inj hpart
      exact .of_imported_eq_nil (imported_assignmentSplice ..)
    | importing target =>
      exact .of_gather (fun q part => ih place bytes hholds hnew q part) hpart
  cases isImport with
  | false => exact hcontents
  | true =>
    intro before q after hsplit
    cases before with
    | nil =>
      obtain ⟨rfl, rfl⟩ := List.cons.inj hsplit
      exact ⟨contents, [], [], [], hplain, by simp, by simp [listed]⟩
    | cons first before =>
      exact hcontents before q after (List.cons.inj hsplit).2

/-- What a file contributes as an import depends on its path only. -/
theorem exists_contribution (s : Site) :
    ∃ contribution : Path → Splice, ∀ q contents, s.PlainSplice true q contents →
      contents = contribution q := by
  have hone : ∀ q, ∃ one, ∀ contents, s.PlainSplice true q contents → contents = one := by
    intro q
    by_cases hsome : ∃ one, s.PlainSplice true q one
    · obtain ⟨one, hplain⟩ := hsome
      exact ⟨one, fun contents h => h.unique hplain⟩
    · exact ⟨.empty, fun contents h => absurd ⟨contents, h⟩ hsome⟩
  exact Classical.skolem.mp hone

/-- A file that can be spliced has its plain splice as its splice and nothing else, and that is also
what the walk in place makes of it.  An imported file contributes its plain splice, with itself
listed first, whatever is on the stack and whatever was read before, and so it does wherever it is
listed: what it contributes is told by its path. -/
theorem splice_is_plain {r : Splice} (h : s.splice path = .ok r) :
    (∀ r', s.PlainSplice false path r' ↔ r' = r) ∧ s.expand path = .ok r ∧
      ∃ contribution : Path → Splice,
        (∀ q w w', s.expandInto true q w = .ok w' → s.PlainSplice true q (contribution q) ∧
          w'.1.stack = w.stack ∧
          w'.1.output = ⟨w.output.entries ++ (contribution q).entries,
            w.output.imported ++ q :: (contribution q).imported⟩) ∧
        ∀ before q after, r.imported = before ++ q :: after →
          s.PlainSplice true q (contribution q) ∧
            ∃ further earlier later, after = (contribution q).imported ++ further ∧
              r.entries = earlier ++ (contribution q).entries ++ later := by
  obtain ⟨contents, hcontents, rfl⟩ := plainSplice_of_spliceFrom s [] false path r h
  obtain ⟨contribution, hcontribution⟩ := exists_contribution s
  refine ⟨fun r' => ⟨fun h' => h'.unique hcontents, fun h' => h' ▸ hcontents⟩,
    (expand_eq_splice s path).trans h, contribution, fun q w w' hexpand => ?_,
    fun before q after hlisted => ?_⟩
  · obtain ⟨part, hpart, hstack, houtput⟩ := exists_plainSplice_of_expandInto hexpand
    obtain rfl := hcontribution q part hpart
    exact ⟨hpart, hstack, houtput⟩
  · obtain ⟨part, further, earlier, later, hpart, hfurther, hentries⟩ :=
      unfolds_of_spliceFrom s [] false path _ h before q after hlisted
    obtain rfl := hcontribution q part hpart
    exact ⟨hpart, further, earlier, later, hfurther, hentries⟩

/-- Two files import a third one, which imports a fourth one; the second of them is left without its
assignment to the mode key. -/
def sharedImports : Site where
  tree :=
    { nodes := [
        (["w", ".env"], .file (Utf8.encode "import a\nA=own\nimport b") false),
        (["w", ".env.a"], .file (Utf8.encode "import c") false),
        (["w", ".env.b"], .file (Utf8.encode "MODE=x\nimport c") false),
        (["w", ".env.c"], .file (Utf8.encode "C=1\nimport d") false),
        (["w", ".env.d"], .file (Utf8.encode "D=1") false)]
      workingDirectory := ["w"] }
  directory := ⟨"."⟩
  scheme := ⟨.after, .after⟩
  modeKey := "MODE"

/-- The file that is imported twice contributes the same both times. -/
theorem splice_sharedImports :
    ∃ r, sharedImports.splice ⟨".env"⟩ = .ok r ∧ sharedImports.PlainSplice false ⟨".env"⟩ r ∧
      r.entries.map (fun e => (e.key, e.source.text)) =
        [("C", ".env.c"), ("D", ".env.d"), ("A", ".env"), ("C", ".env.c"), ("D", ".env.d")] ∧
      ∃ contents further further', sharedImports.PlainSplice true ⟨".env.c"⟩ contents ∧
        [⟨".env.d"⟩, ⟨".env.b"⟩, ⟨".env.c"⟩, ⟨".env.d"⟩] = contents.imported ++ further ∧
        [⟨".env.d"⟩] = contents.imported ++ further' := by
  have hentries : (sharedImports.splice ⟨".env"⟩).toOption.map (fun r =>
      r.entries.map fun e => (e.key, e.source.text)) = some
        [("C", ".env.c"), ("D", ".env.d"), ("A", ".env"), ("C", ".env.c"), ("D", ".env.d")] := by
    decide +kernel
  have himported : (sharedImports.splice ⟨".env"⟩).toOption.map Splice.imported =
      some [⟨".env.a"⟩, ⟨".env.c"⟩, ⟨".env.d"⟩, ⟨".env.b"⟩, ⟨".env.c"⟩, ⟨".env.d"⟩] := by
    decide +kernel
  cases hsplice : sharedImports.splice ⟨".env"⟩ with
  | error e => simp [hsplice, Except.toOption] at hentries
  | ok r =>
    rw [hsplice] at hentries himported
    have hlisted : r.imported =
        [⟨".env.a"⟩, ⟨".env.c"⟩, ⟨".env.d"⟩, ⟨".env.b"⟩, ⟨".env.c"⟩, ⟨".env.d"⟩] :=
      Option.some.inj himported
    obtain ⟨hplain, -, contribution, -, hunfolds⟩ := splice_is_plain hsplice
    obtain ⟨hcontents, further, -, -, hfurther, -⟩ := hunfolds [⟨".env.a"⟩] _ _ hlisted
    obtain ⟨-, further', -, -, hfurther', -⟩ :=
      hunfolds [⟨".env.a"⟩, ⟨".env.c"⟩, ⟨".env.d"⟩, ⟨".env.b"⟩] _ _ hlisted
    exact ⟨r, rfl, (hplain r).mpr rfl, Option.some.inj hentries, contribution ⟨".env.c"⟩, further,
      further', hcontents, hfurther, hfurther'⟩

end Site

end LayeredEnv
