import LayeredEnv.Command
import LayeredEnv.Proofs.SamePath
import LayeredEnv.Proofs.Trimming
import Mathlib.Data.List.Infix

/-!
# Where a command leads

A command with a slash in it is meant as a path, which stands for itself if it leads anywhere.  Any
other command is looked for in the directories of a search path, the first of which with a file of
that name counts.  `Command.Leads` says so by rules that look at the text of the command only.

The look-up does not decide by the text but by the components of the command, and a slash with
nothing but slashes and dots behind it is no component of its own.  So one step with such an end
(`Command.EndsIdle`) is looked for like a command without a slash (`Command.isPath_iff`).  What it
is joined to ends in the same way, and a walk that has to go on behind its last step ends in a
directory or nowhere (`FileTree.Grounded.node?_of_locate`).  Such a command is therefore never
found, whatever it leads to; any other one leads where the rules say.

What is found is a path text, and it has a slash except where the search path asks for the working
directory by an empty text (`Command.hasSlash_or_eq_of_find?`).

Main statement: `Command.find?_leads_or_endsIdle`.
-/

namespace LayeredEnv

/-! ### Search paths -/

namespace Text

variable {sep : Char}

/-- Pieces without the separator come back when they are joined by it and cut again. -/
theorem splitOn_joinWith {pieces : List (List Char)} (hne : pieces ≠ [])
    (hsep : ∀ piece ∈ pieces, sep ∉ piece) : splitOn sep (joinWith [sep] pieces) = pieces := by
  induction pieces with
  | nil => exact absurd rfl hne
  | cons piece rest ih =>
    obtain ⟨hpiece, hrest⟩ := List.forall_mem_cons.mp hsep
    cases rest with
    | nil => exact splitOn_of_not_mem hpiece
    | cons next rest =>
      have hjoin : joinWith [sep] (piece :: next :: rest) =
          piece ++ sep :: joinWith [sep] (next :: rest) := by
        simp [joinWith]
      rw [hjoin, splitOn_append_cons hpiece, ih (List.cons_ne_nil next rest) hrest]

end Text

namespace Command

variable {tree : FileTree} {searchPath command : String} {searchPath? : Option String}
  {answer : Option Path}

/-- The directories that a search path lists are the texts between its colons; there is always one,
which may be empty. -/
structure Lists (searchPath : String) (directories : List String) : Prop where
  nonempty : directories ≠ []
  noColon : ∀ directory ∈ directories, ':' ∉ directory.toList
  joined : Text.joinWith [':'] (directories.map String.toList) = searchPath.toList

/-- What a command leads to, given the search path, if there is one: with a slash to itself or
nowhere, without a slash to the first file of that name in a listed directory. -/
inductive Leads (tree : FileTree) (searchPath? : Option String) (command : String) :
    Option Path → Prop
  | itself : '/' ∈ command.toList → tree.pathExists ⟨command⟩ = true →
      Leads tree searchPath? command (some ⟨command⟩)
  | missing : '/' ∈ command.toList → tree.pathExists ⟨command⟩ = false →
      Leads tree searchPath? command none
  | first {searchPath directory : String} {before after : List String} :
      '/' ∉ command.toList → searchPath? = some searchPath →
      Lists searchPath (before ++ directory :: after) →
      (∀ earlier ∈ before, tree.isFile (Path.join ⟨earlier⟩ command) = false) →
      tree.isFile (Path.join ⟨directory⟩ command) = true →
      Leads tree searchPath? command (some (Path.join ⟨directory⟩ command))
  | nowhere : '/' ∉ command.toList →
      (∀ searchPath directories, searchPath? = some searchPath → Lists searchPath directories →
        ∀ directory ∈ directories, tree.isFile (Path.join ⟨directory⟩ command) = false) →
      Leads tree searchPath? command none

/-- A search path lists the pieces that it is cut into at its colons, and no other directories. -/
theorem lists_iff {directories : List String} :
    Lists searchPath directories ↔
      directories = (Text.splitOn ':' searchPath.toList).map String.ofList := by
  constructor
  · rintro ⟨hne, hcolon, hjoined⟩
    have hpieces : directories.map String.toList ≠ [] := by simpa using hne
    have hnone : ∀ piece ∈ directories.map String.toList, ':' ∉ piece := by simpa using hcolon
    rw [← hjoined, Text.splitOn_joinWith hpieces hnone, List.map_map]
    simp [Function.comp_def]
  · rintro rfl
    refine ⟨by simpa using Text.splitOn_ne_nil ':' searchPath.toList, fun directory hmem => ?_, ?_⟩
    · obtain ⟨piece, hpiece, rfl⟩ := List.mem_map.mp hmem
      simpa using Text.not_mem_of_mem_splitOn hpiece
    · rw [List.map_map]
      simpa [Function.comp_def] using Text.joinWith_splitOn ':' searchPath.toList

/-- Where a listed directory may have the command is a candidate, and nothing else is. -/
theorem candidates_eq_map {directories : List String} (h : Lists searchPath directories) :
    candidates searchPath command =
      directories.map fun directory => Path.join ⟨directory⟩ command := by
  rw [lists_iff.mp h, candidates, List.map_map]
  rfl

/-- A command without a slash leads to the first candidate that is a file. -/
theorem leads_iff_of_noSlash (hslash : '/' ∉ command.toList) :
    Leads tree searchPath? command answer ↔
      answer = searchPath?.bind fun searchPath =>
        (candidates searchPath command).find? tree.isFile := by
  constructor
  · rintro (⟨hmem, -⟩ | ⟨hmem, -⟩ | @⟨searchPath, directory, before, after, -, rfl, hlists, hbefore,
      hfile⟩ | ⟨-, hnone⟩)
    · exact absurd hmem hslash
    · exact absurd hmem hslash
    · rw [Option.bind_some, candidates_eq_map hlists, eq_comm, List.find?_eq_some_iff_append]
      refine ⟨hfile, before.map _, after.map _, by rw [List.map_append, List.map_cons], ?_⟩
      simpa using hbefore
    · cases searchPath? with
      | none => rfl
      | some searchPath =>
        have hlists : Lists searchPath _ := lists_iff.mpr rfl
        rw [Option.bind_some, candidates_eq_map hlists, eq_comm, List.find?_eq_none]
        simpa using hnone searchPath _ rfl hlists
  · rintro rfl
    cases searchPath? with
    | none => exact .nowhere hslash fun searchPath directories h => absurd h (by simp)
    | some searchPath =>
      have hlists : Lists searchPath _ := lists_iff.mpr rfl
      rw [Option.bind_some, candidates_eq_map hlists, List.find?_map]
      cases hfind : List.find? (tree.isFile ∘ fun directory => Path.join ⟨directory⟩ command)
          ((Text.splitOn ':' searchPath.toList).map String.ofList) with
      | none =>
        refine .nowhere hslash fun other directories h hother directory hmem => ?_
        obtain rfl := Option.some.inj h
        rw [lists_iff.mp hother] at hmem
        simpa using List.find?_eq_none.mp hfind directory hmem
      | some directory =>
        obtain ⟨hfile, before, after, hsplit, hbefore⟩ := List.find?_eq_some_iff_append.mp hfind
        rw [hsplit] at hlists
        exact .first hslash rfl hlists (by simpa using hbefore) hfile

/-- A command with a slash leads to itself if it leads anywhere. -/
theorem leads_iff_of_slash (hslash : '/' ∈ command.toList) :
    Leads tree searchPath? command answer ↔
      answer = if tree.pathExists ⟨command⟩ then some ⟨command⟩ else none := by
  constructor
  · rintro (⟨-, hexists⟩ | ⟨-, hmissing⟩ | ⟨hnone, -⟩ | ⟨hnone, -⟩)
    · rw [if_pos hexists]
    · rw [hmissing]
      rfl
    · exact absurd hslash hnone
    · exact absurd hslash hnone
  · rintro rfl
    split
    · next hexists => exact .itself hslash hexists
    · next hmissing => exact .missing hslash (by simpa using hmissing)

end Command

/-! ### Components of a command -/

namespace Path

variable {p : Path} {step rest : List Char}

theorem isAbsolute_of_noSlash (hslash : '/' ∉ p.text.toList) : p.isAbsolute = false := by
  rw [isAbsolute, beq_eq_false_iff_ne]
  intro hhead
  exact hslash (List.mem_of_mem_head? hhead)

/-- A path that begins with a step is relative. -/
theorem isAbsolute_of_step (htext : p.text.toList = step ++ '/' :: rest) (hne : step ≠ [])
    (hslash : '/' ∉ step) : p.isAbsolute = false := by
  rw [isAbsolute, beq_eq_false_iff_ne, htext, List.head?_append_of_ne_nil _ hne]
  intro hhead
  exact hslash (List.mem_of_mem_head? hhead)

/-- A piece stands for no component inside a path exactly if it is idle. -/
theorem innerComponent?_eq_none_iff {piece : List Char} :
    innerComponent? piece = none ↔ isIdle piece = true := by
  constructor
  · intro hnone
    by_contra hidle
    obtain ⟨c, hc, -⟩ := exists_innerComponent? hidle
    rw [hnone] at hc
    exact absurd hc (by simp)
  · intro hidle
    exact if_pos hidle

/-- A path without a slash has one component at most. -/
theorem length_components_le (hslash : '/' ∉ p.text.toList) : p.components.length ≤ 1 := by
  have hpieces : p.pieces = [p.text.toList] := Text.splitOn_of_not_mem hslash
  rw [components, isAbsolute_of_noSlash hslash, hpieces]
  simp only [Bool.false_eq_true, if_false]
  split
  · next h =>
    obtain ⟨-, rfl⟩ := List.cons.inj h
    exact le_rfl
  · exact List.length_filterMap_le innerComponent? [p.text.toList]

/-- The step that a relative path begins with is a component, a dot too, and so is every step behind
it. -/
theorem length_components (htext : p.text.toList = step ++ '/' :: rest) (hne : step ≠ [])
    (hslash : '/' ∉ step) :
    p.components.length = ((Text.splitOn '/' rest).filterMap innerComponent?).length + 1 := by
  have hpieces : p.pieces = step :: Text.splitOn '/' rest := by
    rw [pieces, htext, Text.splitOn_append_cons hslash]
  rw [components, isAbsolute_of_step htext hne hslash, hpieces]
  simp only [Bool.false_eq_true, if_false]
  split
  · next h =>
    obtain ⟨-, rfl⟩ := List.cons.inj h
    rfl
  · next hdot =>
    have hidle : ¬ isIdle step = true := by
      have hnotDot : step ≠ ['.'] := fun heq => hdot _ (by rw [heq])
      simp [isIdle, hne, hnotDot]
    obtain ⟨c, hc, -⟩ := exists_innerComponent? hidle
    rw [List.filterMap_cons_some hc, List.length_cons]

end Path

namespace Command

variable {command : String} {step rest : List Char}

/-- The command is one step with a slash behind it, and nothing behind the slash is a step. -/
def EndsIdle (command : String) : Prop :=
  ∃ step rest, command.toList = step ++ '/' :: rest ∧ step ≠ [] ∧ '/' ∉ step ∧
    ∀ piece ∈ Text.splitOn '/' rest, Path.isIdle piece = true

theorem EndsIdle.slash (h : EndsIdle command) : '/' ∈ command.toList := by
  obtain ⟨step, rest, htext, -, -, -⟩ := h
  simp [htext]

/-- Whether a command ends idle is told by what stands on the two sides of its first slash. -/
theorem endsIdle_iff (htext : command.toList = step ++ '/' :: rest) (hslash : '/' ∉ step) :
    EndsIdle command ↔
      step ≠ [] ∧ ∀ piece ∈ Text.splitOn '/' rest, Path.isIdle piece = true := by
  constructor
  · rintro ⟨step', rest', htext', hne, hslash', hrest⟩
    have hcut := Text.cutAt?_eq_some_iff.mpr ⟨hslash, htext⟩
    have hcut' := Text.cutAt?_eq_some_iff.mpr ⟨hslash', htext'⟩
    obtain ⟨rfl, rfl⟩ := Prod.mk.inj (Option.some.inj (hcut'.symm.trans hcut))
    exact ⟨hne, hrest⟩
  · rintro ⟨hne, hrest⟩
    exact ⟨step, rest, htext, hne, hslash, hrest⟩

theorem isPath_of_noSlash (hslash : '/' ∉ command.toList) : isPath command = false := by
  have hrelative : (⟨command⟩ : Path).isAbsolute = false := Path.isAbsolute_of_noSlash hslash
  have hlength : (⟨command⟩ : Path).components.length ≤ 1 := Path.length_components_le hslash
  simp only [isPath, hrelative, Bool.or_false, decide_eq_false_iff_not]
  omega

/-- A command that begins with a step is a path exactly if there is another one behind it. -/
theorem isPath_of_step (htext : command.toList = step ++ '/' :: rest) (hne : step ≠ [])
    (hslash : '/' ∉ step) :
    isPath command = true ↔ ¬ ∀ piece ∈ Text.splitOn '/' rest, Path.isIdle piece = true := by
  have hrelative : (⟨command⟩ : Path).isAbsolute = false :=
    Path.isAbsolute_of_step htext hne hslash
  have hlength : (⟨command⟩ : Path).components.length = _ :=
    Path.length_components htext hne hslash
  have hnone : (Text.splitOn '/' rest).filterMap Path.innerComponent? = [] ↔
      ∀ piece ∈ Text.splitOn '/' rest, Path.isIdle piece = true := by
    simp only [List.filterMap_eq_nil_iff, Path.innerComponent?_eq_none_iff]
  rw [← hnone, ← List.length_eq_zero_iff]
  simp only [isPath, hrelative, hlength, Bool.or_false, decide_eq_true_eq]
  omega

/-- A command is a path exactly if it has a slash and does not end idle. -/
theorem isPath_iff : isPath command = true ↔ '/' ∈ command.toList ∧ ¬ EndsIdle command := by
  by_cases hslash : '/' ∈ command.toList
  · obtain ⟨step, rest, htext, hstep⟩ := List.eq_append_cons_of_mem hslash
    rw [and_iff_right hslash, endsIdle_iff htext hstep]
    by_cases hne : step = []
    · -- the command begins at the root directory
      have habsolute : isPath command = true := by
        simp [isPath, Path.isAbsolute, htext, hne]
      exact iff_of_true habsolute fun h => h.1 hne
    · rw [isPath_of_step htext hne hstep]
      simp [hne]
  · have hnot : isPath command = false := isPath_of_noSlash hslash
    simp [hnot, hslash]

/-! ### Slashes in what is found -/

/-- What is joined to a directory with a name has a slash. -/
theorem hasSlash_join {directory : Path} (h : directory.text ≠ "") (command : String) :
    (directory.join command).hasSlash = true := by
  unfold Path.join Path.hasSlash
  split
  · next hhead => simpa using List.mem_of_mem_head? (beq_iff_eq.mp hhead)
  · split
    · next hend =>
      have hslash : '/' ∈ directory.text.toList := by
        rcases Bool.or_eq_true_iff.mp hend with hempty | hlast
        · exact absurd (beq_iff_eq.mp hempty) h
        · exact List.mem_of_getLast? (beq_iff_eq.mp hlast)
      simp [hslash]
    · simp

theorem join_empty (command : String) : Path.join ⟨""⟩ command = ⟨command⟩ := by
  simp [Path.join]

/-- What is found has a slash, unless it is the command itself, as a file of the working directory
that an empty text of the search path stands for.  A path without a slash is looked for once more by
whatever starts programs. -/
theorem hasSlash_or_eq_of_find? {tree : FileTree} {own inherited : Option String} {program : Path}
    (h : find? tree command own inherited = some program) :
    program.hasSlash = true ∨ program = ⟨command⟩ ∧ tree.isFile ⟨command⟩ = true ∧
      ∃ searchPath directories, own.or inherited = some searchPath ∧
        Lists searchPath directories ∧ "" ∈ directories := by
  cases hpath : isPath command with
  | true =>
    rw [find?_of_isPath hpath, Option.ite_none_right_eq_some] at h
    obtain ⟨-, hprogram⟩ := h
    obtain rfl := Option.some.inj hprogram
    exact .inl (by simpa [Path.hasSlash] using (isPath_iff.mp hpath).1)
  | false =>
    rw [find?_of_not_isPath hpath, Option.bind_eq_some_iff] at h
    obtain ⟨searchPath, hsearch, hfind⟩ := h
    have hlists : Lists searchPath _ := lists_iff.mpr rfl
    rw [candidates_eq_map hlists] at hfind
    obtain ⟨directory, hmem, rfl⟩ := List.mem_map.mp (List.mem_of_find?_eq_some hfind)
    by_cases hempty : directory = ""
    · subst hempty
      have hfile := List.find?_some hfind
      rw [join_empty] at hfile ⊢
      exact .inr ⟨rfl, hfile, searchPath, _, hsearch, hlists, hmem⟩
    · exact .inl (hasSlash_join hempty command)

end Command

/-! ### Walks that go on behind their last step -/

namespace Path

/-- The last of the pieces is no step, if there is one. -/
def EndsIdle (pieces : List (List Char)) : Prop :=
  ∀ last ∈ pieces.getLast?, isIdle last = true

variable {piece : List Char} {pieces front rest : List (List Char)}

theorem EndsIdle.of_cons (h : EndsIdle (piece :: rest)) : EndsIdle rest := by
  intro last hlast
  apply h last
  rw [List.getLast?_cons, Option.mem_def.mp hlast]
  rfl

/-- A step is not the last of the pieces. -/
theorem EndsIdle.ne_nil_of_step (h : EndsIdle (piece :: rest)) (hstep : ¬ isIdle piece = true) :
    rest ≠ [] := by
  rintro rfl
  exact hstep (h piece rfl)

/-- What goes on idle ends idle, whatever is before. -/
theorem EndsIdle.append_left (h : EndsIdle rest) (hne : rest ≠ []) (front : List (List Char)) :
    EndsIdle (front ++ rest) := by
  intro last hlast
  rw [List.getLast?_append_of_ne_nil front hne] at hlast
  exact h last hlast

end Path

namespace FileTree

variable {t : FileTree} {here place : Location} {pieces : List (List Char)}

/-- Whatever is above a listed place or above the working directory is a directory, and so is the
working directory. -/
structure Grounded (t : FileTree) : Prop where
  workingDirectory : ∀ place, place <+: t.workingDirectory → t.node? place = some .directory
  above : ∀ p ∈ t.nodes, ∀ place, place <+: p.1 → place ≠ p.1 → t.node? place = some .directory

/-- There are finitely many places to look at. -/
theorem grounded_iff :
    t.Grounded ↔
      (∀ place ∈ t.workingDirectory.inits, t.node? place = some .directory) ∧
        ∀ p ∈ t.nodes, ∀ place ∈ p.1.inits, place ≠ p.1 → t.node? place = some .directory := by
  simp only [List.mem_inits]
  exact ⟨fun h => ⟨h.workingDirectory, h.above⟩, fun h => ⟨h.1, h.2⟩⟩

instance (t : FileTree) : Decidable t.Grounded :=
  decidable_of_iff' _ grounded_iff

/-- A walk that halts here has come to a directory, or to a link in one with something left to take
behind it that ends idle. -/
def Halt.InDirectory (t : FileTree) : Halt → Prop
  | .arrived place => t.node? place = some .directory
  | .atLink directory _ rest =>
    t.node? directory = some .directory ∧ Path.EndsIdle rest ∧ rest ≠ []
  | .atFreeName _ => False

namespace Grounded

theorem root (h : t.Grounded) : t.node? [] = some .directory :=
  h.workingDirectory [] List.nil_prefix

/-- What anything is in is a directory. -/
theorem node?_of_node?_append {name : String} {node : Node} (h : t.Grounded)
    (hnode : t.node? (place ++ [name]) = some node) : t.node? place = some .directory := by
  have hstart : place <+: place ++ [name] := List.prefix_append place [name]
  have hne : place ≠ place ++ [name] := by simp
  unfold node? at hnode
  split at hnode
  · next node hlisted => exact h.above _ (mem_of_listed? hlisted) place hstart hne
  · split at hnode
    · next habove =>
      rcases Bool.or_eq_true_iff.mp habove with hworking | hlisted
      · exact h.workingDirectory place (hstart.trans (List.isPrefixOf_iff_prefix.mp hworking))
      · obtain ⟨p, hp, hbelow⟩ := List.any_eq_true.mp hlisted
        have hbelow : place ++ [name] <+: p.1 := List.isPrefixOf_iff_prefix.mp hbelow
        refine h.above p hp place (hstart.trans hbelow) fun heq => ?_
        have hlength := hbelow.length_le
        rw [← heq, List.length_append, List.length_singleton] at hlength
        omega
    · simp at hnode

theorem node?_dropLast (h : t.Grounded) (hhere : t.node? here = some .directory) :
    t.node? here.dropLast = some .directory := by
  rcases List.eq_nil_or_concat' here with rfl | ⟨place, name, rfl⟩
  · exact hhere
  · rw [List.dropLast_concat]
    exact h.node?_of_node?_append hhere

/-- A walk from a directory that has to go on behind its last step halts in one. -/
theorem inDirectory_of_walk {halt : Halt} (h : t.Grounded) (hhere : t.node? here = some .directory)
    (hidle : Path.EndsIdle pieces) (hwalk : t.walk here pieces = .ok halt) :
    halt.InDirectory t := by
  induction pieces generalizing here with
  | nil =>
    obtain rfl := Except.ok.inj hwalk
    exact hhere
  | cons piece rest ih =>
    have hrest : Path.EndsIdle rest := hidle.of_cons
    rw [walk] at hwalk
    by_cases hstep : Path.isIdle piece = true
    · rw [if_pos hstep] at hwalk
      exact ih hhere hrest hwalk
    rw [if_neg hstep] at hwalk
    have hne : rest ≠ [] := hidle.ne_nil_of_step hstep
    by_cases hup : (piece == ['.', '.']) = true
    · rw [if_pos hup] at hwalk
      exact ih (h.node?_dropLast hhere) hrest hwalk
    rw [if_neg hup] at hwalk
    by_cases hlong : (String.ofList piece).utf8ByteSize > nameLimit
    · simp [hlong] at hwalk
    simp only [if_neg hlong] at hwalk
    cases hnode : t.node? (here ++ [String.ofList piece]) with
    | none =>
      simp only [hnode] at hwalk
      exact absurd (eq_of_last_eq_ok hwalk).1 hne
    | some node =>
      cases node with
      | directory =>
        simp only [hnode] at hwalk
        exact ih hnode hrest hwalk
      | link target =>
        simp only [hnode] at hwalk
        obtain rfl := Except.ok.inj hwalk
        exact ⟨hhere, hrest, hne⟩
      | file bytes executable =>
        simp only [hnode] at hwalk
        exact absurd (eq_of_last_eq_ok hwalk).1 hne
      | device =>
        simp only [hnode] at hwalk
        exact absurd (eq_of_last_eq_ok hwalk).1 hne

/-- Whatever links it follows, such a walk leads to a directory. -/
theorem node?_of_follow {links : Nat} (h : t.Grounded) (hhere : t.node? here = some .directory)
    (hidle : Path.EndsIdle pieces) (hfollow : t.follow links here pieces = .ok (.taken place)) :
    t.node? place = some .directory := by
  induction links using Nat.strongRecOn generalizing here pieces with
  | ind links ih =>
  rcases follow_cases hfollow with ⟨place', hwalk, hspot⟩ | ⟨_, -, hspot⟩ |
    ⟨directory, target, rest, left, hwalk, rfl, hleft⟩
  · obtain rfl := Spot.taken.inj hspot
    exact h.inDirectory_of_walk hhere hidle hwalk
  · exact absurd hspot Spot.noConfusion
  · -- what is left behind the link is walked after what the link leads to
    obtain ⟨hdirectory, hrest, hne⟩ := h.inDirectory_of_walk hhere hidle hwalk
    refine ih left (Nat.lt_succ_self left) ?_ (hrest.append_left hne target.pieces) hleft
    split
    · exact h.root
    · exact hdirectory

/-- A path that goes on behind its last step leads to a directory if it leads anywhere. -/
theorem node?_of_locate {p : Path} (h : t.Grounded) (hidle : Path.EndsIdle p.pieces)
    (hplace : t.locate p = .ok place) : t.node? place = some .directory := by
  refine h.node?_of_follow ?_ hidle (follow_of_locate hplace)
  split
  · exact h.root
  · exact h.workingDirectory _ List.prefix_rfl

/-- Such a path leads to no file. -/
theorem isFile_eq_false {p : Path} (h : t.Grounded) (hidle : Path.EndsIdle p.pieces) :
    t.isFile p = false := by
  rw [Bool.eq_false_iff]
  intro hfile
  obtain ⟨place, bytes, executable, hplace, hnode⟩ := isFile_iff.mp hfile
  rw [h.node?_of_locate hidle hplace] at hnode
  simp at hnode

/-- Such a path leads to a directory exactly if it leads anywhere. -/
theorem isDirectory_eq_pathExists {p : Path} (h : t.Grounded) (hidle : Path.EndsIdle p.pieces) :
    t.isDirectory p = t.pathExists p := by
  unfold isDirectory pathExists
  cases hplace : t.locate p with
  | error e => rfl
  | ok place => simpa [Except.isOk, Except.toBool] using h.node?_of_locate hidle hplace

end Grounded

end FileTree

namespace Command

variable {tree : FileTree} {command : String} {own inherited : Option String}

/-- What a command is joined to ends as the command does. -/
theorem exists_text_join (directory : Path) (command : String) :
    ∃ before, (directory.join command).text.toList = before ++ command.toList := by
  unfold Path.join
  split
  · exact ⟨[], rfl⟩
  · split
    · exact ⟨directory.text.toList, by simp⟩
    · exact ⟨directory.text.toList ++ ['/'], by simp⟩

/-- A path that ends with a command that ends idle does so too. -/
theorem EndsIdle.pieces {p : Path} (h : EndsIdle command)
    (htext : ∃ before, p.text.toList = before ++ command.toList) : Path.EndsIdle p.pieces := by
  obtain ⟨step, rest, hcommand, -, -, hrest⟩ := h
  obtain ⟨before, htext⟩ := htext
  have hpieces : p.pieces = Text.splitOn '/' (before ++ step) ++ Text.splitOn '/' rest := by
    rw [Path.pieces, htext, hcommand, ← List.append_assoc, Text.splitOn_append_sep]
  have hidle : Path.EndsIdle (Text.splitOn '/' rest) := fun last hlast =>
    hrest last (List.mem_of_getLast? hlast)
  rw [hpieces]
  exact hidle.append_left (Text.splitOn_ne_nil '/' rest) _

/-- Nothing is found for a command that ends idle. -/
theorem EndsIdle.find?_eq_none (h : EndsIdle command) (hgrounded : tree.Grounded)
    (own inherited : Option String) : find? tree command own inherited = none := by
  have hsearched : isPath command = false := by
    rw [Bool.eq_false_iff]
    intro hpath
    exact (isPath_iff.mp hpath).2 h
  have hfiles : ∀ searchPath, ∀ place ∈ candidates searchPath command,
      tree.isFile place = false := by
    intro searchPath place hplace
    obtain ⟨directory, -, rfl⟩ := List.mem_map.mp hplace
    have hidle := h.pieces (exists_text_join ⟨String.ofList directory⟩ command)
    exact hgrounded.isFile_eq_false hidle
  rw [find?_of_not_isPath hsearched, Option.bind_eq_none_iff]
  intro searchPath _
  rw [List.find?_eq_none]
  intro place hplace
  simp [hfiles searchPath place hplace]

/-- A command that does not end idle leads to what is found for it and to nothing else.  For one
that does nothing is found, and that is not where it leads exactly if it names a directory. -/
theorem find?_leads_or_endsIdle (tree : FileTree) (command : String)
    (own inherited : Option String) :
    (¬ EndsIdle command → ∀ answer,
      Leads tree (own.or inherited) command answer ↔
        answer = find? tree command own inherited) ∧
    (EndsIdle command → tree.Grounded →
      find? tree command own inherited = none ∧
      (Leads tree (own.or inherited) command none ↔ tree.isDirectory ⟨command⟩ = false)) := by
  constructor
  · intro hends answer
    by_cases hslash : '/' ∈ command.toList
    · have hpath : isPath command = true := isPath_iff.mpr ⟨hslash, hends⟩
      rw [find?_of_isPath hpath, leads_iff_of_slash hslash]
    · rw [find?_of_not_isPath (isPath_of_noSlash hslash), leads_iff_of_noSlash hslash]
  · intro hends hgrounded
    refine ⟨hends.find?_eq_none hgrounded own inherited, ?_⟩
    have hidle : Path.EndsIdle (⟨command⟩ : Path).pieces := hends.pieces ⟨[], rfl⟩
    rw [leads_iff_of_slash hends.slash, hgrounded.isDirectory_eq_pathExists hidle]
    cases tree.pathExists ⟨command⟩ <;> simp

/-- A tool below one directory, and a directory of the same name below another. -/
def searchedTree : FileTree where
  nodes := [
    (["w", "alt", "tool", "readme"], .file [] false),
    (["w", "bin", "tool"], .file [] true)]
  workingDirectory := ["w"]

/-- The search goes past a directory that is missing, one with a directory of that name, and the
working directory.  With a slash and a dot behind it a directory is not found. -/
theorem find?_tool :
    ¬ EndsIdle "tool" ∧ EndsIdle "bin/." ∧ searchedTree.Grounded ∧
      (∀ answer, Leads searchedTree (some "none:alt::bin") "tool" answer ↔
        answer = some ⟨"bin/tool"⟩) ∧
      find? searchedTree "bin/." none (some "alt") = none ∧
      ¬ Leads searchedTree (some "alt") "bin/." none := by
  have hsearched : ¬ EndsIdle "tool" := fun h => absurd h.slash (by decide)
  have hends : EndsIdle "bin/." :=
    ⟨['b', 'i', 'n'], ['.'], by decide, by decide, by decide, by decide⟩
  have hgrounded : searchedTree.Grounded := by decide +kernel
  have hfound : find? searchedTree "tool" (some "none:alt::bin") none = some ⟨"bin/tool"⟩ := by
    decide +kernel
  have hdirectory : searchedTree.isDirectory ⟨"bin/."⟩ = true := by decide +kernel
  have hleads :=
    (find?_leads_or_endsIdle searchedTree "tool" (some "none:alt::bin") none).1 hsearched
  rw [hfound] at hleads
  obtain ⟨hnone, hiff⟩ :=
    (find?_leads_or_endsIdle searchedTree "bin/." none (some "alt")).2 hends hgrounded
  refine ⟨hsearched, hends, hgrounded, hleads, hnone, fun hnowhere => ?_⟩
  have hmissing : searchedTree.isDirectory ⟨"bin/."⟩ = false := hiff.mp hnowhere
  rw [hdirectory] at hmissing
  exact absurd hmissing (by decide)

/-- A directory that is named with a slash behind it is there, and is not found. -/
theorem directory_not_found :
    '/' ∈ "bin/".toList ∧ searchedTree.pathExists ⟨"bin/"⟩ = true ∧
      find? searchedTree "bin/" (some "alt") none = none ∧
      ¬ Leads searchedTree (some "alt") "bin/" (find? searchedTree "bin/" (some "alt") none) := by
  have hslash : '/' ∈ "bin/".toList := by decide
  have hexists : searchedTree.pathExists ⟨"bin/"⟩ = true := by decide +kernel
  have hnone : find? searchedTree "bin/" (some "alt") none = none := by decide +kernel
  refine ⟨hslash, hexists, hnone, fun hleads => ?_⟩
  rw [hnone, leads_iff_of_slash hslash, if_pos hexists] at hleads
  exact absurd hleads (by simp)

end Command

end LayeredEnv
