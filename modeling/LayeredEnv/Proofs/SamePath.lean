import LayeredEnv.FileTree

/-!
# Paths that take the same steps

Two path texts may take the same steps and still differ for a look-up: one of them may be too long,
or go on behind a file with a slash.  Where both of them lead anywhere they lead to the same place
(`FileTree.locate_unique_of_same`), because a walk passes over the pieces that are no steps.
-/

namespace LayeredEnv

namespace Path

/-- The piece that a step inside a path stands for. -/
def Component.piece? : Component → Option (List Char)
  | .root | .here => none
  | .up => some ['.', '.']
  | .name text => some text.toList

/-- The pieces without those that are no steps. -/
def steps (pieces : List (List Char)) : List (List Char) :=
  pieces.filter fun piece => !isIdle piece

/-- A piece that is a step stands for a component, which stands for the piece. -/
theorem exists_innerComponent? {piece : List Char} (h : ¬ isIdle piece = true) :
    ∃ c, innerComponent? piece = some c ∧ c.piece? = some piece := by
  unfold innerComponent?
  rw [if_neg h]
  by_cases hup : piece = ['.', '.']
  · exact ⟨.up, by simp [hup], by simp [hup, Component.piece?]⟩
  · exact ⟨.name (String.ofList piece), by simp [hup], by simp [Component.piece?]⟩

/-- The components inside a path tell its steps. -/
theorem filterMap_piece?_innerComponent? (pieces : List (List Char)) :
    (pieces.filterMap innerComponent?).filterMap Component.piece? = steps pieces := by
  induction pieces with
  | nil => rfl
  | cons piece rest ih =>
    by_cases hidle : isIdle piece = true
    · have hnone : innerComponent? piece = none := if_pos hidle
      rw [List.filterMap_cons_none hnone, ih, steps, steps,
        List.filter_cons_of_neg (by simpa using hidle)]
    · obtain ⟨c, hc, hpiece⟩ := exists_innerComponent? hidle
      rw [List.filterMap_cons_some hc, List.filterMap_cons_some hpiece, ih, steps, steps,
        List.filter_cons_of_pos (by simpa using hidle)]

/-- The components of a path tell its steps. -/
theorem filterMap_piece?_components (p : Path) :
    p.components.filterMap Component.piece? = steps p.pieces := by
  rw [← filterMap_piece?_innerComponent?]
  unfold components
  split
  · rfl
  · split
    · next rest hpieces =>
      rw [hpieces]
      rfl
    · rfl

theorem root_not_mem_innerComponents (pieces : List (List Char)) :
    .root ∉ pieces.filterMap innerComponent? := by
  intro hroot
  obtain ⟨piece, -, hpiece⟩ := List.mem_filterMap.mp hroot
  unfold innerComponent? at hpiece
  split at hpiece
  · simp at hpiece
  · split at hpiece <;> simp at hpiece

/-- The components of a path tell whether it begins at the root directory. -/
theorem root_mem_components_iff (p : Path) : .root ∈ p.components ↔ p.isAbsolute = true := by
  unfold components
  split
  · next habsolute => simp [habsolute]
  · next hrelative =>
    split
    · next rest _ => simp [hrelative, root_not_mem_innerComponents rest]
    · simp [hrelative, root_not_mem_innerComponents p.pieces]

/-- Paths that are the same begin alike and have the same steps. -/
theorem steps_eq_of_same {p q : Path} (h : p.same q = true) :
    p.isAbsolute = q.isAbsolute ∧ steps p.pieces = steps q.pieces := by
  have hcomponents : p.components = q.components := by simpa [same] using h
  constructor
  · rw [Bool.eq_iff_iff, ← root_mem_components_iff, ← root_mem_components_iff, hcomponents]
  · rw [← filterMap_piece?_components, ← filterMap_piece?_components, hcomponents]

theorem same_refl (p : Path) : p.same p = true := by
  simp [same]

end Path

namespace FileTree

variable {t : FileTree} {here : Location} {pieces pieces' : List (List Char)}

/-- Where a walk stands, with the steps left to take in place of the pieces. -/
def Halt.onSteps : Halt → Halt
  | .arrived place => .arrived place
  | .atLink directory target rest => .atLink directory target (Path.steps rest)
  | .atFreeName place => .atFreeName place

/-- What only the last piece may lead to is met at the end of the pieces. -/
theorem eq_of_last_eq_ok {halt last : Halt} {refusal : IoError}
    (h : (if pieces.isEmpty then .ok last else .error refusal : Except IoError Halt) = .ok halt) :
    pieces = [] ∧ last = halt := by
  split at h
  · next hempty => exact ⟨List.isEmpty_iff.mp hempty, Except.ok.inj h⟩
  · simp at h

/-- A walk that is not refused halts at the same place if it is given the steps alone. -/
theorem walk_steps {halt : Halt} (h : t.walk here pieces = .ok halt) :
    t.walk here (Path.steps pieces) = .ok halt.onSteps := by
  induction pieces generalizing here with
  | nil =>
    obtain rfl := Except.ok.inj h
    rfl
  | cons piece rest ih =>
    rw [walk] at h
    by_cases hidle : Path.isIdle piece
    · rw [if_pos hidle] at h
      rw [Path.steps, List.filter_cons_of_neg (by simpa using hidle)]
      exact ih h
    · rw [if_neg hidle] at h
      rw [Path.steps, List.filter_cons_of_pos (by simpa using hidle), walk, if_neg hidle]
      by_cases hup : (piece == ['.', '.']) = true
      · rw [if_pos hup] at h ⊢
        exact ih h
      · rw [if_neg hup] at h ⊢
        by_cases hlong : (String.ofList piece).utf8ByteSize > nameLimit
        · simp [hlong] at h
        · simp only [if_neg hlong] at h ⊢
          cases hnode : t.node? (here ++ [String.ofList piece]) with
          | none =>
            simp only [hnode] at h ⊢
            obtain ⟨rfl, rfl⟩ := eq_of_last_eq_ok h
            rfl
          | some node =>
            cases node with
            | directory =>
              simp only [hnode] at h ⊢
              exact ih h
            | link target =>
              simp only [hnode] at h ⊢
              obtain rfl := Except.ok.inj h
              rfl
            | file bytes executable =>
              simp only [hnode] at h ⊢
              obtain ⟨rfl, rfl⟩ := eq_of_last_eq_ok h
              rfl
            | device =>
              simp only [hnode] at h ⊢
              obtain ⟨rfl, rfl⟩ := eq_of_last_eq_ok h
              rfl

/-- A walk that leads to a spot stands there or goes on behind a link. -/
theorem follow_cases {links : Nat} {spot : Spot} (h : t.follow links here pieces = .ok spot) :
    (∃ place, t.walk here pieces = .ok (.arrived place) ∧ spot = .taken place) ∨
      (∃ place, t.walk here pieces = .ok (.atFreeName place) ∧ spot = .free place) ∨
      ∃ directory target rest left, t.walk here pieces = .ok (.atLink directory target rest) ∧
        links = left + 1 ∧
        t.follow left (if target.isAbsolute then [] else directory) (target.pieces ++ rest) =
          .ok spot := by
  rw [follow] at h
  split at h
  · simp at h
  · next place hwalk => exact .inl ⟨place, hwalk, (Except.ok.inj h).symm⟩
  · next place hwalk => exact .inr (.inl ⟨place, hwalk, (Except.ok.inj h).symm⟩)
  · next directory target rest hwalk =>
    cases links with
    | zero => simp at h
    | succ left =>
      simp only at h
      split at h
      · simp at h
      · exact .inr (.inr ⟨directory, target, rest, left, hwalk, rfl, h⟩)

/-- A path with a location leads there from the root or the working directory. -/
theorem follow_of_locate {p : Path} {place : Location} (h : t.locate p = .ok place) :
    t.follow linkLimit (if p.isAbsolute then [] else t.workingDirectory) p.pieces =
      .ok (.taken place) := by
  unfold locate at h
  split at h
  · next place' hspot =>
    obtain rfl := Except.ok.inj h
    unfold spot at hspot
    split at hspot
    · simp at hspot
    · split at hspot
      · simp at hspot
      · split at hspot
        · simp at hspot
        · exact hspot
  · simp at h
  · simp at h

/-- Walks along the same steps that both lead to a spot lead to the same one, whatever links they
follow. -/
theorem follow_unique {links : Nat} {spot spot' : Spot}
    (hsteps : Path.steps pieces = Path.steps pieces')
    (h : t.follow links here pieces = .ok spot) (h' : t.follow links here pieces' = .ok spot') :
    spot = spot' := by
  induction links using Nat.strongRecOn generalizing here pieces pieces' with
  | ind links ih =>
  -- both walks halt at the same place once the pieces are taken down to the steps
  have hhalt : ∀ halt halt', t.walk here pieces = .ok halt → t.walk here pieces' = .ok halt' →
      halt.onSteps = halt'.onSteps := by
    intro halt halt' hwalk hwalk'
    have hsteps' := walk_steps hwalk
    rw [hsteps, walk_steps hwalk'] at hsteps'
    exact (Except.ok.inj hsteps').symm
  rcases follow_cases h with ⟨place, hwalk, rfl⟩ | ⟨place, hwalk, rfl⟩ |
      ⟨directory, target, rest, left, hwalk, rfl, hleft⟩ <;>
    rcases follow_cases h' with ⟨place', hwalk', rfl⟩ | ⟨place', hwalk', rfl⟩ |
      ⟨directory', target', rest', left', hwalk', hlinks, hleft'⟩ <;>
    have hsame := hhalt _ _ hwalk hwalk' <;>
    simp only [Halt.onSteps, reduceCtorEq, Halt.arrived.injEq, Halt.atFreeName.injEq,
      Halt.atLink.injEq] at hsame
  · rw [hsame]
  · rw [hsame]
  · obtain ⟨rfl, rfl, hrest⟩ := hsame
    obtain rfl : left = left' := Nat.succ.inj hlinks
    refine ih left (Nat.lt_succ_self left) ?_ hleft hleft'
    rw [Path.steps, Path.steps, List.filter_append, List.filter_append]
    exact congrArg _ hrest

/-- Paths that take the same steps lead to the same place if both of them lead anywhere. -/
theorem locate_unique_of_same {p q : Path} {place place' : Location} (h : p.same q = true)
    (hp : t.locate p = .ok place) (hq : t.locate q = .ok place') : place = place' := by
  obtain ⟨habsolute, hsteps⟩ := Path.steps_eq_of_same h
  have hspot := follow_of_locate hp
  have hspot' := follow_of_locate hq
  rw [habsolute] at hspot
  exact Spot.taken.inj (follow_unique hsteps hspot hspot')

end FileTree

end LayeredEnv
