/-!
# Cutting a text at a separator

`Text.splitOn` cuts a text at every occurrence of a separator.  Lines are the pieces between line
feeds, path components the pieces between slashes, and search directories the pieces between
colons.
-/

namespace LayeredEnv.Text

/-- The pieces of `s` between the occurrences of `sep`; there is always at least one piece. -/
def splitOn (sep : Char) : List Char → List (List Char)
  | [] => [[]]
  | c :: rest =>
    if c = sep then [] :: splitOn sep rest
    else
      match splitOn sep rest with
      | [] => [[c]]
      | piece :: pieces => (c :: piece) :: pieces

/-- The pieces put together again, with `sep` between neighbours. -/
def joinWith (sep : List Char) : List (List Char) → List Char
  | [] => []
  | [piece] => piece
  | piece :: next :: pieces => piece ++ sep ++ joinWith sep (next :: pieces)

/-- The text before the first `sep` and the text after it, if there is a `sep`. -/
def cutAt? (sep : Char) : List Char → Option (List Char × List Char)
  | [] => none
  | c :: rest =>
    if c = sep then some ([], rest)
    else (cutAt? sep rest).map fun (before, after) => (c :: before, after)

/-- The rest of `s` after `start`, if `s` begins with it. -/
def dropStart? : (start s : List Char) → Option (List Char)
  | [], s => some s
  | _ :: _, [] => none
  | a :: start, c :: s => if a = c then dropStart? start s else none

/-! ### Small laws -/

theorem splitOn_ne_nil (sep : Char) (s : List Char) : splitOn sep s ≠ [] := by
  cases s with
  | nil => simp [splitOn]
  | cons c rest =>
    rw [splitOn]
    split
    · simp
    · split <;> simp

@[simp] theorem splitOn_cons_self (sep : Char) (s : List Char) :
    splitOn sep (sep :: s) = [] :: splitOn sep s := by
  simp [splitOn]

/-- A text is cut at its first separator. -/
theorem cutAt?_append {sep : Char} {before : List Char} (h : sep ∉ before) (after : List Char) :
    cutAt? sep (before ++ sep :: after) = some (before, after) := by
  induction before with
  | nil => simp [cutAt?]
  | cons c rest ih =>
    have hc : c ≠ sep := fun e => h (e ▸ List.mem_cons_self ..)
    have hrest : sep ∉ rest := fun hm => h (List.mem_cons_of_mem _ hm)
    simp [cutAt?, hc, ih hrest]

/-- Cutting loses nothing. -/
theorem joinWith_splitOn (sep : Char) (s : List Char) : joinWith [sep] (splitOn sep s) = s := by
  induction s with
  | nil => rfl
  | cons c rest ih =>
    rw [splitOn]
    split
    · next h =>
      cases hs : splitOn sep rest with
      | nil => exact absurd hs (splitOn_ne_nil sep rest)
      | cons piece pieces => rw [hs] at ih; simp [joinWith, h, ih]
    · split
      · next hs => exact absurd hs (splitOn_ne_nil sep rest)
      · next piece pieces hs =>
        rw [hs] at ih
        cases pieces with
        | nil => simpa [joinWith] using ih
        | cons next pieces => simpa [joinWith] using ih

/-- No piece holds the separator. -/
theorem not_mem_of_mem_splitOn {sep : Char} {s piece : List Char} (h : piece ∈ splitOn sep s) :
    sep ∉ piece := by
  induction s generalizing piece with
  | nil => simp_all [splitOn]
  | cons c rest ih =>
    rw [splitOn] at h
    split at h
    · rcases List.mem_cons.1 h with rfl | h
      · simp
      · exact ih h
    · next hc =>
      split at h
      · simp_all [Ne.symm hc]
      · next hs =>
        rw [hs] at ih
        rcases List.mem_cons.1 h with rfl | h
        · have := ih (List.mem_cons_self ..)
          simp [Ne.symm hc, this]
        · exact ih (List.mem_cons_of_mem _ h)

end LayeredEnv.Text
