/-!
# What is still unvisited

A walk that never visits anything twice and stays within a finite list of places ends, because each
step leaves fewer places unvisited.
-/

namespace LayeredEnv

variable {α : Type u} [DecidableEq α]

/-- How many members of a list have not been visited. -/
def unvisited (places visited : List α) : Nat :=
  places.countP fun a => !visited.contains a

/-- Visiting a new member leaves fewer unvisited. -/
theorem unvisited_append_lt {places visited : List α} {a : α} (h : a ∈ places)
    (hnew : a ∉ visited) : unvisited places (visited ++ [a]) < unvisited places visited := by
  have hmono : ∀ l : List α, unvisited l (visited ++ [a]) ≤ unvisited l visited := fun l =>
    List.countP_mono_left fun b _ hb => by
      simp only [List.contains_eq_mem, List.mem_append, Bool.not_eq_eq_eq_not, Bool.not_true,
        decide_eq_false_iff_not] at hb ⊢
      exact fun hv => hb (.inl hv)
  induction places with
  | nil => simp at h
  | cons b rest ih =>
    have hrest := hmono rest
    simp only [unvisited, List.countP_cons] at ih hrest ⊢
    rcases List.mem_cons.1 h with rfl | h
    · have h1 : visited.contains a = false := by simpa using hnew
      have h2 : (visited ++ [a]).contains a = true := by simp
      simp only [h1, h2, Bool.not_true, Bool.not_false, if_true, Bool.false_eq_true, if_false]
      omega
    · have hlt := ih h
      have hb := hmono [b]
      simp only [unvisited, List.countP_cons, List.countP_nil] at hb
      omega

end LayeredEnv
