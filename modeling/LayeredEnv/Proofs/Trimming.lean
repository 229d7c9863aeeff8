import LayeredEnv.Text.Blank
import LayeredEnv.Text.Lines
import Mathlib.Data.List.DropRight

/-!
# Trimmed and cut texts

A text without blanks at its ends is `Text.Trimmed`.  Trimming leaves such a text and removes only
blanks (`Text.trimmed_trim`, `Text.exists_trim_padded`), and it finds such a text again among blanks
(`Text.trim_padded`).  Cutting at a separator and dropping a start are told by the texts they put
together again.
-/

namespace LayeredEnv

namespace Text

variable {s left right before after start rest : List Char} {c sep : Char}

/-! ### Trimming -/

/-- The text has no blank at either end. -/
structure Trimmed (s : List Char) : Prop where
  head : ∀ c ∈ s.head?, isBlank c = false
  last : ∀ c ∈ s.getLast?, isBlank c = false

/-- The ends of a text are checked one by one. -/
theorem trimmed_iff :
    Trimmed s ↔ (s.head?.all fun c => !isBlank c) = true ∧
      (s.getLast?.all fun c => !isBlank c) = true := by
  simp only [Option.all_eq_true, Bool.not_eq_true']
  exact ⟨fun h => ⟨h.head, h.last⟩, fun h => ⟨h.1, h.2⟩⟩

instance (s : List Char) : Decidable (Trimmed s) :=
  decidable_of_iff' _ trimmed_iff

theorem trimStart_of_head (h : ∀ c ∈ s.head?, isBlank c = false) : trimStart s = s := by
  cases s with
  | nil => rfl
  | cons c s => rw [trimStart, List.dropWhile_cons_of_neg (by simp [h c rfl])]

theorem trimStart_append (h : ∀ c ∈ left, isBlank c = true) :
    trimStart (left ++ s) = trimStart s :=
  List.dropWhile_append_of_pos h

/-- Trimming the end is trimming the start of the text read backwards. -/
theorem trimEnd_eq_reverse (s : List Char) : trimEnd s = (trimStart s.reverse).reverse := rfl

theorem trimEnd_of_last (h : ∀ c ∈ s.getLast?, isBlank c = false) : trimEnd s = s := by
  rw [trimEnd_eq_reverse, trimStart_of_head (by rwa [List.head?_reverse]), List.reverse_reverse]

theorem trimEnd_append (h : ∀ c ∈ right, isBlank c = true) : trimEnd (s ++ right) = trimEnd s := by
  have hreverse : ∀ c ∈ right.reverse, isBlank c = true := fun c hc => h c (List.mem_reverse.mp hc)
  rw [trimEnd_eq_reverse, List.reverse_append, trimStart_append hreverse, trimEnd_eq_reverse]

/-- Trimming the end goes no further than the last character that is not blank. -/
theorem trimEnd_append_cons (h : isBlank c = false) :
    trimEnd (before ++ c :: after) = before ++ c :: trimEnd after := by
  induction after using List.reverseRecOn with
  | nil => exact trimEnd_of_last (by simpa using h)
  | append_singleton after d ih =>
    have hassoc : before ++ c :: (after ++ [d]) = (before ++ c :: after) ++ [d] := by simp
    cases hd : isBlank d with
    | true =>
      have hblank : ∀ c ∈ [d], isBlank c = true := by simpa using hd
      rw [hassoc, trimEnd_append hblank, ih, trimEnd_append hblank]
    | false =>
      have hlast (s : List Char) : trimEnd (s ++ [d]) = s ++ [d] :=
        trimEnd_of_last (by simpa using hd)
      rw [hassoc, hlast, hlast, hassoc]

theorem trim_append_left (h : ∀ c ∈ left, isBlank c = true) : trim (left ++ s) = trim s := by
  rw [trim, trimStart_append h, trim]

theorem trim_append_right (h : ∀ c ∈ right, isBlank c = true) : trim (s ++ right) = trim s := by
  have hright : trimStart right = [] := List.dropWhile_eq_nil_iff.mpr h
  unfold trim
  rw [trimStart, List.dropWhile_append]
  split
  · next hnil =>
    rw [List.isEmpty_iff] at hnil
    rw [← trimStart, hright, trimStart, hnil]
  · exact trimEnd_append h

theorem Trimmed.trim_eq (h : Trimmed s) : trim s = s := by
  rw [trim, trimStart_of_head h.head, trimEnd_of_last h.last]

/-- The blanks around a text without blanks at its ends are all that trimming removes. -/
theorem trim_padded (hleft : ∀ c ∈ left, isBlank c = true) (hs : Trimmed s)
    (hright : ∀ c ∈ right, isBlank c = true) : trim (left ++ s ++ right) = s := by
  rw [trim_append_right hright, trim_append_left hleft, hs.trim_eq]

/-- The end of a text without blanks at its ends ends in no blank. -/
theorem Trimmed.last_append (h : Trimmed (before ++ after)) :
    ∀ c ∈ after.getLast?, isBlank c = false := by
  intro c hc
  apply h.last c
  rw [List.getLast?_append, Option.mem_def.mp hc]
  rfl

/-- A text is its start and the blanks at its end. -/
theorem exists_trimEnd_append (s : List Char) :
    ∃ right, (∀ c ∈ right, isBlank c = true) ∧ s = trimEnd s ++ right :=
  ⟨s.rtakeWhile isBlank, fun _ => List.mem_rtakeWhile_imp, List.rdropWhile_append_rtakeWhile.symm⟩

theorem trim_trimEnd (s : List Char) : trim (trimEnd s) = trim s := by
  obtain ⟨right, hright, hs⟩ := exists_trimEnd_append s
  conv_rhs => rw [hs, trim_append_right hright]

/-- A text is the blanks at its ends and what trimming leaves. -/
theorem exists_trim_padded (s : List Char) :
    ∃ left right, (∀ c ∈ left, isBlank c = true) ∧ (∀ c ∈ right, isBlank c = true) ∧
      s = left ++ trim s ++ right := by
  obtain ⟨right, hright, hs⟩ := exists_trimEnd_append (trimStart s)
  refine ⟨s.takeWhile isBlank, right, fun _ => List.mem_takeWhile_imp, hright, ?_⟩
  rw [List.append_assoc, trim, ← hs]
  exact List.takeWhile_append_dropWhile.symm

theorem not_isBlank_head_trimStart (s : List Char) :
    ∀ c ∈ (trimStart s).head?, isBlank c = false := by
  intro c hc
  have hhead := List.head?_dropWhile_not isBlank s
  rw [← trimStart, hc] at hhead
  exact hhead

/-- What trimming leaves has no blank at either end. -/
theorem trimmed_trim (s : List Char) : Trimmed (trim s) := by
  have hlast : ∀ c ∈ (trim s).getLast?, isBlank c = false := by
    rw [trim, trimEnd_eq_reverse, List.getLast?_reverse]
    exact not_isBlank_head_trimStart _
  refine ⟨fun c hc => ?_, hlast⟩
  obtain ⟨right, -, hs⟩ := exists_trimEnd_append (trimStart s)
  apply not_isBlank_head_trimStart s c
  rw [hs, List.head?_append, ← trim, Option.mem_def.mp hc]
  rfl

/-- A text that begins with no blank does not begin with blanks. -/
theorem eq_nil_of_blank_of_head (hblank : ∀ c ∈ left, isBlank c = true)
    (hhead : ∀ c ∈ (left ++ s).head?, isBlank c = false) : left = [] := by
  cases left with
  | nil => rfl
  | cons c left =>
    have hc := hhead c rfl
    rw [hblank c List.mem_cons_self] at hc
    exact absurd hc (by decide)

/-- A text that ends in no blank does not end in blanks. -/
theorem eq_nil_of_blank_of_last (hblank : ∀ c ∈ right, isBlank c = true)
    (hlast : ∀ c ∈ (s ++ right).getLast?, isBlank c = false) : right = [] := by
  rw [← List.reverse_eq_nil_iff]
  refine eq_nil_of_blank_of_head (s := s.reverse) (fun c hc => hblank c (List.mem_reverse.mp hc)) ?_
  rwa [← List.reverse_append, List.head?_reverse]

/-! ### Cutting -/

theorem splitOn_of_not_mem (h : sep ∉ s) : splitOn sep s = [s] := by
  induction s with
  | nil => rfl
  | cons c s ih =>
    have hc : c ≠ sep := (List.ne_of_not_mem_cons h).symm
    rw [splitOn, if_neg hc, ih (List.not_mem_of_not_mem_cons h)]

/-- Of two texts with a separator in between, the pieces are those of the one and then those of the
other. -/
theorem splitOn_append_sep (before after : List Char) :
    splitOn sep (before ++ sep :: after) = splitOn sep before ++ splitOn sep after := by
  induction before with
  | nil => exact splitOn_cons_self sep after
  | cons c before ih =>
    rw [List.cons_append, splitOn, splitOn]
    by_cases hc : c = sep
    · rw [if_pos hc, if_pos hc, ih, List.cons_append]
    · rw [if_neg hc, if_neg hc, ih]
      cases hpieces : splitOn sep before with
      | nil => exact absurd hpieces (splitOn_ne_nil sep before)
      | cons piece pieces => rfl

/-- The first piece ends at the first separator. -/
theorem splitOn_append_cons (h : sep ∉ before) (after : List Char) :
    splitOn sep (before ++ sep :: after) = before :: splitOn sep after := by
  rw [splitOn_append_sep, splitOn_of_not_mem h, List.singleton_append]

/-- A text is cut exactly where it has a first separator. -/
theorem cutAt?_eq_some_iff :
    cutAt? sep s = some (before, after) ↔ sep ∉ before ∧ s = before ++ sep :: after := by
  constructor
  · intro h
    induction s generalizing before with
    | nil => simp [cutAt?] at h
    | cons c s ih =>
      rw [cutAt?] at h
      split at h
      · next hc =>
        obtain ⟨rfl, rfl⟩ := Prod.mk.inj (Option.some.inj h)
        exact ⟨List.not_mem_nil, by rw [hc]; rfl⟩
      · next hc =>
        obtain ⟨⟨first, _⟩, hrest, heq⟩ := Option.map_eq_some_iff.mp h
        obtain ⟨rfl, rfl⟩ := Prod.mk.inj heq
        obtain ⟨hfirst, hs⟩ := ih hrest
        refine ⟨?_, by rw [hs]; rfl⟩
        exact List.not_mem_cons_of_ne_of_not_mem (Ne.symm hc) hfirst
  · rintro ⟨hbefore, rfl⟩
    exact cutAt?_append hbefore after

theorem dropStart?_eq_some_iff : dropStart? start s = some rest ↔ s = start ++ rest := by
  induction start generalizing s with
  | nil => simp [dropStart?]
  | cons a start ih =>
    cases s with
    | nil => simp [dropStart?]
    | cons c s =>
      rw [dropStart?]
      split
      · next hac => simp [ih, hac]
      · next hac => simp [Ne.symm hac]

theorem dropStart?_eq_none_iff : dropStart? start s = none ↔ ¬ start <+: s := by
  rw [Option.eq_none_iff_forall_ne_some, List.prefix_iff_exists_append_eq, not_exists]
  exact forall_congr' fun rest => by rw [Ne, dropStart?_eq_some_iff, eq_comm]

end Text

end LayeredEnv
