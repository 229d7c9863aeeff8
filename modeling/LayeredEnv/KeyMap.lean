/-!
# Maps with sorted keys

A `KeyMap` is a list of pairs whose keys are strictly increasing by code point.  The order is part
of the type, so two maps with the same `get?` are equal (`KeyMap.ext_get?`), and whatever walks a
map walks it in key order.
-/

namespace LayeredEnv

/-- A finite map from texts, listed by increasing key. -/
structure KeyMap (α : Type u) where
  entries : List (String × α)
  sorted : entries.Pairwise fun a b => a.1 < b.1

namespace KeyMap

variable {α : Type u} {β : Type v}

/-- Two keys that are neither below nor equal to one another do not exist. -/
theorem lt_of_not_lt_of_ne {a b : String} (h : ¬ a < b) (hne : a ≠ b) : b < a := by
  rcases Decidable.em (b < a) with hb | hb
  · exact hb
  · exact absurd (String.le_antisymm (String.not_lt.1 hb) (String.not_lt.1 h)) hne

theorem ne_of_lt {a b : String} (h : a < b) : a ≠ b :=
  fun e => String.lt_irrefl b (e ▸ h)

/-! ### Reading -/

/-- The value of a key in a list of pairs: the first one listed. -/
def find? (key : String) : List (String × α) → Option α
  | [] => none
  | (k, v) :: rest => if k = key then some v else find? key rest

/-- The value of a key. -/
def get? (m : KeyMap α) (key : String) : Option α :=
  find? key m.entries

/-- Whether a key is present. -/
def contains (m : KeyMap α) (key : String) : Bool :=
  (m.get? key).isSome

/-- The keys, increasing. -/
def keys (m : KeyMap α) : List String :=
  m.entries.map Prod.fst

/-- How many keys there are. -/
def size (m : KeyMap α) : Nat :=
  m.entries.length

/-- The map without keys. -/
def empty : KeyMap α :=
  ⟨[], .nil⟩

instance : EmptyCollection (KeyMap α) := ⟨empty⟩

instance : Inhabited (KeyMap α) := ⟨empty⟩

/-! ### Writing -/

/-- The pairs with `key` holding `value`, at its place in the order. -/
def put (key : String) (value : α) : List (String × α) → List (String × α)
  | [] => [(key, value)]
  | (k, v) :: rest =>
    if key < k then (key, value) :: (k, v) :: rest
    else if key = k then (key, value) :: rest
    else (k, v) :: put key value rest

theorem mem_put {key : String} {value : α} {l : List (String × α)} {p : String × α}
    (h : p ∈ put key value l) : p = (key, value) ∨ p ∈ l := by
  induction l with
  | nil => simpa [put] using h
  | cons q rest ih =>
    rw [put] at h
    split at h
    · simpa using h
    · split at h
      · rcases List.mem_cons.1 h with h | h
        · exact .inl h
        · exact .inr (List.mem_cons_of_mem _ h)
      · rcases List.mem_cons.1 h with h | h
        · exact .inr (h ▸ List.mem_cons_self ..)
        · exact (ih h).imp_right (List.mem_cons_of_mem _)

theorem sorted_put (key : String) (value : α) {l : List (String × α)}
    (h : l.Pairwise fun a b => a.1 < b.1) : (put key value l).Pairwise fun a b => a.1 < b.1 := by
  induction l with
  | nil => simp [put]
  | cons q rest ih =>
    have hq := List.pairwise_cons.1 h
    rw [put]
    split
    · next hlt =>
      refine List.pairwise_cons.2 ⟨fun p hp => ?_, h⟩
      rcases List.mem_cons.1 hp with rfl | hp
      · exact hlt
      · exact String.lt_trans hlt (hq.1 p hp)
    · next hnlt =>
      split
      · next heq => exact List.pairwise_cons.2 ⟨fun p hp => heq ▸ hq.1 p hp, hq.2⟩
      · next hne =>
        refine List.pairwise_cons.2 ⟨fun p hp => ?_, ih hq.2⟩
        rcases mem_put hp with rfl | hp
        · exact lt_of_not_lt_of_ne hnlt hne
        · exact hq.1 p hp

/-- The map with `key` holding `value`. -/
def insert (m : KeyMap α) (key : String) (value : α) : KeyMap α :=
  ⟨put key value m.entries, sorted_put key value m.sorted⟩

/-- The map with `key` holding `value` unless it holds something already. -/
def insertIfNew (m : KeyMap α) (key : String) (value : α) : KeyMap α :=
  if m.contains key then m else m.insert key value

/-- The map of the pairs of a list, the last one listed of each key. -/
def ofList (l : List (String × α)) : KeyMap α :=
  l.foldl (fun m p => m.insert p.1 p.2) empty

/-- The values changed by `f`, key by key. -/
def mapWithKey (f : String → α → β) (m : KeyMap α) : KeyMap β :=
  ⟨m.entries.map fun p => (p.1, f p.1 p.2), List.pairwise_map.2 m.sorted⟩

/-- The values changed by `f`. -/
def map (f : α → β) (m : KeyMap α) : KeyMap β :=
  m.mapWithKey fun _ => f

/-- Changes the values of pairs one by one, up to the first error; the keys stay. -/
def traversePairs (f : String → α → Except ε β) :
    (l : List (String × α)) → Except ε { r : List (String × β) // r.map Prod.fst = l.map Prod.fst }
  | [] => .ok ⟨[], rfl⟩
  | (key, a) :: rest =>
    match f key a with
    | .error e => .error e
    | .ok b =>
      match traversePairs f rest with
      | .error e => .error e
      | .ok ⟨r, hr⟩ => .ok ⟨(key, b) :: r, by simp [hr]⟩

/-- The values changed by `f` in key order, up to the first error. -/
def traverse (f : String → α → Except ε β) (m : KeyMap α) : Except ε (KeyMap β) :=
  match traversePairs f m.entries with
  | .error e => .error e
  | .ok ⟨r, hr⟩ =>
    .ok ⟨r, List.pairwise_map.1 (hr ▸ List.pairwise_map.2 m.sorted)⟩

/-- The pairs that pass a test. -/
def filter (keep : String → α → Bool) (m : KeyMap α) : KeyMap α :=
  ⟨m.entries.filter fun p => keep p.1 p.2, m.sorted.sublist List.filter_sublist⟩

/-! ### What reading says of writing -/

@[simp] theorem get?_empty (key : String) : (empty : KeyMap α).get? key = none := rfl

theorem find?_put (key : String) (value : α) (l : List (String × α)) (k : String)
    (h : l.Pairwise fun a b => a.1 < b.1) :
    find? k (put key value l) = if k = key then some value else find? k l := by
  induction l with
  | nil => simp [put, find?, eq_comm]
  | cons q rest ih =>
    have hq := List.pairwise_cons.1 h
    rw [put]
    split
    · by_cases hk : k = key
      · simp [find?, hk]
      · simp [find?, hk, Ne.symm hk]
    · split
      · next heq =>
        by_cases hk : k = key
        · simp [find?, hk]
        · have hk' : ¬ key = k := fun e => hk e.symm
          have hq' : ¬ q.1 = k := fun e => hk (heq ▸ e.symm)
          simp [find?, hk, hk', hq']
      · next hne =>
        by_cases hqk : q.1 = k
        · have hk : ¬ k = key := fun e => hne (e ▸ hqk.symm)
          simp [find?, hqk, hk]
        · simp [find?, hqk, ih hq.2]

theorem get?_insert (m : KeyMap α) (key : String) (value : α) (k : String) :
    (m.insert key value).get? k = if k = key then some value else m.get? k :=
  find?_put key value m.entries k m.sorted

@[simp] theorem get?_insert_self (m : KeyMap α) (key : String) (value : α) :
    (m.insert key value).get? key = some value := by
  simp [get?_insert]

theorem get?_insertIfNew (m : KeyMap α) (key : String) (value : α) (k : String) :
    (m.insertIfNew key value).get? k =
      if k = key then some ((m.get? key).getD value) else m.get? k := by
  unfold insertIfNew contains
  cases h : m.get? key with
  | none => by_cases hk : k = key <;> simp [get?_insert, hk]
  | some v => by_cases hk : k = key <;> simp [hk, h]

theorem find?_map (f : String → α → β) (l : List (String × α)) (k : String) :
    find? k (l.map fun p => (p.1, f p.1 p.2)) = (find? k l).map (f k) := by
  induction l with
  | nil => rfl
  | cons q rest ih =>
    by_cases h : q.1 = k
    · simp [find?, h]
    · simp [find?, h, ih]

@[simp] theorem get?_mapWithKey (f : String → α → β) (m : KeyMap α) (k : String) :
    (m.mapWithKey f).get? k = (m.get? k).map (f k) :=
  find?_map f m.entries k

@[simp] theorem get?_map (f : α → β) (m : KeyMap α) (k : String) :
    (m.map f).get? k = (m.get? k).map f :=
  get?_mapWithKey _ m k

@[simp] theorem contains_map (f : α → β) (m : KeyMap α) (k : String) :
    (m.map f).contains k = m.contains k := by
  simp [contains]

@[simp] theorem keys_mapWithKey (f : String → α → β) (m : KeyMap α) :
    (m.mapWithKey f).keys = m.keys := by
  simp [keys, mapWithKey, Function.comp_def]

theorem find?_eq_none_iff {l : List (String × α)} {k : String} :
    find? k l = none ↔ k ∉ l.map Prod.fst := by
  induction l with
  | nil => simp [find?]
  | cons q rest ih =>
    by_cases h : q.1 = k
    · simp [find?, h]
    · simp [find?, h, ih, Ne.symm h]

theorem get?_eq_none_iff {m : KeyMap α} {k : String} : m.get? k = none ↔ k ∉ m.keys :=
  find?_eq_none_iff

theorem mem_keys_iff {m : KeyMap α} {k : String} : k ∈ m.keys ↔ ∃ v, m.get? k = some v := by
  rw [← Option.isSome_iff_exists, Option.isSome_iff_ne_none, Ne, get?_eq_none_iff,
    Decidable.not_not]

theorem mem_of_find? {l : List (String × α)} {k : String} {v : α} (h : find? k l = some v) :
    (k, v) ∈ l := by
  induction l with
  | nil => simp [find?] at h
  | cons q rest ih =>
    rw [find?] at h
    split at h
    · next e =>
      obtain rfl := e
      obtain rfl := Option.some.inj h
      exact List.mem_cons_self ..
    · exact List.mem_cons_of_mem _ (ih h)

theorem find?_of_mem {l : List (String × α)} {k : String} {v : α}
    (hs : l.Pairwise fun a b => a.1 < b.1) (h : (k, v) ∈ l) : find? k l = some v := by
  induction l with
  | nil => simp at h
  | cons q rest ih =>
    have hq := List.pairwise_cons.1 hs
    rcases List.mem_cons.1 h with rfl | h
    · simp [find?]
    · have : q.1 ≠ k := ne_of_lt (hq.1 _ h)
      simp [find?, this, ih hq.2 h]

/-- A pair is listed exactly if its key holds its value. -/
theorem mem_entries_iff {m : KeyMap α} {k : String} {v : α} :
    (k, v) ∈ m.entries ↔ m.get? k = some v :=
  ⟨find?_of_mem m.sorted, mem_of_find?⟩

theorem get?_filter (keep : String → α → Bool) (m : KeyMap α) (k : String) :
    (m.filter keep).get? k = (m.get? k).filter (keep k) := by
  refine Option.ext fun v => ?_
  rw [← mem_entries_iff, Option.filter_eq_some_iff, ← mem_entries_iff]
  exact List.mem_filter

/-- Maps that hold the same values are equal. -/
theorem ext_get? {m n : KeyMap α} (h : ∀ k, m.get? k = n.get? k) : m = n := by
  suffices ∀ l r : List (String × α), (l.Pairwise fun a b => a.1 < b.1) →
      (r.Pairwise fun a b => a.1 < b.1) → (∀ k, find? k l = find? k r) → l = r by
    cases m; cases n; simp only [mk.injEq]; exact this _ _ ‹_› ‹_› h
  intro l
  induction l with
  | nil =>
    intro r _ _ h
    cases r with
    | nil => rfl
    | cons q r => simpa [find?] using h q.1
  | cons p l ih =>
    intro r hl hr h
    cases r with
    | nil => simpa [find?] using h p.1
    | cons q r =>
      have hp := List.pairwise_cons.1 hl
      have hq := List.pairwise_cons.1 hr
      have hkey : p.1 = q.1 := by
        have h1 : (p.1, p.2) ∈ q :: r :=
          mem_of_find? ((h p.1).symm.trans (by simp [find?]))
        have h2 : (q.1, q.2) ∈ p :: l :=
          mem_of_find? ((h q.1).trans (by simp [find?]))
        rcases List.mem_cons.1 h1 with e | h1
        · exact congrArg Prod.fst e
        · rcases List.mem_cons.1 h2 with e | h2
          · exact (congrArg Prod.fst e).symm
          · exact absurd (String.lt_trans (hp.1 _ h2) (hq.1 _ h1)) (String.lt_irrefl _)
      have hval : p = q := by
        have := h p.1
        simp [find?, hkey] at this
        exact Prod.ext hkey this
      subst hval
      refine congrArg _ (ih r hp.2 hq.2 fun k => ?_)
      have := h k
      by_cases hk : p.1 = k
      · have hn : ∀ s : List (String × α), (∀ b ∈ s, p.1 < b.1) → find? k s = none :=
          fun s hs => find?_eq_none_iff.2 fun hm => by
            obtain ⟨b, hb, e⟩ := List.mem_map.1 hm
            exact ne_of_lt (hs b hb) (hk.trans e.symm)
        rw [hn l hp.1, hn r hq.1]
      · simpa [find?, hk] using this

theorem map_insert (f : α → β) (m : KeyMap α) (key : String) (value : α) :
    (m.insert key value).map f = (m.map f).insert key (f value) := by
  refine ext_get? fun k => ?_
  simp only [get?_map, get?_insert]
  split <;> rfl

/-- The other map holds what this one holds, and maybe more. -/
def Extends (m n : KeyMap α) : Prop :=
  ∀ key v, m.get? key = some v → n.get? key = some v

/-- Changing all values keeps it so that one map holds what the other one holds. -/
theorem Extends.map {m n : KeyMap α} (h : m.Extends n) (f : α → β) :
    (m.map f).Extends (n.map f) := by
  intro key v hget
  rw [get?_map, Option.map_eq_some_iff] at hget ⊢
  obtain ⟨a, ha, rfl⟩ := hget
  exact ⟨a, h key a ha, rfl⟩

end KeyMap

end LayeredEnv
