import LayeredEnv.Command
import LayeredEnv.Proofs.EnvironmentLayer
import LayeredEnv.Proofs.Trimming

/-!
# The environment of a child

An entry of a block is read back as the variable that was written exactly if the name of the
variable is one that survives: it is not empty and has no sign after its first character
(`EnvironmentBlock.split?_eq_some_iff`).  A child is started with the variables that are found in
the block of its parent and with the added ones on top of these.  If the added names survive, the
child finds each added variable with its own text and no other, and of the rest what its parent
found (`Command.onTop_childEnvironment`); where the parent found each variable once, that is the
same value (`EnvironmentBlock.OnTop.mem_found_iff`).  In particular a child that is started with the
variables of a resolution finds for every value the text that it is exported as
(`Resolution.get?_childEnvironment`).
-/

namespace LayeredEnv

/-! ### The last of each key -/

namespace KeyMap

variable {α : Type u}

theorem find?_append (key : String) (l l' : List (String × α)) :
    find? key (l ++ l') = (find? key l).or (find? key l') := by
  induction l with
  | nil => rfl
  | cons p l ih =>
    by_cases hkey : p.1 = key
    · simp [find?, hkey]
    · simp [find?, hkey, ih]

/-- The map of a list holds for each key what is listed last. -/
theorem get?_ofList (l : List (String × α)) (key : String) :
    (ofList l).get? key = find? key l.reverse := by
  have hfold : ∀ m : KeyMap α, (l.foldl (fun m p => m.insert p.1 p.2) m).get? key =
      (find? key l.reverse).or (m.get? key) := by
    induction l with
    | nil => intro m; rfl
    | cons p l ih =>
      intro m
      rw [List.foldl_cons, ih, List.reverse_cons, find?_append, Option.or_assoc, get?_insert]
      congr 1
      by_cases hkey : p.1 = key
      · simp [find?, hkey]
      · simp [find?, hkey, Ne.symm hkey]
  rw [ofList, hfold, get?_empty, Option.or_none]

/-- Pairs that list every key once go before what is listed before them. -/
theorem get?_ofList_append {l l' : List (String × α)} (hnodup : (l'.map Prod.fst).Nodup)
    (key : String) :
    (ofList (l ++ l')).get? key = (find? key l').or ((ofList l).get? key) := by
  rw [get?_ofList, get?_ofList, List.reverse_append, find?_append,
    ← find?_perm (List.reverse_perm l').symm hnodup]

end KeyMap

/-! ### Names that survive -/

namespace EnvironmentBlock

variable {block : EnvironmentBlock} {name value : String}

/-- A name that survives in an entry has a first character and no sign after it. -/
structure IsName (name : String) : Prop where
  nonempty : name ≠ ""
  noSign : '=' ∉ name.toList.tail

/-- An entry is read as a variable exactly if it is the entry of that variable and the name
survives. -/
theorem split?_eq_some_iff {entry : String} :
    split? entry = some (name, value) ↔ IsName name ∧ entry = name ++ "=" ++ value := by
  constructor
  · intro h
    unfold split? at h
    split at h
    · simp at h
    · next c rest hentry =>
      obtain ⟨⟨before, after⟩, hcut, hpair⟩ := Option.map_eq_some_iff.mp h
      obtain ⟨hsign, rfl⟩ := Text.cutAt?_eq_some_iff.mp hcut
      obtain ⟨rfl, rfl⟩ := Prod.mk.inj hpair
      refine ⟨⟨by simp, by simpa using hsign⟩, String.toList_injective ?_⟩
      simp [hentry]
  · rintro ⟨⟨hne, hsign⟩, rfl⟩
    cases hname : name.toList with
    | nil => exact absurd (String.toList_eq_nil_iff.mp hname) hne
    | cons c rest =>
      have hrest : '=' ∉ rest := by simpa [hname] using hsign
      have hentry : (name ++ "=" ++ value).toList = c :: (rest ++ '=' :: value.toList) := by
        simp [hname]
      simp only [split?, hentry, Text.cutAt?_append hrest, Option.map_some, ← hname,
        String.ofList_toList]

/-- Only names that survive are found. -/
theorem isName_of_mem_found (h : (name, value) ∈ block.found) : IsName name := by
  obtain ⟨e, -, hsplit⟩ := List.mem_filterMap.mp h
  exact (split?_eq_some_iff.mp hsplit).1

/-- If all names survive, the variables that are found are those that were written. -/
theorem found_eq_self (h : ∀ e ∈ block, IsName e.1) : block.found = block := by
  have hsplit : ∀ e ∈ block, split? (e.1 ++ "=" ++ e.2) = some e := fun e he =>
    split?_eq_some_iff.mpr ⟨h e he, rfl⟩
  exact (List.filterMap_congr hsplit).trans List.filterMap_some

/-- The live environment of a block has the first value that is found for a variable. -/
theorem get?_ofBlock (block : EnvironmentBlock) (name : String) :
    (LiveEnvironment.ofBlock block).get? name = KeyMap.find? name block.found := by
  refine (KeyMap.get?_ofList block.found.reverse name).trans ?_
  rw [List.reverse_reverse]

/-! ### Variables on top of others -/

/-- In the block of a child the added variables are on top of those of its parent: each added
variable is found with its own text and no other, any other variable that is found is one of the
parent's, and none of the parent's is lost. -/
structure OnTop (inherited : EnvironmentBlock) (added : List (String × String))
    (child : EnvironmentBlock) : Prop where
  own : ∀ name text, (name, text) ∈ added → ∀ value, (name, value) ∈ child.found ↔ value = text
  other : ∀ name, name ∉ added.map Prod.fst → ∀ value, (name, value) ∈ child.found →
    (name, value) ∈ inherited.found
  kept : ∀ name value, (name, value) ∈ inherited.found → ∃ value', (name, value') ∈ child.found

/-- A variable that is not added is found exactly as the parent found it, if the parent found each
variable once. -/
theorem OnTop.mem_found_iff {inherited child : EnvironmentBlock} {added : List (String × String)}
    (h : OnTop inherited added child) (hnodup : (inherited.found.map Prod.fst).Nodup)
    (hname : name ∉ added.map Prod.fst) :
    (name, value) ∈ child.found ↔ (name, value) ∈ inherited.found := by
  refine ⟨h.other name hname value, fun hmem => ?_⟩
  obtain ⟨value', hvalue'⟩ := h.kept name value hmem
  have hpair : (name, value') = (name, value) :=
    List.inj_on_of_nodup_map hnodup (h.other name hname value' hvalue') hmem rfl
  rwa [← hpair]

end EnvironmentBlock

namespace Command

open EnvironmentBlock

variable {inherited : EnvironmentBlock} {added : List (String × String)}

/-- Without added variables a child has the block of its parent. -/
theorem onTop_nil (inherited : EnvironmentBlock) : OnTop inherited [] inherited where
  own _ _ h := absurd h List.not_mem_nil
  other _ _ _ h := h
  kept _ value h := ⟨value, h⟩

/-- In the map that a child is started with, an added variable goes before what the parent found. -/
theorem mem_entries_iff_of_nodup (hnodup : (added.map Prod.fst).Nodup) {name value : String} :
    (name, value) ∈ (KeyMap.ofList (inherited.found ++ added)).entries ↔
      (KeyMap.find? name added).or (KeyMap.find? name inherited.found.reverse) = some value := by
  rw [KeyMap.mem_entries_iff, KeyMap.get?_ofList_append hnodup, KeyMap.get?_ofList]

/-- A child with added variables finds under a name what is added for it, or else the last value
that its parent found. -/
theorem mem_found_childEnvironment_iff (hnodup : (added.map Prod.fst).Nodup)
    (hnames : ∀ p ∈ added, IsName p.1) (hadded : added ≠ []) {name value : String} :
    (name, value) ∈ (childEnvironment inherited added).found ↔
      (KeyMap.find? name added).or (KeyMap.find? name inherited.found.reverse) = some value := by
  have hnamed : ∀ e ∈ (KeyMap.ofList (inherited.found ++ added)).entries, IsName e.1 := by
    rintro ⟨name, value⟩ he
    rcases Option.or_eq_some_iff.mp ((mem_entries_iff_of_nodup hnodup).mp he) with
      hown | ⟨-, hfound⟩
    · exact hnames _ (KeyMap.mem_of_find? hown)
    · exact isName_of_mem_found (List.mem_reverse.mp (KeyMap.mem_of_find? hfound))
  have hchild : childEnvironment inherited added =
      (KeyMap.ofList (inherited.found ++ added)).entries := by
    simp [childEnvironment, hadded]
  rw [hchild, found_eq_self hnamed]
  exact mem_entries_iff_of_nodup hnodup

/-- A child finds the added variables on top of those of its parent, if each is added once and under
a name that survives. -/
theorem onTop_childEnvironment (hnodup : (added.map Prod.fst).Nodup)
    (hnames : ∀ p ∈ added, IsName p.1) :
    OnTop inherited added (childEnvironment inherited added) := by
  by_cases hempty : added = []
  · subst hempty
    exact onTop_nil inherited
  have hfound : ∀ name value, (name, value) ∈ (childEnvironment inherited added).found ↔
      (KeyMap.find? name added).or (KeyMap.find? name inherited.found.reverse) = some value :=
    fun name value => mem_found_childEnvironment_iff hnodup hnames hempty
  constructor
  · intro name text hmem value
    have hown : KeyMap.find? name added = some text :=
      (KeyMap.find?_eq_some_iff_of_nodup hnodup).mpr hmem
    rw [hfound, hown, Option.some_or, Option.some.injEq, eq_comm]
  · intro name hname value hmem
    have hnone : KeyMap.find? name added = none := KeyMap.find?_eq_none_iff.mpr hname
    rw [hfound, hnone, Option.none_or] at hmem
    exact List.mem_reverse.mp (KeyMap.mem_of_find? hmem)
  · intro name value hmem
    cases hown : KeyMap.find? name added with
    | some text => exact ⟨text, (hfound name text).mpr (by rw [hown, Option.some_or])⟩
    | none =>
      have hlisted : name ∈ inherited.found.reverse.map Prod.fst :=
        List.mem_map_of_mem (List.mem_reverse.mpr hmem)
      obtain ⟨value', hvalue'⟩ := Option.ne_none_iff_exists'.mp
        fun hnone => KeyMap.find?_eq_none_iff.mp hnone hlisted
      exact ⟨value', (hfound name value').mpr (by rw [hown, Option.none_or, hvalue'])⟩

end Command

/-! ### The variables of a resolution -/

namespace Resolution

/-- Every key is one variable of the environment. -/
theorem keys_environment (r : Resolution) : r.environment.map Prod.fst = r.values.keys := by
  simp [environment, KeyMap.keys, Function.comp_def]

theorem nodup_environment (r : Resolution) : (r.environment.map Prod.fst).Nodup := by
  rw [r.keys_environment]
  exact LiveEnvironment.nodup_keys r.values

variable {parent : Resolution} {inherited : EnvironmentBlock} {key : String} {v : Json}

/-- The live environment of a child that is started with the variables of a resolution. -/
def childEnvironment (parent : Resolution) (inherited : EnvironmentBlock) : LiveEnvironment :=
  .ofBlock (Command.childEnvironment inherited parent.environment)

/-- If the names survive, a child finds for a value the text that it is exported as. -/
theorem get?_childEnvironment (hnames : ∀ p ∈ parent.environment, EnvironmentBlock.IsName p.1)
    (h : parent.values.get? key = some v) :
    (parent.childEnvironment inherited).get? key = some v.display := by
  have hadded : (key, v.display) ∈ parent.environment :=
    List.mem_map.mpr ⟨(key, v), KeyMap.mem_entries_iff.mpr h, rfl⟩
  have hown : ∀ text, (key, text) ∈ (Command.childEnvironment inherited parent.environment).found ↔
      text = v.display :=
    (Command.onTop_childEnvironment parent.nodup_environment hnames).own key v.display hadded
  rw [childEnvironment, EnvironmentBlock.get?_ofBlock]
  cases hfind : KeyMap.find? key (Command.childEnvironment inherited parent.environment).found with
  | none =>
    have hlisted := List.mem_map_of_mem (f := Prod.fst) ((hown v.display).mpr rfl)
    exact absurd hlisted (KeyMap.find?_eq_none_iff.mp hfind)
  | some text => rw [(hown text).mp (KeyMap.mem_of_find? hfind)]

end Resolution

end LayeredEnv
