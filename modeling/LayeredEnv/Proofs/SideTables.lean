import LayeredEnv.Proofs.Stages

/-!
# Values and origins in tables of their own

A resolution binds a key to a value together with its origin, so no key can have one without the
other.  A resolver may as well keep one table of values and another one of origins.  Each stage then
reads the values and has to keep the origins in step: the filling stages write both tables, the
conversions write values only, and a schema hands back a table of values without any origins.

`Request.resolveTables` is such a resolver.  Its conversions are a loop over the keys that have one,
where `Request.convert` walks the bindings; the first key that cannot be converted is the same for
both (`KeyMap.findSome?_entries_comm`).

Main statement: the tables are those of the bindings, fault for fault
(`Request.resolveTables_eq`).
-/

namespace LayeredEnv

/-- What a computation failed with, if it did. -/
def errorOf? {ε : Type u} {α : Type v} : Except ε α → Option ε
  | .ok _ => none
  | .error e => some e

theorem errorOf?_eq_some_iff {ε : Type u} {α : Type v} {x : Except ε α} {e : ε} :
    errorOf? x = some e ↔ x = .error e := by
  cases x <;> simp [errorOf?]

theorem errorOf?_eq_none_iff {ε : Type u} {α : Type v} {x : Except ε α} :
    errorOf? x = none ↔ ∃ a, x = .ok a := by
  cases x <;> simp [errorOf?]

namespace KeyMap

variable {α : Type u} {β : Type v} {γ : Type w}

/-! ### Walks along two maps -/

/-- In a map a pair with a lower key than another one stands before that one. -/
theorem mem_before_of_lt {m : KeyMap α} {before after : List (String × α)} {p q : String × α}
    (hm : m.entries = before ++ p :: after) (hq : q ∈ m.entries) (hlt : q.1 < p.1) :
    q ∈ before := by
  rw [hm] at hq
  rcases List.mem_append.mp hq with hbefore | hafter
  · exact hbefore
  · have hsorted := (List.pairwise_append.mp (hm ▸ m.sorted)).2.1
    rcases List.mem_cons.mp hafter with rfl | hafter
    · exact absurd hlt (String.lt_irrefl _)
    · have hgt := (List.pairwise_cons.mp hsorted).1 q hafter
      exact absurd (String.lt_trans hlt hgt) (String.lt_irrefl _)

/-- Along a map, the find that comes first is the one with the least key. -/
theorem findSome?_entries_eq_some_iff {f : String → α → Option γ} {m : KeyMap α} {c : γ} :
    (m.entries.findSome? fun p => f p.1 p.2) = some c ↔
      ∃ key a, m.get? key = some a ∧ f key a = some c ∧
        ∀ key' a', m.get? key' = some a' → key' < key → f key' a' = none := by
  constructor
  · intro h
    obtain ⟨before, p, after, hm, hfound, hbefore⟩ := List.findSome?_eq_some_iff.mp h
    have hp : m.get? p.1 = some p.2 := mem_entries_iff.mp (by rw [hm]; simp)
    refine ⟨p.1, p.2, hp, hfound, fun key' a' ha' hlt => ?_⟩
    exact hbefore (key', a') (mem_before_of_lt hm (mem_entries_iff.mpr ha') hlt)
  · rintro ⟨key, a, ha, hfound, hleast⟩
    obtain ⟨before, after, hm⟩ := List.append_of_mem (mem_entries_iff.mpr ha)
    refine List.findSome?_eq_some_iff.mpr ⟨before, (key, a), after, hm, hfound, fun q hq => ?_⟩
    have hq' : m.get? q.1 = some q.2 := mem_entries_iff.mp (by rw [hm]; simp [hq])
    have hlt : q.1 < key :=
      (List.pairwise_append.mp (hm ▸ m.sorted)).2.2 q hq _ (List.mem_cons_self ..)
    exact hleast q.1 q.2 hq' hlt

/-- What a walk along the keys of a map that are in another one too finds first, a walk along the
other map finds first. -/
theorem findSome?_entries_of_eq_some (f : String → α → β → Option γ) {m : KeyMap α} {n : KeyMap β}
    {c : γ} (h : (m.entries.findSome? fun p => (n.get? p.1).bind (f p.1 p.2)) = some c) :
    (n.entries.findSome? fun q => (m.get? q.1).bind fun a => f q.1 a q.2) = some c := by
  obtain ⟨key, a, ha, hfound, hleast⟩ :=
    (findSome?_entries_eq_some_iff (f := fun key a => (n.get? key).bind (f key a))).mp h
  obtain ⟨b, hb, hc⟩ := Option.bind_eq_some_iff.mp hfound
  refine (findSome?_entries_eq_some_iff
    (f := fun key b => (m.get? key).bind fun a => f key a b)).mpr
    ⟨key, b, hb, by simpa [ha] using hc, fun key' b' hb' hlt => ?_⟩
  rw [Option.bind_eq_none_iff]
  intro a' ha'
  have hnone := hleast key' a' ha' hlt
  rw [hb', Option.bind_some] at hnone
  exact hnone

/-- A walk along the keys that two maps have in common finds the same first, whichever of the two it
goes along. -/
theorem findSome?_entries_comm (f : String → α → β → Option γ) (m : KeyMap α) (n : KeyMap β) :
    (m.entries.findSome? fun p => (n.get? p.1).bind (f p.1 p.2)) =
      n.entries.findSome? fun q => (m.get? q.1).bind fun a => f q.1 a q.2 :=
  Option.ext fun _ =>
    ⟨findSome?_entries_of_eq_some f, findSome?_entries_of_eq_some fun key b a => f key a b⟩

/-! ### Changing the values of a map -/

/-- Pairs change one by one, or the first of them that fails tells how all of them fail. -/
theorem traversePairs_cases {ε : Type w} (f : String → α → Except ε β) (l : List (String × α)) :
    ((l.findSome? fun p => errorOf? (f p.1 p.2)) = none ∧
        ∃ changed, traversePairs f l = .ok changed) ∨
      ∃ e, (l.findSome? fun p => errorOf? (f p.1 p.2)) = some e ∧ traversePairs f l = .error e := by
  induction l with
  | nil => exact .inl ⟨rfl, _, rfl⟩
  | cons p rest ih =>
    rw [traversePairs, List.findSome?_cons]
    cases f p.1 p.2 with
    | error e => exact .inr ⟨e, rfl, rfl⟩
    | ok b =>
      rcases ih with ⟨hnone, changed, hchanged⟩ | ⟨e, hsome, he⟩
      · exact .inl ⟨hnone, _, by rw [hchanged]⟩
      · exact .inr ⟨e, hsome, by rw [he]⟩

/-- The values of a map change, or the first key that fails tells how the map fails. -/
theorem traverse_cases {ε : Type w} (f : String → α → Except ε β) (m : KeyMap α) :
    ((m.entries.findSome? fun p => errorOf? (f p.1 p.2)) = none ∧
        ∃ changed, m.traverse f = .ok changed) ∨
      ∃ e, (m.entries.findSome? fun p => errorOf? (f p.1 p.2)) = some e ∧
        m.traverse f = .error e := by
  unfold traverse
  rcases traversePairs_cases f m.entries with ⟨hnone, changed, hchanged⟩ | ⟨e, hsome, he⟩
  · exact .inl ⟨hnone, _, by rw [hchanged]⟩
  · exact .inr ⟨e, hsome, by rw [he]⟩

/-- Changing the values of a map fails exactly as the least key that fails. -/
theorem traverse_eq_error_iff {ε : Type w} {f : String → α → Except ε β} {m : KeyMap α} {e : ε} :
    m.traverse f = .error e ↔
      ∃ key a, m.get? key = some a ∧ f key a = .error e ∧
        ∀ key' a', m.get? key' = some a' → key' < key → ∃ b, f key' a' = .ok b := by
  have hfinds := findSome?_entries_eq_some_iff (f := fun key a => errorOf? (f key a)) (m := m)
    (c := e)
  simp only [errorOf?_eq_some_iff, errorOf?_eq_none_iff] at hfinds
  rw [← hfinds]
  rcases traverse_cases f m with ⟨hnone, changed, hchanged⟩ | ⟨e', hsome, he'⟩
  · simp [hnone, hchanged]
  · simp [hsome, he']

end KeyMap

/-! ### Two tables -/

/-- A table of values and a table of origins. -/
structure Tables (α : Type) where
  values : KeyMap α
  origins : KeyMap Origin

namespace Tables

variable {α β : Type}

/-- The tables of bindings. -/
def ofBindings (m : KeyMap (Binding α)) : Tables α :=
  ⟨m.map Binding.value, m.map Binding.origin⟩

/-- Writes a value and its origin. -/
def insert (t : Tables α) (key : String) (value : α) (origin : Origin) : Tables α :=
  ⟨t.values.insert key value, t.origins.insert key origin⟩

/-- Writes a value and its origin unless the key has a value already. -/
def insertIfNew (t : Tables α) (key : String) (value : α) (origin : Origin) : Tables α :=
  if t.values.contains key then t else t.insert key value origin

/-- Goes through pairs and writes those whose keys have no value yet; some keys are skipped. -/
def fill (skipped : String → Prop) [DecidablePred skipped] (value : β → α) (origin : β → Origin)
    (l : List (String × β)) (t : Tables α) : Tables α :=
  l.foldl (fun t p => if skipped p.1 then t else t.insertIfNew p.1 (value p.2) (origin p.2)) t

/-- Takes over the values that a schema hands back: the origins of other keys are dropped, and a key
without an origin is one that the schema made up. -/
def replaceValues (t : Tables α) (values : KeyMap α) : Tables α :=
  ⟨values, values.entries.foldl (fun origins p => origins.insertIfNew p.1 .schema)
    (t.origins.filter fun key _ => values.contains key)⟩

/-- Writing both tables is binding the key. -/
theorem insert_ofBindings (m : KeyMap (Binding α)) (key : String) (b : Binding α) :
    (ofBindings m).insert key b.value b.origin = ofBindings (m.insert key b) := by
  simp only [insert, ofBindings, KeyMap.map_insert]

theorem insertIfNew_ofBindings (m : KeyMap (Binding α)) (key : String) (value : α)
    (origin : Origin) :
    (ofBindings m).insertIfNew key value origin =
      ofBindings (m.insertIfNew key ⟨value, origin⟩) := by
  unfold insertIfNew KeyMap.insertIfNew
  by_cases hkey : m.contains key = true
  · have hvalue : (ofBindings m).values.contains key = true := by simpa [ofBindings] using hkey
    rw [if_pos hkey, if_pos hvalue]
  · have hvalue : ¬ (ofBindings m).values.contains key = true := by simpa [ofBindings] using hkey
    rw [if_neg hkey, if_neg hvalue, ← insert_ofBindings]

/-- Filling both tables is filling the bindings. -/
theorem fill_ofBindings (skipped : String → Prop) [DecidablePred skipped] (value : β → α)
    (origin : β → Origin) (l : List (String × β)) (m : KeyMap (Binding α)) :
    (ofBindings m).fill skipped value origin l = ofBindings (l.foldl (fun m p =>
      if skipped p.1 then m else m.insertIfNew p.1 ⟨value p.2, origin p.2⟩) m) := by
  unfold fill
  refine List.foldl_hom ofBindings fun m p => ?_
  by_cases hskip : skipped p.1
  · rw [if_pos hskip, if_pos hskip]
  · rw [if_neg hskip, if_neg hskip, insertIfNew_ofBindings]

/-- After a schema a key has the origin that it had, or else the schema's, if it has a value. -/
theorem get?_origins_replaceValues (t : Tables α) (values : KeyMap α) (key : String) :
    (t.replaceValues values).origins.get? key =
      (values.get? key).map fun _ => (t.origins.get? key).getD .schema := by
  have hfold := KeyMap.get?_foldl_insertIfNew (fun _ => False) (fun _ => Origin.schema)
    values.entries (t.origins.filter fun key _ => values.contains key) key
  simp only [if_false] at hfold
  have hget : KeyMap.find? key values.entries = values.get? key := rfl
  rw [replaceValues, hfold, KeyMap.get?_filter, KeyMap.contains, hget]
  cases values.get? key with
  | none => simp
  | some v => cases t.origins.get? key <;> simp [Option.filter]

/-- Taking over the values of a schema in both tables is binding each of them. -/
theorem replaceValues_ofBindings (m : KeyMap (Binding α)) (values : KeyMap α) :
    (ofBindings m).replaceValues values = ofBindings (values.mapWithKey fun key v =>
      ⟨v, ((m.get? key).map Binding.origin).getD .schema⟩) := by
  refine congrArg₂ Tables.mk (KeyMap.ext_get? fun key => ?_) (KeyMap.ext_get? fun key => ?_)
  · simp [Function.comp_def]
  · refine (get?_origins_replaceValues (ofBindings m) values key).trans ?_
    simp [ofBindings, Function.comp_def]

end Tables

/-! ### The stages on two tables -/

/-- Gives the values of a scan, the mode key apart, to the keys that have none yet. -/
def Scan.mergeTables (modeKey : String) (t : Tables String) (scan : Scan) : Tables String :=
  t.fill (· = modeKey) Entry.value scan.originOf scan.contents.winners.entries

namespace Request

variable {r : Request}

/-- Writes the mode, if there is one. -/
def modeTables (r : Request) (mode : Option ActiveMode) (t : Tables String) : Tables String :=
  match mode with
  | some mode => t.insert r.modeKey mode.name mode.origin
  | none => t

/-- Fills in from the live environment, the mode key apart. -/
def environmentTables (r : Request) (env : LiveEnvironment) (t : Tables String) : Tables String :=
  if r.useEnvironment then t.fill (· = r.modeKey) id (fun _ => .environment) env.vars else t

/-- The tables before the conversions. -/
def rawTables (r : Request) (env : LiveEnvironment) (c : Cascade) : Tables String :=
  r.environmentTables env
    (r.modeTables c.mode (c.scans.foldl (Scan.mergeTables r.modeKey) ⟨.empty, .empty⟩))

/-- Converts the text of a key in place, if it has one. -/
def convertKey (values : Values) (p : String × Conversion) : Except Fault Values :=
  match values.get? p.1 with
  | some (.string text) =>
    match p.2 text with
    | .ok value => .ok (values.insert p.1 value)
    | .error e => .error (.conversion p.1 e)
  | _ => .ok values

/-- Converts the texts of the keys that have a conversion, one key after the other; the origins stay
as they are. -/
def convertTables (r : Request) (t : Tables String) : Except Fault (Tables Json) :=
  (r.conversions.entries.foldlM convertKey (t.values.map .string)).map fun values =>
    ⟨values, t.origins⟩

/-- Fills in the defaults. -/
def defaultTables (r : Request) (t : Tables Json) : Tables Json :=
  t.fill (fun _ => False) id (fun _ => .default) r.defaults.entries

/-- The tables that a schema leaves, or those given if there is no schema. -/
def schemaTables (r : Request) (t : Tables Json) : Except Fault (Tables Json) :=
  match r.schema with
  | none => .ok t
  | some schema =>
    match schema t.values with
    | .error e => .error (.invalidValues e)
    | .ok values => .ok (t.replaceValues values)

/-- What is resolved with two tables: the tables, every file read in order, and the mode. -/
def resolveTables (r : Request) (tree : FileTree) (env : LiveEnvironment) :
    Except Fault (Tables Json × List Layer × Option String) := do
  let c ← r.cascade tree env
  let converted ← r.convertTables (r.rawTables env c)
  let final ← r.schemaTables (r.defaultTables converted)
  match Requirement.examineAll final.values 0 r.required with
  | some shortfall => .error (.missingRequired shortfall)
  | none => .ok (final, c.layers, c.mode.map ActiveMode.name)

/-! ### Agreement of the stages -/

theorem mergeTables_ofBindings (modeKey : String) (scans : List Scan)
    (m : KeyMap (Binding String)) :
    scans.foldl (Scan.mergeTables modeKey) (.ofBindings m) =
      .ofBindings (scans.foldl (Scan.mergeInto modeKey) m) :=
  List.foldl_hom Tables.ofBindings fun m scan =>
    Tables.fill_ofBindings (· = modeKey) Entry.value scan.originOf _ m

theorem modeTables_ofBindings (r : Request) (mode : Option ActiveMode)
    (m : KeyMap (Binding String)) :
    r.modeTables mode (.ofBindings m) = .ofBindings (r.bindMode mode m) := by
  cases mode with
  | none => rfl
  | some mode => exact Tables.insert_ofBindings m r.modeKey ⟨mode.name, mode.origin⟩

theorem environmentTables_ofBindings (r : Request) (env : LiveEnvironment)
    (m : KeyMap (Binding String)) :
    r.environmentTables env (.ofBindings m) = .ofBindings (r.fillEnvironment env m) := by
  unfold environmentTables fillEnvironment
  cases r.useEnvironment with
  | false => rfl
  | true => exact Tables.fill_ofBindings (· = r.modeKey) id (fun _ => .environment) env.vars m

/-- Before the conversions the tables are those of the bindings. -/
theorem rawTables_eq (r : Request) (env : LiveEnvironment) (c : Cascade) :
    r.rawTables env c = .ofBindings (r.rawBindings env c) := by
  have hmerged : c.scans.foldl (Scan.mergeTables r.modeKey) ⟨.empty, .empty⟩ =
      .ofBindings (c.bindings r.modeKey) := mergeTables_ofBindings r.modeKey c.scans .empty
  rw [rawTables, hmerged, modeTables_ofBindings, environmentTables_ofBindings, rawBindings]

/-- What keeps a text from being converted under a key, if something does. -/
def conversionFault? (key text : String) (convert : Conversion) : Option Fault :=
  (errorOf? (convert text)).map (.conversion key)

theorem errorOf?_convertBinding (r : Request) (key : String) (b : Binding String) :
    errorOf? (r.convertBinding key b) =
      (r.conversions.get? key).bind (conversionFault? key b.value) := by
  unfold convertBinding
  cases r.conversions.get? key with
  | none => rfl
  | some convert =>
    simp only [Option.bind_some, conversionFault?]
    cases convert b.value <;> rfl

/-- One round of the loop over the conversions, for a key that still has its text: the key is
converted, if it has a text, and nothing else changes, or it cannot be converted. -/
theorem convertKey_cases {texts : KeyMap String} {values : Values} {key : String}
    (convert : Conversion) (h : values.get? key = (texts.get? key).map .string) :
    ((texts.get? key).bind (conversionFault? key · convert) = none ∧
        ∃ next, convertKey values (key, convert) = .ok next ∧ ∀ other, next.get? other =
          if other = key then (texts.get? key).bind fun text => (convert text).toOption
          else values.get? other) ∨
      ∃ e, (texts.get? key).bind (conversionFault? key · convert) = some e ∧
        convertKey values (key, convert) = .error e := by
  cases htext : texts.get? key with
  | none =>
    have hnone : values.get? key = none := by rw [h, htext, Option.map_none]
    refine .inl ⟨rfl, values, by simp only [convertKey, hnone], fun other => ?_⟩
    by_cases hother : other = key
    · rw [if_pos hother, hother, hnone, Option.bind_none]
    · rw [if_neg hother]
  | some text =>
    have hsome : values.get? key = some (.string text) := by rw [h, htext, Option.map_some]
    simp only [convertKey, hsome, Option.bind_some, conversionFault?]
    cases convert text with
    | error e => exact .inr ⟨.conversion key e, rfl, rfl⟩
    | ok value => exact .inl ⟨rfl, _, rfl, fun other => KeyMap.get?_insert ..⟩

/-- The loop over the conversions ends with each of their keys converted, or else the first key that
cannot be converted tells how it fails.  No key is met twice, so each of them still has its text
when its turn comes. -/
theorem foldlM_convertKey_cases (texts : KeyMap String) (l : List (String × Conversion))
    (values : Values) (hnodup : (l.map Prod.fst).Nodup)
    (htexts : ∀ p ∈ l, values.get? p.1 = (texts.get? p.1).map .string) :
    ((l.findSome? fun p => (texts.get? p.1).bind (conversionFault? p.1 · p.2)) = none ∧
        ∃ converted, l.foldlM convertKey values = .ok converted ∧
          ∀ key, converted.get? key = ((KeyMap.find? key l).map fun convert =>
            (texts.get? key).bind fun text => (convert text).toOption).getD (values.get? key)) ∨
      ∃ e, (l.findSome? fun p => (texts.get? p.1).bind (conversionFault? p.1 · p.2)) = some e ∧
        l.foldlM convertKey values = .error e := by
  induction l generalizing values with
  | nil => exact .inl ⟨rfl, values, rfl, fun key => rfl⟩
  | cons p rest ih =>
    obtain ⟨hnew, hrest⟩ := List.nodup_cons.mp hnodup
    rw [List.findSome?_cons, List.foldlM_cons]
    rcases convertKey_cases p.2 (htexts p (List.mem_cons_self ..)) with
      ⟨hnone, next, hnext, hget⟩ | ⟨e, hsome, he⟩
    · have hothers : ∀ q ∈ rest, next.get? q.1 = (texts.get? q.1).map .string := by
        intro q hq
        have hne : q.1 ≠ p.1 := fun heq => hnew (heq ▸ List.mem_map_of_mem hq)
        rw [hget, if_neg hne, htexts q (List.mem_cons_of_mem p hq)]
      rw [hnone, hnext]
      rcases ih next hrest hothers with ⟨hnone', converted, hconverted, hget'⟩ | ⟨e, hsome, he⟩
      · refine .inl ⟨hnone', converted, hconverted, fun key => ?_⟩
        rw [hget', KeyMap.find?, hget]
        by_cases hkey : p.1 = key
        · have hlater : KeyMap.find? key rest = none :=
            KeyMap.find?_eq_none_iff.mpr (hkey ▸ hnew)
          rw [hlater, if_pos hkey, if_pos hkey.symm, hkey]
          rfl
        · rw [if_neg hkey, if_neg (Ne.symm hkey)]
      · exact .inr ⟨e, hsome, he⟩
    · exact .inr ⟨e, by rw [hsome], by rw [he]; rfl⟩

/-- Converted bindings hold what a loop over the conversions leaves. -/
theorem get?_values_of_convert {m : KeyMap (Binding String)} {converted : KeyMap (Binding Json)}
    (h : r.convert m = .ok converted) (key : String) :
    (converted.map Binding.value).get? key = ((r.conversions.get? key).map fun convert =>
      ((m.map Binding.value).get? key).bind fun text => (convert text).toOption).getD
        (((m.map Binding.value).map Json.string).get? key) := by
  simp only [KeyMap.get?_map]
  rcases get?_of_convert h key with ⟨hraw, hnone⟩ | ⟨b, value, hraw, hconverts, hsome⟩
  · rw [hraw, hnone]
    cases r.conversions.get? key <;> rfl
  · rw [hraw, hsome]
    cases hconverts with
    | plain hconversion => rw [hconversion]; rfl
    | converted hconversion hvalue =>
      simp [hconversion, hvalue, Except.toOption]

/-- The conversions leave the origins as they are. -/
theorem map_origin_of_convert {m : KeyMap (Binding String)} {converted : KeyMap (Binding Json)}
    (h : r.convert m = .ok converted) : converted.map Binding.origin = m.map Binding.origin := by
  refine KeyMap.ext_get? fun key => ?_
  simp only [KeyMap.get?_map]
  rcases get?_of_convert h key with ⟨hraw, hnone⟩ | ⟨b, value, hraw, -, hsome⟩
  · rw [hraw, hnone]
    rfl
  · rw [hraw, hsome]
    rfl

/-- The first key that a walk along the bindings cannot convert is the first one that a loop over
the conversions cannot convert. -/
theorem findSome?_errorOf?_convertBinding (r : Request) (m : KeyMap (Binding String)) :
    (m.entries.findSome? fun p => errorOf? (r.convertBinding p.1 p.2)) =
      r.conversions.entries.findSome? fun p =>
        ((m.map Binding.value).get? p.1).bind (conversionFault? p.1 · p.2) := by
  simp only [errorOf?_convertBinding, KeyMap.get?_map, Option.bind_map]
  exact KeyMap.findSome?_entries_comm (fun key b => conversionFault? key b.value) m r.conversions

/-- Converting in place, with the origins as they are, is converting the bindings. -/
theorem convertTables_ofBindings (r : Request) (m : KeyMap (Binding String)) :
    r.convertTables (.ofBindings m) = (r.convert m).map Tables.ofBindings := by
  have hfirst := findSome?_errorOf?_convertBinding r m
  rw [convertTables, convert]
  change (r.conversions.entries.foldlM convertKey ((m.map Binding.value).map .string)).map _ = _
  rcases foldlM_convertKey_cases (m.map Binding.value) _ _
      (LiveEnvironment.nodup_keys r.conversions) (fun _ _ => KeyMap.get?_map ..) with
    ⟨hnone, values, hloop, hget⟩ | ⟨e, hsome, hloop⟩ <;>
  rcases KeyMap.traverse_cases r.convertBinding m with
    ⟨hnone', converted, hwalk⟩ | ⟨e', hsome', hwalk⟩
  · have hvalues : values = converted.map Binding.value :=
      KeyMap.ext_get? fun key => (hget key).trans (get?_values_of_convert hwalk key).symm
    have horigins : m.map Binding.origin = converted.map Binding.origin :=
      (map_origin_of_convert hwalk).symm
    rw [hloop, hwalk]
    exact congrArg Except.ok (congrArg₂ Tables.mk hvalues horigins)
  · exact absurd (hsome'.symm.trans (hfirst.trans hnone)) (Option.some_ne_none e')
  · exact absurd (hsome.symm.trans (hfirst.symm.trans hnone')) (Option.some_ne_none e)
  · obtain rfl : e = e' := Option.some.inj (hsome.symm.trans (hfirst.symm.trans hsome'))
    rw [hloop, hwalk]
    rfl

/-- The stages of a schema are the same. -/
theorem schemaTables_ofBindings (r : Request) (m : KeyMap (Binding Json)) :
    r.schemaTables (.ofBindings m) = (r.applySchema m).map Tables.ofBindings := by
  unfold schemaTables applySchema
  cases r.schema with
  | none => rfl
  | some schema =>
    have hvalues : (Tables.ofBindings m).values = m.map Binding.value := rfl
    simp only [hvalues]
    cases schema (m.map Binding.value) with
    | error e => rfl
    | ok values => exact congrArg Except.ok (Tables.replaceValues_ofBindings m values)

theorem defaultTables_ofBindings (r : Request) (m : KeyMap (Binding Json)) :
    r.defaultTables (.ofBindings m) = .ofBindings (r.fillDefaults m) := by
  rw [defaultTables, Tables.fill_ofBindings]
  simp only [if_false]
  rfl

/-- The tables of a resolution with two tables are those of the bindings; it fails exactly if the
resolution fails, and then in the same way. -/
theorem resolveTables_eq (r : Request) (tree : FileTree) (env : LiveEnvironment) :
    r.resolveTables tree env = (r.resolve tree env).map fun result =>
      (⟨result.values, result.origins⟩, result.layers, result.mode) := by
  unfold resolveTables resolve
  cases r.cascade tree env with
  | error e => rfl
  | ok c =>
    simp only [bind, Except.bind, complete]
    rw [rawTables_eq, convertTables_ofBindings]
    cases r.convert (r.rawBindings env c) with
    | error e => rfl
    | ok converted =>
      simp only [Except.map]
      rw [defaultTables_ofBindings, schemaTables_ofBindings]
      cases r.applySchema (r.fillDefaults converted) with
      | error e => rfl
      | ok final =>
        simp only [Except.map, examine, Tables.ofBindings, Resolution.values, Resolution.origins]
        cases Requirement.examineAll (final.map Binding.value) 0 r.required <;> rfl

end Request

end LayeredEnv
