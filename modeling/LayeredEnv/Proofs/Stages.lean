import LayeredEnv.Proofs.Scanning
import LayeredEnv.Resolution

/-!
# What the stages do to a key

Each stage of a resolution is a function on maps.  The lemmas here say what a stage does to one key
without the others, so that the stages can be put together key by key: `Request.get?_rawBindings`
for those before the conversions, `Request.get?_of_complete` for all of them without a schema.
-/

namespace LayeredEnv

theorem toOption_eq_some_iff {ε : Type u} {α : Type v} {x : Except ε α} {a : α} :
    x.toOption = some a ↔ x = .ok a := by
  cases x <;> simp [Except.toOption]

/-! ### Filling in absent keys -/

namespace KeyMap

variable {α : Type u} {β : Type v}

/-- Pairs that are put in one by one where nothing is yet leave a key with what it holds, or else
with the first pair for it; keys that are skipped stay as they are. -/
theorem get?_foldl_insertIfNew (skipped : String → Prop) [DecidablePred skipped]
    (f : String × α → β) (l : List (String × α)) (m : KeyMap β) (key : String) :
    (l.foldl (fun m p => if skipped p.1 then m else m.insertIfNew p.1 (f p)) m).get? key =
      if skipped key then m.get? key
      else (m.get? key).or ((find? key l).map fun a => f (key, a)) := by
  induction l generalizing m with
  | nil => simp [find?]
  | cons p rest ih =>
    rw [List.foldl_cons, ih, find?]
    by_cases hkey : p.1 = key
    · subst hkey
      by_cases hskip : skipped p.1
      · simp only [if_pos hskip]
      · simp only [if_neg hskip, get?_insertIfNew, if_true]
        cases m.get? p.1 <;> simp
    · rw [if_neg hkey]
      by_cases hskip : skipped p.1
      · rw [if_pos hskip]
      · rw [if_neg hskip, get?_insertIfNew, if_neg (Ne.symm hkey)]

/-- The pairs changed without an error have the keys of the original ones, each with its value
changed. -/
theorem find?_traversePairs {ε : Type w} {f : String → α → Except ε β} {l : List (String × α)}
    {r : { r : List (String × β) // r.map Prod.fst = l.map Prod.fst }}
    (h : traversePairs f l = .ok r) (key : String) :
    (find? key l = none ∧ find? key r.1 = none) ∨
      ∃ a b, find? key l = some a ∧ f key a = .ok b ∧ find? key r.1 = some b := by
  induction l with
  | nil =>
    obtain rfl := Except.ok.inj h
    exact .inl ⟨rfl, rfl⟩
  | cons p rest ih =>
    rw [traversePairs] at h
    split at h
    · simp at h
    · next b hb =>
      split at h
      · simp at h
      · next changed hchanged hrest =>
        obtain rfl := Except.ok.inj h
        simp only [find?]
        by_cases hkey : p.1 = key
        · subst hkey
          exact .inr ⟨p.2, b, by simp, hb, by simp⟩
        · simp only [if_neg hkey]
          exact ih hrest

/-- A map changed without an error has the keys of the original one, each with its value changed. -/
theorem get?_of_traverse {ε : Type w} {f : String → α → Except ε β} {m : KeyMap α} {r : KeyMap β}
    (h : m.traverse f = .ok r) (key : String) :
    (m.get? key = none ∧ r.get? key = none) ∨
      ∃ a b, m.get? key = some a ∧ f key a = .ok b ∧ r.get? key = some b := by
  unfold traverse at h
  split at h
  · simp at h
  · next changed hchanged hpairs =>
    obtain rfl := Except.ok.inj h
    exact find?_traversePairs hpairs key

/-- In a map changed without an error a key has the change of what it had. -/
theorem get?_eq_bind_of_traverse {ε : Type w} {f : String → α → Except ε β} {m : KeyMap α}
    {r : KeyMap β} (h : m.traverse f = .ok r) (key : String) :
    r.get? key = (m.get? key).bind fun a => (f key a).toOption := by
  rcases get?_of_traverse h key with ⟨hm, hr⟩ | ⟨a, b, hm, hb, hr⟩
  · rw [hm, hr, Option.bind_none]
  · rw [hm, hr, Option.bind_some, hb]
    rfl

end KeyMap

/-! ### The bindings of the files -/

/-- What a scan gives to a key: the value that is assigned last, and where that line stands. -/
def Scan.binding? (scan : Scan) (key : String) : Option (Binding String) :=
  (scan.contents.lastAssignment? key).map fun e => ⟨e.value, scan.originOf e⟩

/-- Merging a scan leaves a key with what it has, or else gives it what the scan has for it; the
mode key stays as it is. -/
theorem Scan.get?_mergeInto (scan : Scan) (modeKey : String) (taken : KeyMap (Binding String))
    (key : String) :
    (scan.mergeInto modeKey taken).get? key =
      if key = modeKey then taken.get? key else (taken.get? key).or (scan.binding? key) := by
  unfold mergeInto binding?
  rw [KeyMap.get?_foldl_insertIfNew (· = modeKey)
    (fun p => (⟨p.2.value, scan.originOf p.2⟩ : Binding String)), ← Splice.get?_winners]
  rfl

/-- Merging scans one by one leaves a key with what it has, or else gives it what the first scan
with something for it has; the mode key stays as it is. -/
theorem Scan.get?_foldl_mergeInto (modeKey : String) (scans : List Scan)
    (taken : KeyMap (Binding String)) (key : String) :
    (scans.foldl (Scan.mergeInto modeKey) taken).get? key =
      if key = modeKey then taken.get? key
      else (taken.get? key).or (scans.findSome? fun scan => scan.binding? key) := by
  induction scans generalizing taken with
  | nil => simp
  | cons scan rest ih =>
    rw [List.foldl_cons, ih, scan.get?_mergeInto, List.findSome?_cons]
    by_cases hkey : key = modeKey
    · simp only [if_pos hkey]
    · simp only [if_neg hkey, Option.or_assoc]
      cases scan.binding? key <;> rfl

/-- The first scan with something for a key wins, and no scan gives anything to the mode key. -/
theorem Cascade.get?_bindings (c : Cascade) (modeKey key : String) :
    (c.bindings modeKey).get? key =
      if key = modeKey then none else c.scans.findSome? fun scan => scan.binding? key := by
  rw [bindings, Scan.get?_foldl_mergeInto, KeyMap.get?_empty, Option.none_or]

namespace Request

variable {r : Request} {env : LiveEnvironment} {c : Cascade} {key : String}

/-! ### The mode and the live environment -/

/-- The mode goes to the mode key, and no other key changes. -/
theorem get?_bindMode (r : Request) (mode : Option ActiveMode) (m : KeyMap (Binding String))
    (key : String) :
    (r.bindMode mode m).get? key =
      if key = r.modeKey then (mode.map fun mode => ⟨mode.name, mode.origin⟩).or (m.get? key)
      else m.get? key := by
  cases mode with
  | none => simp [bindMode]
  | some mode => simp [bindMode, KeyMap.get?_insert]

/-- The live environment fills in the keys that are absent, the mode key apart. -/
theorem get?_fillEnvironment (r : Request) (env : LiveEnvironment) (m : KeyMap (Binding String))
    (key : String) :
    (r.fillEnvironment env m).get? key =
      if key = r.modeKey then m.get? key
      else (m.get? key).or
        ((if r.useEnvironment then env.get? key else none).map (⟨·, .environment⟩)) := by
  unfold fillEnvironment
  cases r.useEnvironment with
  | false => simp
  | true =>
    exact KeyMap.get?_foldl_insertIfNew (· = r.modeKey)
      (fun p => (⟨p.2, .environment⟩ : Binding String)) env.vars m key

/-- Before the conversions the mode key has the mode. -/
theorem get?_rawBindings_modeKey (r : Request) (env : LiveEnvironment) (c : Cascade) :
    (r.rawBindings env c).get? r.modeKey =
      c.mode.map fun mode => ⟨mode.name, mode.origin⟩ := by
  rw [rawBindings, get?_fillEnvironment, if_pos rfl, get?_bindMode, if_pos rfl,
    Cascade.get?_bindings, if_pos rfl, Option.or_none]

/-- Before the conversions any other key has what the first scan with something for it has, or else
what the live environment has, if that one fills in. -/
theorem get?_rawBindings (hkey : key ≠ r.modeKey) (env : LiveEnvironment) (c : Cascade) :
    (r.rawBindings env c).get? key =
      (c.scans.findSome? fun scan => scan.binding? key).or
        ((if r.useEnvironment then env.get? key else none).map (⟨·, .environment⟩)) := by
  rw [rawBindings, get?_fillEnvironment, if_neg hkey, get?_bindMode, if_neg hkey,
    Cascade.get?_bindings, if_neg hkey]

/-! ### Conversions and defaults -/

/-- What a text becomes under a key: the conversion of the key applied to it, or the text itself if
the key has no conversion. -/
inductive Converts (r : Request) (key text : String) : Json → Prop
  | plain : r.conversions.get? key = none → Converts r key text (.string text)
  | converted {convert : Conversion} {value : Json} : r.conversions.get? key = some convert →
      convert text = .ok value → Converts r key text value

/-- A converted binding holds the converted text and keeps its origin. -/
theorem converts_of_convertBinding {b : Binding String} {b' : Binding Json}
    (h : r.convertBinding key b = .ok b') :
    r.Converts key b.value b'.value ∧ b'.origin = b.origin := by
  unfold convertBinding at h
  split at h
  · next hnone =>
    obtain rfl := Except.ok.inj h
    exact ⟨.plain hnone, rfl⟩
  · next convert hconvert =>
    split at h
    · next value hvalue =>
      obtain rfl := Except.ok.inj h
      exact ⟨.converted hconvert hvalue, rfl⟩
    · simp at h

/-- The conversions leave keys and origins as they are, and convert the text of every key. -/
theorem get?_of_convert {m : KeyMap (Binding String)} {converted : KeyMap (Binding Json)}
    (h : r.convert m = .ok converted) (key : String) :
    (m.get? key = none ∧ converted.get? key = none) ∨
      ∃ b value, m.get? key = some b ∧ r.Converts key b.value value ∧
        converted.get? key = some ⟨value, b.origin⟩ := by
  rcases KeyMap.get?_of_traverse h key with hnone | ⟨b, b', hb, hb', hconverted⟩
  · exact .inl hnone
  · obtain ⟨hconverts, horigin⟩ := converts_of_convertBinding hb'
    refine .inr ⟨b, b'.value, hb, hconverts, ?_⟩
    rw [hconverted, ← horigin]

/-- A key without a value has its default. -/
theorem get?_fillDefaults (r : Request) (m : KeyMap (Binding Json)) (key : String) :
    (r.fillDefaults m).get? key =
      (m.get? key).or ((r.defaults.get? key).map (⟨·, .default⟩)) := by
  have h := KeyMap.get?_foldl_insertIfNew (fun _ => False)
    (fun p => (⟨p.2, .default⟩ : Binding Json)) r.defaults.entries m key
  simp only [if_false] at h
  exact h

/-- Before the schema every key has the conversion of its text, with its origin as before the
conversions, or else its default. -/
theorem get?_fillDefaults_of_convert {m : KeyMap (Binding String)}
    {converted : KeyMap (Binding Json)} (h : r.convert m = .ok converted) (key : String) :
    (∃ b value, m.get? key = some b ∧ r.Converts key b.value value ∧
        (r.fillDefaults converted).get? key = some ⟨value, b.origin⟩) ∨
      (m.get? key = none ∧
        (r.fillDefaults converted).get? key = (r.defaults.get? key).map (⟨·, .default⟩)) := by
  rw [get?_fillDefaults]
  rcases get?_of_convert h key with ⟨hraw, hnone⟩ | ⟨b, value, hraw, hconverts, hsome⟩
  · exact .inr ⟨hraw, by rw [hnone, Option.none_or]⟩
  · exact .inl ⟨b, value, hraw, hconverts, by rw [hsome, Option.some_or]⟩

/-! ### All stages after the cascade -/

theorem examine_eq_ok {result result' : Resolution} (h : r.examine result = .ok result') :
    result' = result := by
  unfold examine at h
  split at h
  · simp at h
  · exact (Except.ok.inj h).symm

/-- What completes a cascade are the conversions, the defaults and the schema, one after the other.
-/
theorem exists_stages_of_complete {result : Resolution} (h : r.complete env c = .ok result) :
    ∃ converted, r.convert (r.rawBindings env c) = .ok converted ∧
      r.applySchema (r.fillDefaults converted) = .ok result.bindings ∧
      result.layers = c.layers ∧ result.mode = c.mode.map ActiveMode.name := by
  unfold complete at h
  cases hconvert : r.convert (r.rawBindings env c) with
  | error e => simp [hconvert, bind, Except.bind] at h
  | ok converted =>
    cases hschema : r.applySchema (r.fillDefaults converted) with
    | error e => simp [hconvert, hschema, bind, Except.bind] at h
    | ok final =>
      simp only [hconvert, hschema, bind, Except.bind] at h
      obtain rfl := examine_eq_ok h
      exact ⟨converted, rfl, hschema, rfl, rfl⟩

/-- Without a schema every key ends with the conversion of its text and its origin as before the
conversions, or else with its default. -/
theorem get?_of_complete {result : Resolution} (hschema : r.schema = none)
    (h : r.complete env c = .ok result) :
    result.layers = c.layers ∧ result.mode = c.mode.map ActiveMode.name ∧
      ∀ key, (∃ b value, (r.rawBindings env c).get? key = some b ∧ r.Converts key b.value value ∧
          result.bindings.get? key = some ⟨value, b.origin⟩) ∨
        ((r.rawBindings env c).get? key = none ∧
          result.bindings.get? key = (r.defaults.get? key).map (⟨·, .default⟩)) := by
  obtain ⟨converted, hconvert, happly, hlayers, hmode⟩ := exists_stages_of_complete h
  have hfinal : r.fillDefaults converted = result.bindings := by
    simpa only [applySchema, hschema, Except.ok.injEq] using happly
  exact ⟨hlayers, hmode, fun key => hfinal ▸ get?_fillDefaults_of_convert hconvert key⟩

/-! ### Without a schema -/

/-- What is there before the defaults: the cascade, and its bindings converted. -/
def convertedCascade (r : Request) (tree : FileTree) (env : LiveEnvironment) :
    Except Fault (Cascade × KeyMap (Binding Json)) := do
  let c ← r.cascade tree env
  let converted ← r.convert (r.rawBindings env c)
  return (c, converted)

/-- What the defaults make of converted bindings, with what the cascade says of itself. -/
def filled (r : Request) (c : Cascade) (converted : KeyMap (Binding Json)) : Resolution :=
  ⟨r.fillDefaults converted, c.layers, c.mode.map ActiveMode.name⟩

/-- Without a schema the requirements are examined right after the defaults. -/
theorem resolve_eq_of_no_schema (hschema : r.schema = none) (tree : FileTree)
    (env : LiveEnvironment) :
    r.resolve tree env =
      (r.convertedCascade tree env).bind fun p => r.examine (r.filled p.1 p.2) := by
  have happly : ∀ m, r.applySchema m = .ok m := fun m => by rw [applySchema, hschema]
  unfold resolve convertedCascade
  cases r.cascade tree env with
  | error e => rfl
  | ok c =>
    simp only [bind, Except.bind, complete, happly]
    cases r.convert (r.rawBindings env c) <;> rfl

end Request

end LayeredEnv
