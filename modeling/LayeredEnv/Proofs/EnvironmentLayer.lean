import LayeredEnv.Proofs.ReferenceSemantics

/-!
# The live environment below the files

A resolution looks at the live environment in two places only.  The mode key may name the mode from
which the chase starts, unless the request gives one outright; and a key that the files leave unset
is filled in, if the request asks for that.  Two environments that agree there (`Request.SeesAlike`)
lead to the same result, and so do the same variables in any order.

What is filled in is looked up key by key (`Request.get?_fillEnvironment`), so the order in which
the variables are listed cannot matter: with every key listed once, a look-up in a list of pairs is
membership (`KeyMap.find?_eq_some_iff_of_nodup`), which a permutation keeps.

Main statement: `Request.environment_is_lowest_layer`.
-/

namespace LayeredEnv

/-! ### Variables in any order -/

namespace KeyMap

variable {α : Type u} {l l' : List (String × α)}

/-- With every key listed once, a look-up finds a value exactly if the pair is listed. -/
theorem find?_eq_some_iff_of_nodup (hnodup : (l.map Prod.fst).Nodup) {key : String} {value : α} :
    find? key l = some value ↔ (key, value) ∈ l := by
  refine ⟨mem_of_find?, fun hmem => ?_⟩
  obtain ⟨found, hfound⟩ : ∃ found, find? key l = some found := by
    by_contra hnone
    have habsent : find? key l = none := Option.eq_none_iff_forall_ne_some.mpr fun found hfound =>
      hnone ⟨found, hfound⟩
    exact find?_eq_none_iff.mp habsent (List.mem_map_of_mem hmem)
  have hpair : (key, found) = (key, value) :=
    List.inj_on_of_nodup_map hnodup (mem_of_find? hfound) hmem rfl
  rw [hfound, (Prod.mk.inj hpair).2]

/-- Pairs that list every key once are looked up alike in any order. -/
theorem find?_perm (h : l.Perm l') (hnodup : (l.map Prod.fst).Nodup) (key : String) :
    find? key l = find? key l' := by
  have hnodup' : (l'.map Prod.fst).Nodup := (h.map Prod.fst).nodup_iff.mp hnodup
  refine Option.ext fun value => ?_
  rw [find?_eq_some_iff_of_nodup hnodup, find?_eq_some_iff_of_nodup hnodup', h.mem_iff]

/-- A map does not contain the keys without a value. -/
theorem contains_eq_false_iff {m : KeyMap α} {key : String} :
    m.contains key = false ↔ m.get? key = none := by
  rw [contains, Option.isSome_eq_false_iff, Option.isNone_iff_eq_none]

end KeyMap

/-- The same variables in another order have the same values. -/
theorem LiveEnvironment.get?_perm {env env' : LiveEnvironment} (h : env.vars.Perm env'.vars)
    (key : String) : env.get? key = env'.get? key :=
  KeyMap.find?_perm h env.nodup key

namespace Request

variable {r : Request} {tree : FileTree} {env env' : LiveEnvironment} {c : Cascade} {key : String}

/-! ### Where a resolution looks at the environment -/

/-- The environments agree wherever the request looks at them: on the mode key, an empty mode being
none, unless the request gives the mode; and, if the environment fills in, on every other key that
the files of the cascade leave unset. -/
structure SeesAlike (r : Request) (tree : FileTree) (env env' : LiveEnvironment) : Prop where
  mode : r.mode = none → (env.get? r.modeKey).getD "" = (env'.get? r.modeKey).getD ""
  filled : r.useEnvironment = true → ∀ c, r.cascade tree env = .ok c → ∀ key, key ≠ r.modeKey →
    (c.bindings r.modeKey).contains key = false → env.get? key = env'.get? key

/-- Environments with the same values look the same to any request. -/
theorem SeesAlike.of_get? (h : ∀ key, env.get? key = env'.get? key) : r.SeesAlike tree env env' :=
  ⟨fun _ => by rw [h], fun _ _ _ key _ _ => h key⟩

/-- A request that gives the mode and does not fill in looks at no environment. -/
theorem SeesAlike.of_unused (hmode : r.mode.isSome = true) (hunused : r.useEnvironment = false) :
    r.SeesAlike tree env env' := by
  refine ⟨fun hnone => ?_, fun huse => ?_⟩
  · simp [hnone] at hmode
  · simp [hunused] at huse

/-- An empty text counts as none. -/
theorem filter_ne_empty_congr {a b : Option String} (h : a.getD "" = b.getD "") :
    a.filter (fun name => name != "") = b.filter (fun name => name != "") := by
  have hfilter : ∀ o : Option String, o.filter (fun name => name != "") =
      if o.getD "" = "" then none else some (o.getD "") := by
    intro o
    cases o with
    | none => rfl
    | some name => by_cases hempty : name = "" <;> simp [Option.filter, hempty]
  rw [hfilter, hfilter, h]

/-- The live mode is the same. -/
theorem SeesAlike.liveMode? (h : r.SeesAlike tree env env') :
    r.liveMode? env = r.liveMode? env' := by
  unfold Request.liveMode?
  cases hmode : r.mode with
  | some mode => rfl
  | none => exact filter_ne_empty_congr (h.mode hmode)

/-- The cascade is the same, with or without a fault. -/
theorem SeesAlike.cascade (h : r.SeesAlike tree env env') :
    r.cascade tree env = r.cascade tree env' := by
  unfold Request.cascade
  rw [h.liveMode?]

/-- Below the files every key but the mode key has what the environment has, if that fills in. -/
theorem get?_rawBindings_eq_or (hkey : key ≠ r.modeKey) (env : LiveEnvironment) (c : Cascade) :
    (r.rawBindings env c).get? key =
      ((c.bindings r.modeKey).get? key).or
        ((if r.useEnvironment then env.get? key else none).map (⟨·, .environment⟩)) := by
  rw [get?_rawBindings hkey, Cascade.get?_bindings, if_neg hkey]

/-- Before the conversions every key is bound to the same. -/
theorem SeesAlike.rawBindings (h : r.SeesAlike tree env env') (hc : r.cascade tree env = .ok c) :
    r.rawBindings env c = r.rawBindings env' c := by
  refine KeyMap.ext_get? fun key => ?_
  by_cases hkey : key = r.modeKey
  · rw [hkey, get?_rawBindings_modeKey, get?_rawBindings_modeKey]
  · rw [get?_rawBindings_eq_or hkey, get?_rawBindings_eq_or hkey]
    cases hset : (c.bindings r.modeKey).get? key with
    | some b => rfl
    | none =>
      cases huse : r.useEnvironment with
      | false => rfl
      | true =>
        rw [h.filled huse c hc key hkey (KeyMap.contains_eq_false_iff.mpr hset)]

/-- The stages after the cascade see the environment in the raw bindings only. -/
theorem SeesAlike.complete (h : r.SeesAlike tree env env') (hc : r.cascade tree env = .ok c) :
    r.complete env c = r.complete env' c := by
  unfold Request.complete
  rw [h.rawBindings hc]

/-- The result is the same, or the fault is. -/
theorem SeesAlike.resolve (h : r.SeesAlike tree env env') :
    r.resolve tree env = r.resolve tree env' := by
  unfold Request.resolve
  rw [← h.cascade]
  cases hc : r.cascade tree env with
  | error fault => rfl
  | ok c => exact h.complete hc

/-! ### The lowest layer -/

/-- Without a schema a variable that fills in is bound to its converted text, with the environment
as its origin. -/
theorem get?_bindings_of_unset {result : Resolution} {text : String} (hschema : r.schema = none)
    (huse : r.useEnvironment = true) (hkey : key ≠ r.modeKey) (htext : env.get? key = some text)
    (hunset : (c.bindings r.modeKey).contains key = false) (h : r.complete env c = .ok result) :
    ∃ value, r.Converts key text value ∧
      result.bindings.get? key = some ⟨value, .environment⟩ := by
  obtain ⟨-, -, hkeys⟩ := get?_of_complete hschema h
  have hfilled : (r.rawBindings env c).get? key = some ⟨text, .environment⟩ := by
    rw [get?_rawBindings_eq_or hkey, KeyMap.contains_eq_false_iff.mp hunset, huse, if_pos rfl,
      htext]
    rfl
  rcases hkeys key with ⟨b, value, hraw, hconverts, hbound⟩ | ⟨hraw, -⟩
  · obtain rfl := Option.some.inj (hfilled.symm.trans hraw)
    exact ⟨value, hconverts, hbound⟩
  · simp [hfilled] at hraw

/-- A request resolves alike, to the same result or to the same fault, in any two environments that
agree on the mode key, unless the mode is given, and on the keys that the files leave unset, if the
environment fills in.  So the order of the variables is of no account, and with the mode given and
nothing filled in neither is the environment.  The variables on which the environments have to agree
do count: what fills in is bound, converted and with the environment as its origin. -/
theorem environment_is_lowest_layer (r : Request) (tree : FileTree) (env env' : LiveEnvironment) :
    (r.SeesAlike tree env env' → r.resolve tree env = r.resolve tree env') ∧
      (env.vars.Perm env'.vars → r.resolve tree env = r.resolve tree env') ∧
      (r.mode.isSome = true → r.useEnvironment = false →
        r.resolve tree env = r.resolve tree env') ∧
      ∀ c result key text, r.schema = none → r.useEnvironment = true →
        r.cascade tree env = .ok c → r.resolve tree env = .ok result → key ≠ r.modeKey →
        (c.bindings r.modeKey).contains key = false → env.get? key = some text →
        ∃ value, r.Converts key text value ∧
          result.bindings.get? key = some ⟨value, .environment⟩ := by
  refine ⟨SeesAlike.resolve, fun hperm => ?_, fun hmode hunused => ?_, ?_⟩
  · exact SeesAlike.resolve (.of_get? (LiveEnvironment.get?_perm hperm))
  · exact SeesAlike.resolve (.of_unused hmode hunused)
  · intro c result key text hschema huse hc hresult hkey hunset htext
    obtain ⟨c', hc', hcomplete⟩ := exists_cascade_of_resolve hresult
    obtain rfl : c = c' := Except.ok.inj (hc.symm.trans hc')
    exact get?_bindings_of_unset hschema huse hkey htext hunset hcomplete

/-- An environment with a variable that the files of `layeredTree` set, and two that they do not. -/
def plainEnvironment : LiveEnvironment :=
  ⟨[("A", "live"), ("C", "1"), ("D", "2")], by decide⟩

/-- The same two variables in another order, with an empty mode and another variable that the files
set. -/
def shuffledEnvironment : LiveEnvironment :=
  ⟨[("D", "2"), ("MODE", ""), ("B", "other"), ("C", "1")], by decide⟩

/-- The two environments look the same, lead to one result, and fill in the variable `C`. -/
theorem environment_layeredRequest :
    layeredRequest.SeesAlike layeredTree plainEnvironment shuffledEnvironment ∧
      ∃ result, layeredRequest.resolve layeredTree plainEnvironment = .ok result ∧
        layeredRequest.resolve layeredTree shuffledEnvironment = .ok result ∧
        result.bindings.get? "C" = some ⟨.string "1", .environment⟩ := by
  have hset : ((layeredRequest.cascade layeredTree plainEnvironment).toOption.map fun c =>
      (c.bindings "MODE").keys) = some ["A", "B"] := by decide +kernel
  have hsome : (layeredRequest.resolve layeredTree plainEnvironment).toOption.isSome := by
    decide +kernel
  have hunset : ∀ c key, layeredRequest.cascade layeredTree plainEnvironment = .ok c →
      ((c.bindings "MODE").contains key = false ↔ key ≠ "A" ∧ key ≠ "B") := by
    intro c key hc
    have hkeys : (c.bindings "MODE").keys = ["A", "B"] := by
      rw [hc] at hset
      exact Option.some.inj hset
    rw [KeyMap.contains_eq_false_iff, KeyMap.get?_eq_none_iff, hkeys]
    simp
  have halike : layeredRequest.SeesAlike layeredTree plainEnvironment shuffledEnvironment := by
    refine ⟨fun _ => by decide, fun _ c hc key hmode habsent => ?_⟩
    obtain ⟨hA, hB⟩ := (hunset c key hc).mp habsent
    have hM : key ≠ "MODE" := hmode
    by_cases hC : key = "C"
    · rw [hC]
      decide
    · by_cases hD : key = "D"
      · rw [hD]
        decide
      · simp [LiveEnvironment.get?, plainEnvironment, shuffledEnvironment, KeyMap.find?, Ne.symm hA,
          Ne.symm hB, Ne.symm hC, Ne.symm hD, Ne.symm hM]
  refine ⟨halike, ?_⟩
  obtain ⟨hsame, -, -, hfills⟩ :=
    environment_is_lowest_layer layeredRequest layeredTree plainEnvironment shuffledEnvironment
  cases hresult : layeredRequest.resolve layeredTree plainEnvironment with
  | error fault => simp [hresult, Except.toOption] at hsome
  | ok result =>
    obtain ⟨c, hc, -⟩ := exists_cascade_of_resolve hresult
    obtain ⟨value, hconverts, hbound⟩ := hfills c result "C" "1" rfl rfl hc hresult (by decide)
      ((hunset c "C" hc).mpr (by decide)) (by decide)
    have hplain : layeredRequest.conversions.get? "C" = none := by decide
    cases hconverts with
    | plain => exact ⟨result, rfl, (hsame halike).symm.trans hresult, hbound⟩
    | converted hconvert => simp [hplain] at hconvert

end Request

end LayeredEnv
