import LayeredEnv.Proofs.ReferenceSemantics

/-!
# The mode that is reported

The mode of a resolution is told without any scan.  `Site.Reaches` follows the modes that own lines
declare from a first mode to a stable one.  A mode *settles* on the first stable mode of its orbit
(`Site.Settles`), which is the one that a chase reaches.

The origin goes with the mode: a mode that nothing redirects keeps the origin that it has, and any
other one comes from the layer that declares it (`Site.Reaches.eq_or_exists_redirection`).

Main statement: `Request.mode_reported`.
-/

namespace LayeredEnv

namespace ModePrecedence

/-- Without a live mode the chase starts from the files' one. -/
@[simp] theorem seed_none (precedence : ModePrecedence) (declared : Option ActiveMode) :
    precedence.seed none declared = declared := by
  cases precedence <;> simp [seed]

/-- Without a live mode the end of the chase is reported. -/
@[simp] theorem report_none (precedence : ModePrecedence) (last : Option ActiveMode) :
    precedence.report none last = last := by
  cases precedence <;> simp [report]

end ModePrecedence

/-- Without a live mode the precedence of a cascade does not matter. -/
theorem Site.cascade_none (s : Site) (precedence precedence' : ModePrecedence) :
    s.cascade precedence none = s.cascade precedence' none := by
  unfold cascade
  cases s.scanAll s.fixedLayers with
  | error fault => rfl
  | ok fixed =>
    simp only [Option.map_none, ModePrecedence.seed_none, ModePrecedence.report_none]

namespace Site

variable {s : Site} {layer : Layer} {layers : List Layer} {scans : List Scan}
  {first last next mode : ActiveMode} {modes : List String}

/-! ### What layers declare -/

/-- The mode that the layers of a mode declare: that of the first of them with one. -/
def redirection? (s : Site) (mode : String) : Option ActiveMode :=
  (s.modeLayers mode).findSome? s.declaration?

/-- The first of the layers whose own lines assign a mode is this one, and it assigns this mode. -/
def FirstAssigns (s : Site) (layers : List Layer) (layer : Layer) (name : String) : Prop :=
  ∃ before after, layers = before ++ layer :: after ∧ s.ownMode? layer = some name ∧
    ∀ other ∈ before, s.ownMode? other = none

/-- A mode redirects to the mode that its layers declare. -/
theorem redirect?_of_redirection? {name : String} (h : s.redirection? name = some next) :
    s.redirect? name = some next.name := by
  rw [redirect?, ← name_findSome?_declaration?]
  exact congrArg (Option.map ActiveMode.name) h

/-- A declared mode has as its origin the first layer that assigns one. -/
theorem exists_firstAssigns (h : layers.findSome? s.declaration? = some mode) :
    ∃ layer, s.FirstAssigns layers layer mode.name ∧
      mode.origin = .file layer.path layer.tier := by
  obtain ⟨before, layer, after, hlayers, hmode, hbefore⟩ := List.findSome?_eq_some_iff.mp h
  obtain ⟨name, hname, rfl⟩ := Option.map_eq_some_iff.mp hmode
  exact ⟨layer, ⟨before, after, hlayers, hname, fun other hother =>
    Option.map_eq_none_iff.mp (hbefore other hother)⟩, rfl⟩

/-- Own lines assign no empty mode. -/
theorem ne_empty_of_ownMode? {name : String} (h : s.ownMode? layer = some name) : name ≠ "" := by
  unfold ownMode? at h
  split at h
  · simpa using (Option.filter_eq_some_iff.mp h).2
  · simp at h

/-! ### Where declarations lead -/

/-- From the first mode the declarations of the mode layers lead to the last one, which is stable,
by way of the modes named. -/
inductive Reaches (s : Site) : ActiveMode → List String → ActiveMode → Prop
  | stay {mode : ActiveMode} : s.Stable mode.name → Reaches s mode [mode.name] mode
  | redirect {mode next last : ActiveMode} {modes : List String} :
      s.redirection? mode.name = some next → next.name ≠ mode.name → Reaches s next modes last →
      Reaches s mode (mode.name :: modes) last

/-- Where the chase from a seed leads: nowhere without one. -/
inductive ReachesFrom (s : Site) : Option ActiveMode → List String → Option ActiveMode → Prop
  | nothing : ReachesFrom s none [] none
  | mode {first last : ActiveMode} {modes : List String} : s.Reaches first modes last →
      ReachesFrom s (some first) modes (some last)

/-- A mode with a redirection to another one is not stable. -/
theorem not_stable_of_redirection? {name : String} (h : s.redirection? name = some next)
    (hne : next.name ≠ name) : ¬ s.Stable name :=
  fun hstable => hne (hstable _ (redirect?_of_redirection? h))

/-- Declarations lead one way only. -/
theorem Reaches.unique {modes' : List String} {last' : ActiveMode} (h : s.Reaches first modes last)
    (h' : s.Reaches first modes' last') : modes = modes' ∧ last = last' := by
  induction h generalizing modes' last' with
  | stay hstable =>
    cases h' with
    | stay => exact ⟨rfl, rfl⟩
    | redirect hnext hne => exact absurd hstable (not_stable_of_redirection? hnext hne)
  | redirect hnext hne _ ih =>
    cases h' with
    | stay hstable => exact absurd hstable (not_stable_of_redirection? hnext hne)
    | redirect hnext' _ hrest =>
      obtain rfl := Option.some.inj (hnext.symm.trans hnext')
      obtain ⟨rfl, rfl⟩ := ih hrest
      exact ⟨rfl, rfl⟩

theorem ReachesFrom.unique {seed reached reached' : Option ActiveMode} {modes' : List String}
    (h : s.ReachesFrom seed modes reached) (h' : s.ReachesFrom seed modes' reached') :
    modes = modes' ∧ reached = reached' := by
  cases h with
  | nothing =>
    cases h'
    exact ⟨rfl, rfl⟩
  | mode hreaches =>
    cases h' with
    | mode hreaches' =>
      obtain ⟨rfl, rfl⟩ := hreaches.unique hreaches'
      exact ⟨rfl, rfl⟩

/-- The modes on the way redirect to one another, and the last one is stable. -/
theorem Reaches.exists_redirects (h : s.Reaches first modes last) :
    ∃ passed, modes = passed ++ [last.name] ∧ s.Redirects first.name passed last.name ∧
      s.Stable last.name := by
  induction h with
  | @stay mode hstable => exact ⟨[], rfl, .refl _, hstable⟩
  | @redirect mode next last modes hnext hne _ ih =>
    obtain ⟨passed, rfl, hpassed, hstable⟩ := ih
    exact ⟨mode.name :: passed, rfl, .step (redirect?_of_redirection? hnext) hne hpassed, hstable⟩

/-- The modes on the way are those that are chased. -/
theorem ReachesFrom.chased {seed reached : Option ActiveMode}
    (h : s.ReachesFrom seed modes reached) : s.Chased (seed.map ActiveMode.name) modes := by
  cases h with
  | nothing => exact .nothing
  | mode hreaches =>
    obtain ⟨passed, rfl, hpassed, hstable⟩ := hreaches.exists_redirects
    exact .modes hpassed hstable

/-- A chase without a fault reads the layers of the modes on the way to where it ends. -/
theorem exists_reaches_of_chase (s : Site) (visited : List String) (mode : ActiveMode) :
    ∀ scans reached, s.chase visited mode = .ok (scans, reached) →
      ∃ modes, s.Reaches mode modes reached ∧ s.Scanned (modes.flatMap s.modeLayers) scans := by
  induction visited, mode using chase_induction (s := s) with
  | step visited mode ih =>
  intro scans reached h
  cases hscanAll : s.scanAll (s.modeLayers mode.name) with
  | error fault => simp [chase_of_error hscanAll] at h
  | ok own =>
    have hown := scanAll_eq_ok_iff.mp hscanAll
    have hread : s.Scanned ([mode.name].flatMap s.modeLayers) own := by simpa using hown
    rw [chase_of_ok hscanAll] at h
    cases hdeclared : firstDeclaredMode? s.modeKey own with
    | none =>
      simp only [hdeclared] at h
      obtain ⟨rfl, rfl⟩ := Prod.mk.inj (Except.ok.inj h)
      exact ⟨_, .stay (stable_of_scanned hown (by simp [hdeclared])), hread⟩
    | some next =>
      simp only [hdeclared] at h
      split at h
      · next hsame =>
        obtain ⟨rfl, rfl⟩ := Prod.mk.inj (Except.ok.inj h)
        exact ⟨_, .stay (stable_of_scanned hown (by simp [hdeclared, hsame])), hread⟩
      · next hne =>
        split at h
        · simp at h
        · next hnew =>
          cases hfurther : s.chase (visited ++ [next.name]) next with
          | error fault => simp [hfurther, Except.map] at h
          | ok further =>
            obtain ⟨rfl, rfl⟩ : own ++ further.1 = scans ∧ further.2 = reached := by
              simpa [hfurther, Except.map] using h
            obtain ⟨modes, hmodes, hscans⟩ := ih own next hscanAll hdeclared hnew _ _ hfurther
            have hnext : s.redirection? mode.name = some next :=
              (firstDeclaredMode?_eq_findSome? hown).symm.trans hdeclared
            exact ⟨mode.name :: modes, .redirect hnext hne hmodes, hown.append hscans⟩

/-- A cascade without a fault reads the fixed layers and those of the modes on the way from its
seed, and reports the mode by its precedence. -/
theorem exists_reachesFrom_of_cascade {precedence : ModePrecedence} {live : Option String}
    {c : Cascade} (h : s.cascade precedence live = .ok c) :
    ∃ modes reached,
      s.ReachesFrom (precedence.seed (live.map (⟨·, .environment⟩))
        (s.fixedLayers.findSome? s.declaration?)) modes reached ∧
      s.Scanned (s.fixedLayers ++ modes.flatMap s.modeLayers) c.scans ∧
      c.mode = precedence.report (live.map (⟨·, .environment⟩)) reached := by
  obtain ⟨fixed, chased, reached, hfixed, hchase, hscans, hmode⟩ := exists_chase_of_cascade h
  rw [firstDeclaredMode?_eq_findSome? hfixed] at hchase
  generalize precedence.seed (live.map (⟨·, .environment⟩))
    (s.fixedLayers.findSome? s.declaration?) = seed at hchase ⊢
  cases seed with
  | none =>
    obtain ⟨rfl, rfl⟩ := Prod.mk.inj (Except.ok.inj hchase)
    exact ⟨[], none, .nothing, by simpa [hscans] using hfixed, hmode⟩
  | some first =>
    rw [chaseFrom_some] at hchase
    cases hresult : s.chase [first.name] first with
    | error fault => simp [hresult, Except.map] at hchase
    | ok result =>
      obtain ⟨rfl, rfl⟩ : result.1 = chased ∧ some result.2 = reached := by
        simpa [hresult, Except.map] using hchase
      obtain ⟨modes, hmodes, hchased⟩ := exists_reaches_of_chase s _ _ _ _ hresult
      exact ⟨modes, some result.2, .mode hmodes, hscans ▸ hfixed.append hchased, hmode⟩

/-! ### Settling -/

/-- A mode settles on the first stable one of its orbit. -/
def Settles (s : Site) (first last : String) : Prop :=
  ∃ n, s.orbit first n = some last ∧ s.Stable last ∧
    ∀ i < n, ∀ mode, s.orbit first i = some mode → ¬ s.Stable mode

/-- A mode settles on one mode at most. -/
theorem Settles.unique {first last last' : String} (h : s.Settles first last)
    (h' : s.Settles first last') : last = last' := by
  obtain ⟨n, hn, hstable, hbefore⟩ := h
  obtain ⟨n', hn', hstable', hbefore'⟩ := h'
  have hle : n ≤ n' := Nat.le_of_not_lt fun hlt => hbefore n' hlt _ hn' hstable'
  have hge : n' ≤ n := Nat.le_of_not_lt fun hlt => hbefore' n hlt _ hn hstable
  obtain rfl := Nat.le_antisymm hle hge
  exact Option.some.inj (hn.symm.trans hn')

/-- The orbit of a stable mode stays there. -/
theorem eq_of_orbit_of_stable {first mode : String} (hstable : s.Stable first) (n : Nat)
    (h : s.orbit first n = some mode) : mode = first := by
  induction n generalizing mode with
  | zero => exact (Option.some.inj h).symm
  | succ n ih =>
    obtain ⟨prior, hprior, hmode⟩ := Option.bind_eq_some_iff.mp h
    obtain rfl := ih hprior
    exact hstable mode hmode

/-- Where the declarations lead from a mode, there it settles. -/
theorem Reaches.settles (h : s.Reaches first modes last) : s.Settles first.name last.name := by
  obtain ⟨passed, -, hpassed, hstable⟩ := h.exists_redirects
  exact ⟨passed.length, hpassed.orbit_length, hstable, fun i hi mode hmode =>
    hpassed.not_stable (hpassed.mem_of_orbit hi hmode)⟩

/-- The mode reached is the first one, if that is stable, or it is declared by the layers of a mode
on the way, which is in the orbit and not stable. -/
theorem Reaches.eq_or_exists_redirection (h : s.Reaches first modes last) :
    (last = first ∧ s.Stable first.name) ∨
      ∃ n prior, prior ∈ modes ∧ s.orbit first.name n = some prior ∧ ¬ s.Stable prior ∧
        s.redirection? prior = some last := by
  induction h with
  | stay hstable => exact .inl ⟨rfl, hstable⟩
  | @redirect mode next last modes hnext hne _ ih =>
    have hunstable := not_stable_of_redirection? hnext hne
    rcases ih with ⟨rfl, -⟩ | ⟨n, prior, hmem, hprior, hprior', hlast⟩
    · exact .inr ⟨0, mode.name, List.mem_cons_self .., rfl, hunstable, hnext⟩
    · refine .inr ⟨n + 1, prior, List.mem_cons_of_mem _ hmem, ?_, hprior', hlast⟩
      rw [orbit_succ_of_redirect (redirect?_of_redirection? hnext), hprior]

end Site

namespace Site

/-- What a mode settles on, if there is one to begin with; without one there is none. -/
inductive SettlesOn (s : Site) : Option String → Option String → Prop
  | nothing : SettlesOn s none none
  | mode {first last : String} : s.Settles first last → SettlesOn s (some first) (some last)

variable {s : Site} {first last : ActiveMode} {modes : List String}

theorem ReachesFrom.settlesOn {seed reached : Option ActiveMode}
    (h : s.ReachesFrom seed modes reached) :
    s.SettlesOn (seed.map ActiveMode.name) (reached.map ActiveMode.name) := by
  cases h with
  | nothing => exact .nothing
  | mode hreaches => exact .mode hreaches.settles

/-- No empty mode is reached from one that is not empty. -/
theorem Reaches.name_ne_empty (h : s.Reaches first modes last) (hfirst : first.name ≠ "") :
    last.name ≠ "" := by
  rcases h.eq_or_exists_redirection with ⟨rfl, -⟩ | ⟨n, prior, -, -, -, hlast⟩
  · exact hfirst
  · obtain ⟨layer, ⟨before, after, -, hown, -⟩, -⟩ := exists_firstAssigns hlast
    exact ne_empty_of_ownMode? hown

end Site

namespace Request

variable {r : Request} {tree : FileTree} {env : LiveEnvironment} {c : Cascade} {name : String}

/-! ### The mode of a request -/

/-- The mode that the own lines of the base file assign, or else those of its neighbour. -/
def fileMode? (r : Request) (tree : FileTree) : Option String :=
  (r.site tree).fixedLayers.findSome? (r.site tree).ownMode?

/-- The mode is the live one, and nothing redirects it: it goes before the files, or else these have
no mode and it is stable. -/
def LiveUnredirected (r : Request) (tree : FileTree) (env : LiveEnvironment) (name : String) :
    Prop :=
  r.liveMode? env = some name ∧
    (r.precedence = .environment ∨ r.fileMode? tree = none ∧ (r.site tree).Stable name)

/-- The layer's own lines assign the mode: it is the first fixed layer with a mode, which is stable,
or the first one with a mode among the layers of an unstable mode in the orbit of the first mode. -/
def Produces (r : Request) (tree : FileTree) (env : LiveEnvironment) (layer : Layer)
    (name : String) : Prop :=
  (r.firstMode? tree env = some name ∧ (r.site tree).Stable name ∧
      (r.site tree).FirstAssigns (r.site tree).fixedLayers layer name) ∨
    ∃ first n prior, r.firstMode? tree env = some first ∧
      (r.site tree).orbit first n = some prior ∧ ¬ (r.site tree).Stable prior ∧
      (r.site tree).FirstAssigns ((r.site tree).modeLayers prior) layer name

/-- A live mode is not empty. -/
theorem ne_empty_of_liveMode? (h : r.liveMode? env = some name) : name ≠ "" := by
  simpa using (Option.filter_eq_some_iff.mp h).2

/-- The seed of the chase if the live mode does not go before the files. -/
def seed? (r : Request) (tree : FileTree) (env : LiveEnvironment) : Option ActiveMode :=
  ((r.site tree).fixedLayers.findSome? (r.site tree).declaration?).or
    ((r.liveMode? env).map (⟨·, .environment⟩))

theorem name_seed? (r : Request) (tree : FileTree) (env : LiveEnvironment) :
    (r.seed? tree env).map ActiveMode.name = (r.fileMode? tree).or (r.liveMode? env) := by
  simp only [seed?, fileMode?, Option.map_or, Site.name_findSome?_declaration?,
    Option.map_map, Function.comp_def, Option.map_id']

/-- The mode of a cascade is the live one, if that goes before the files, and otherwise the one that
is reached from the seed. -/
theorem mode_cases_of_cascade (h : r.cascade tree env = .ok c) :
    (r.precedence = .environment ∧
        ∃ live, r.liveMode? env = some live ∧ c.mode = some ⟨live, .environment⟩) ∨
      ((r.precedence = .environment → r.liveMode? env = none) ∧
        r.firstMode? tree env = (r.seed? tree env).map ActiveMode.name ∧
        ∃ modes, (r.site tree).ReachesFrom (r.seed? tree env) modes c.mode) := by
  obtain ⟨modes, reached, hreached, -, hmode⟩ := Site.exists_reachesFrom_of_cascade h
  rw [name_seed?, firstMode?, seed?, fileMode?]
  cases hprecedence : r.precedence with
  | environment =>
    rw [hprecedence] at hreached hmode
    cases hlive : r.liveMode? env with
    | some live => exact .inl ⟨rfl, live, rfl, by simpa [hlive, ModePrecedence.report] using hmode⟩
    | none =>
      simp only [hlive, ModePrecedence.report, ModePrecedence.seed, Option.map_none,
        Option.none_or] at hmode hreached
      refine .inr ⟨fun _ => rfl, by simp, modes, ?_⟩
      simpa [hmode] using hreached
  | files =>
    rw [hprecedence] at hreached hmode
    refine .inr ⟨fun henv => ModePrecedence.noConfusion henv, rfl, modes, ?_⟩
    simpa [hmode, ModePrecedence.report, ModePrecedence.seed] using hreached

/-- The seed is not empty. -/
theorem name_ne_empty_of_seed? {first : ActiveMode} (h : r.seed? tree env = some first) :
    first.name ≠ "" := by
  rcases Option.or_eq_some_iff.mp h with hdeclared | ⟨-, hlive⟩
  · obtain ⟨layer, ⟨before, after, -, hown, -⟩, -⟩ := Site.exists_firstAssigns hdeclared
    exact Site.ne_empty_of_ownMode? hown
  · obtain ⟨live, hname, rfl⟩ := Option.map_eq_some_iff.mp hlive
    exact ne_empty_of_liveMode? hname

/-- A cascade has no empty mode. -/
theorem mode_name_ne_empty (h : r.cascade tree env = .ok c) {mode : ActiveMode}
    (hmode : c.mode = some mode) : mode.name ≠ "" := by
  rcases mode_cases_of_cascade h with ⟨-, live, hlive, hreported⟩ | ⟨-, -, modes, hreached⟩
  · obtain rfl := Option.some.inj (hreported.symm.trans hmode)
    exact ne_empty_of_liveMode? hlive
  · rw [hmode] at hreached
    generalize hseed : r.seed? tree env = seed at hreached
    cases hreached with
    | mode hreaches => exact hreaches.name_ne_empty (name_ne_empty_of_seed? hseed)

/-- The declaration of the fixed layers is named by the files' mode. -/
theorem name_fixed_declaration? (r : Request) (tree : FileTree) :
    ((r.site tree).fixedLayers.findSome? (r.site tree).declaration?).map ActiveMode.name =
      r.fileMode? tree :=
  Site.name_findSome?_declaration? ..

/-- If the live mode does not go before the files, it counts as unredirected only as the seed, for
want of a files' mode, and only if it is stable. -/
theorem LiveUnredirected.of_seed? {first : ActiveMode} (h : r.LiveUnredirected tree env name)
    (hnolive : r.precedence = .environment → r.liveMode? env = none)
    (hseed : r.seed? tree env = some first) :
    r.fileMode? tree = none ∧ first.name = name ∧ (r.site tree).Stable first.name := by
  obtain ⟨hlive, henv | ⟨hnone, hstable⟩⟩ := h
  · simp [hnolive henv] at hlive
  · have hname := name_seed? r tree env
    rw [hseed, hnone, hlive] at hname
    obtain heq : first.name = name := Option.some.inj hname
    exact ⟨hnone, heq, heq ▸ hstable⟩

/-- The mode of a cascade comes from the live environment, if nothing redirects the live mode, and
otherwise from the layer that produces it. -/
theorem origin_of_mode (h : r.cascade tree env = .ok c) {mode : ActiveMode}
    (hmode : c.mode = some mode) :
    (r.LiveUnredirected tree env mode.name ∧ mode.origin = .environment) ∨
      (¬ r.LiveUnredirected tree env mode.name ∧
        ∃ layer, r.Produces tree env layer mode.name ∧
          mode.origin = .file layer.path layer.tier) := by
  rcases mode_cases_of_cascade h with ⟨hprecedence, live, hlive, hreported⟩ |
    ⟨hnolive, hfirst, modes, hreached⟩
  · obtain rfl := Option.some.inj (hreported.symm.trans hmode)
    exact .inl ⟨⟨hlive, .inl hprecedence⟩, rfl⟩
  · rw [hmode] at hreached
    generalize hseed : r.seed? tree env = seed at hreached hfirst
    cases hreached with
    | @mode first _ _ hreaches =>
      have hunredirected : r.LiveUnredirected tree env mode.name →
          r.fileMode? tree = none ∧ first.name = mode.name ∧ (r.site tree).Stable first.name :=
        fun hlive => hlive.of_seed? hnolive hseed
      rcases hreaches.eq_or_exists_redirection with ⟨rfl, hstable⟩ |
        ⟨n, prior, -, hprior, hunstable, hlast⟩
      · have hfile := name_fixed_declaration? r tree
        rcases Option.or_eq_some_iff.mp hseed with hdeclared | ⟨hnone, hlive⟩
        · obtain ⟨layer, hassigns, horigin⟩ := Site.exists_firstAssigns hdeclared
          refine .inr ⟨fun hlive => ?_, layer, .inl ⟨hfirst, hstable, hassigns⟩, horigin⟩
          rw [hdeclared, (hunredirected hlive).1] at hfile
          simp at hfile
        · obtain ⟨live, hname, rfl⟩ := Option.map_eq_some_iff.mp hlive
          rw [hnone] at hfile
          exact .inl ⟨⟨hname, .inr ⟨hfile.symm, hstable⟩⟩, rfl⟩
      · obtain ⟨layer, hassigns, horigin⟩ := Site.exists_firstAssigns hlast
        refine .inr ⟨fun hlive => ?_, layer,
          .inr ⟨first.name, n, prior, hfirst, hprior, hunstable, hassigns⟩, horigin⟩
        obtain ⟨-, -, hstable⟩ := hunredirected hlive
        exact hunstable (Site.eq_of_orbit_of_stable hstable n hprior ▸ hstable)

/-- Without a live mode it does not matter which mode goes before the other. -/
theorem resolve_precedence (hlive : r.liveMode? env = none) (precedence : ModePrecedence) :
    ({ r with precedence } : Request).resolve tree env = r.resolve tree env := by
  have hcascade : ({ r with precedence } : Request).cascade tree env = r.cascade tree env := by
    change (r.site tree).cascade precedence (r.liveMode? env) =
      (r.site tree).cascade r.precedence (r.liveMode? env)
    rw [hlive]
    exact Site.cascade_none ..
  unfold resolve
  rw [hcascade]
  rfl

/-- Without a schema and without a conversion of the mode key, this key is bound to the mode of the
cascade, and to its default if there is no mode. -/
theorem get?_bindings_modeKey {result : Resolution} (hschema : r.schema = none)
    (hconversion : r.conversions.get? r.modeKey = none) (h : r.complete env c = .ok result) :
    result.bindings.get? r.modeKey =
      (c.mode.map fun mode => ⟨.string mode.name, mode.origin⟩).or
        ((r.defaults.get? r.modeKey).map (⟨·, .default⟩)) := by
  obtain ⟨-, -, hkeys⟩ := get?_of_complete hschema h
  rcases hkeys r.modeKey with ⟨b, value, hraw, hconverts, hbound⟩ | ⟨hraw, hdefault⟩
  · rw [get?_rawBindings_modeKey] at hraw
    obtain ⟨mode, hmode, rfl⟩ := Option.map_eq_some_iff.mp hraw
    cases hconverts with
    | plain => rw [hbound, hmode, Option.map_some, Option.some_or]
    | converted hconvert => simp [hconversion] at hconvert
  · rw [get?_rawBindings_modeKey] at hraw
    rw [hdefault, Option.map_eq_none_iff.mp hraw, Option.map_none, Option.none_or]

/-- Without a schema and without a conversion of the mode key, the mode that is reported is the live
one, if that goes before the files and there is one.  Otherwise it is what the files' mode settles
on, or else the live one.  It is never empty; the mode key is bound to it, and to its default if
there is no mode.  Its origin is the live environment if it is the live mode and nothing redirects
that, and otherwise the layer whose own lines assign it.  Without a live mode it does not matter
which mode goes before the other. -/
theorem mode_reported {result : Resolution} (hschema : r.schema = none)
    (hconversion : r.conversions.get? r.modeKey = none) (h : r.resolve tree env = .ok result) :
    (r.precedence = .environment → ∀ live, r.liveMode? env = some live →
        result.mode = some live) ∧
      (r.precedence = .environment → r.liveMode? env = none →
        (r.site tree).SettlesOn (r.fileMode? tree) result.mode) ∧
      (r.precedence = .files →
        (r.site tree).SettlesOn ((r.fileMode? tree).or (r.liveMode? env)) result.mode) ∧
      result.mode ≠ some "" ∧
      result.values.get? r.modeKey =
        (result.mode.map Json.string).or (r.defaults.get? r.modeKey) ∧
      (∀ mode, result.mode = some mode →
        (r.LiveUnredirected tree env mode ∧
            result.origins.get? r.modeKey = some .environment) ∨
          (¬ r.LiveUnredirected tree env mode ∧ ∃ layer, r.Produces tree env layer mode ∧
            result.origins.get? r.modeKey = some (.file layer.path layer.tier))) ∧
      (r.liveMode? env = none → ∀ precedence,
        ({ r with precedence } : Request).resolve tree env = .ok result) := by
  obtain ⟨c, hcascade, hcomplete⟩ := exists_cascade_of_resolve h
  obtain ⟨-, hmode, -⟩ := get?_of_complete hschema hcomplete
  have hbound := get?_bindings_modeKey hschema hconversion hcomplete
  have hvalue : result.values.get? r.modeKey = (result.bindings.get? r.modeKey).map Binding.value :=
    KeyMap.get?_map ..
  have horigin : result.origins.get? r.modeKey =
      (result.bindings.get? r.modeKey).map Binding.origin := KeyMap.get?_map ..
  have hcases := mode_cases_of_cascade hcascade
  refine ⟨fun hprecedence live hlive => ?_, fun hprecedence hlive => ?_, fun hprecedence => ?_, ?_,
    ?_, fun name hname => ?_, fun hlive precedence => ?_⟩
  · rcases hcases with ⟨-, live', hlive', hreported⟩ | ⟨hnone, -⟩
    · obtain rfl : live' = live := Option.some.inj (hlive'.symm.trans hlive)
      rw [hmode, hreported, Option.map_some]
    · simp [hnone hprecedence] at hlive
  · rcases hcases with ⟨-, live, hlive', -⟩ | ⟨-, -, modes, hreached⟩
    · simp [hlive] at hlive'
    · have hsettles := hreached.settlesOn
      rw [name_seed?, hlive, Option.or_none] at hsettles
      rwa [hmode]
  · rcases hcases with ⟨henv, -⟩ | ⟨-, -, modes, hreached⟩
    · simp [hprecedence] at henv
    · have hsettles := hreached.settlesOn
      rw [name_seed?] at hsettles
      rwa [hmode]
  · rw [hmode]
    intro hempty
    obtain ⟨mode, hsome, hname⟩ := Option.map_eq_some_iff.mp hempty
    exact mode_name_ne_empty hcascade hsome hname
  · simp only [hvalue, hbound, hmode, Option.map_or, Option.map_map, Function.comp_def,
      Option.map_id']
  · rw [hmode] at hname
    obtain ⟨mode, hsome, rfl⟩ := Option.map_eq_some_iff.mp hname
    rw [horigin, hbound, hsome]
    rcases origin_of_mode hcascade hsome with ⟨hlive, henv⟩ | ⟨hlive, layer, hproduces, hfile⟩
    · exact .inl ⟨hlive, congrArg some henv⟩
    · exact .inr ⟨hlive, layer, hproduces, congrArg some hfile⟩
  · rw [resolve_precedence hlive, h]

/-- The files' mode goes before the live one, but the files have none. -/
def redirectedRequest : Request where
  precedence := .files

/-- The live mode `a` is redirected by the local file of `a`, which is told as the origin. -/
theorem mode_reported_localRedirect :
    redirectedRequest.schema = none ∧
      redirectedRequest.conversions.get? redirectedRequest.modeKey = none ∧
      ∃ result, redirectedRequest.resolve Site.localRedirect.tree (.ofList [("MODE", "a")]) =
          .ok result ∧ result.mode = some "b" ∧
        result.values.get? "MODE" = some (.string "b") ∧
        ∃ layer, redirectedRequest.Produces Site.localRedirect.tree (.ofList [("MODE", "a")])
            layer "b" ∧
          result.origins.get? "MODE" = some (.file layer.path layer.tier) := by
  refine ⟨rfl, rfl, ?_⟩
  have hb : (redirectedRequest.resolve Site.localRedirect.tree
      (.ofList [("MODE", "a")])).toOption.bind (·.mode) = some "b" := by decide +kernel
  have hlive : redirectedRequest.liveMode? (.ofList [("MODE", "a")]) = some "a" := by decide +kernel
  cases hresult : redirectedRequest.resolve Site.localRedirect.tree (.ofList [("MODE", "a")]) with
  | error e => simp [hresult, Except.toOption] at hb
  | ok result =>
    rw [hresult] at hb
    obtain ⟨-, -, -, -, hvalue, horigin, -⟩ := mode_reported rfl rfl hresult
    have hmode : result.mode = some "b" := hb
    rw [hmode] at hvalue
    rcases horigin "b" hmode with ⟨⟨hlive', -⟩, -⟩ | ⟨-, hproduced⟩
    · simp [hlive] at hlive'
    · exact ⟨result, rfl, hmode, hvalue, hproduced⟩

end Request

end LayeredEnv
