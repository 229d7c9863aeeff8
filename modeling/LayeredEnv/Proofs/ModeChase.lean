import LayeredEnv.Proofs.Scanning
import Mathlib.Data.List.Perm.Subperm

/-!
# The mode chase

A mode *redirects* to the mode that its layers' own lines assign (`Site.redirect?`); a mode that
redirects to itself or nowhere is *stable*.  The modes that one gets to by redirecting over and over
are the orbit of the first one.  It is a partial function of the number of redirects, so that it may
end.

The chase keeps the modes that it has visited.  `Site.Redirects` follows it from mode to mode, and
`Site.ChaseEnd` tells the three ways in which it may end: at a stable mode, at a mode whose layers
are at fault, or with a redirect back to a visited mode.

Main statement: the chase reads the layers of the orbit up to its first stable mode, and if there is
none it tells the orbit up to the first mode that comes again (`Site.chaseFrom_follows_orbit`).
-/

namespace LayeredEnv

namespace Site

/-! ### Redirects and their orbit -/

/-- The mode that a mode redirects to: what the first of its layers with a mode assigns. -/
def redirect? (s : Site) (mode : String) : Option String :=
  (s.modeLayers mode).findSome? s.ownMode?

/-- A mode is stable if it redirects to no other one. -/
def Stable (s : Site) (mode : String) : Prop :=
  ∀ next, s.redirect? mode = some next → next = mode

/-- The mode after a number of redirects from the first one, if there are that many. -/
def orbit (s : Site) (first : String) : Nat → Option String
  | 0 => some first
  | n + 1 => (s.orbit first n).bind s.redirect?

/-- From the first mode one gets to the last one by way of the modes listed, none of which redirects
to itself. -/
inductive Redirects (s : Site) : String → List String → String → Prop
  | refl (mode : String) : Redirects s mode [] mode
  | step {mode next last : String} {modes : List String} : s.redirect? mode = some next →
      next ≠ mode → Redirects s next modes last → Redirects s mode (mode :: modes) last

/-- The modes that are chased from a first one, up to a stable one; none without a first one. -/
inductive Chased (s : Site) : Option String → List String → Prop
  | nothing : Chased s none []
  | modes {first last : String} {modes : List String} : s.Redirects first modes last →
      s.Stable last → Chased s (some first) (modes ++ [last])

variable {s : Site} {first mode next last : String} {modes : List String}

/-- The orbit of a mode goes on with the orbit of the mode that it redirects to. -/
theorem orbit_succ_of_redirect (h : s.redirect? first = some next) (n : Nat) :
    s.orbit first (n + 1) = s.orbit next n := by
  induction n with
  | zero => rw [orbit, orbit, orbit, Option.bind_some, h]
  | succ n ih => rw [orbit, ih, orbit]

/-- Redirects pass the modes of the orbit, in order. -/
theorem Redirects.map_some_eq (h : s.Redirects first modes last) :
    (modes ++ [last]).map some = (List.range (modes.length + 1)).map (s.orbit first) := by
  induction h with
  | refl mode => rfl
  | @step mode next last modes hstep _ _ ih =>
    have hshift : (List.range (modes.length + 1)).map (s.orbit next) =
        (List.range (modes.length + 1)).map (s.orbit mode ∘ Nat.succ) :=
      List.map_congr_left fun n _ => (orbit_succ_of_redirect hstep n).symm
    rw [List.cons_append, List.map_cons, ih, hshift, ← List.map_map, List.length_cons,
      List.range_succ_eq_map (n := modes.length + 1), List.map_cons]
    rfl

/-- After as many redirects as modes are passed the orbit is at the last mode. -/
theorem Redirects.orbit_length (h : s.Redirects first modes last) :
    s.orbit first modes.length = some last := by
  have hlast := congrArg List.getLast? h.map_some_eq
  rw [List.range_succ, List.map_append, List.map_append] at hlast
  simpa using hlast.symm

/-- The orbit is among the passed modes for as many redirects as there are. -/
theorem Redirects.mem_of_orbit {n : Nat} (h : s.Redirects first modes last) (hn : n < modes.length)
    (horbit : s.orbit first n = some mode) : mode ∈ modes := by
  have hget := congrArg (·[n]?) h.map_some_eq
  rw [List.getElem?_map, List.getElem?_map, List.getElem?_append_left hn,
    List.getElem?_eq_getElem hn, List.getElem?_range (Nat.lt_succ_of_lt hn)] at hget
  have hmode : modes[n] = mode := by simpa [horbit] using hget
  exact hmode ▸ List.getElem_mem hn

/-- No passed mode is stable. -/
theorem Redirects.not_stable (h : s.Redirects first modes last) (hmode : mode ∈ modes) :
    ¬ s.Stable mode := by
  induction h with
  | refl => simp at hmode
  | step hstep hne _ ih =>
    rcases List.mem_cons.mp hmode with rfl | hmode
    · exact fun hstable => hne (hstable _ hstep)
    · exact ih hmode

/-- Redirects lead to one stable mode only, and one way only. -/
theorem Redirects.unique {modes' : List String} {last' : String}
    (h : s.Redirects first modes last) (hstable : s.Stable last)
    (h' : s.Redirects first modes' last') (hstable' : s.Stable last') :
    modes = modes' ∧ last = last' := by
  induction h generalizing modes' with
  | refl =>
    cases h' with
    | refl => exact ⟨rfl, rfl⟩
    | step hstep hne _ => exact absurd (hstable _ hstep) hne
  | step hstep hne _ ih =>
    cases h' with
    | refl => exact absurd (hstable' _ hstep) hne
    | step hstep' _ hrest =>
      obtain rfl := Option.some.inj (hstep.symm.trans hstep')
      obtain ⟨rfl, rfl⟩ := ih hstable hrest
      exact ⟨rfl, rfl⟩

/-- There is one way to chase modes from a first one. -/
theorem Chased.unique {seed : Option String} {modes' : List String} (h : s.Chased seed modes)
    (h' : s.Chased seed modes') : modes = modes' := by
  cases h with
  | nothing =>
    cases h'
    rfl
  | modes hmodes hstable =>
    cases h' with
    | modes hmodes' hstable' =>
      obtain ⟨rfl, rfl⟩ := hmodes.unique hstable hmodes' hstable'
      rfl

/-- A chase stops at the fault of its mode's layers. -/
theorem chase_of_error {visited : List String} {mode : ActiveMode} {fault : Fault}
    (h : s.scanAll (s.modeLayers mode.name) = .error fault) :
    s.chase visited mode = .error fault := by
  refine (chase.eq_def s visited mode).trans ?_
  split
  · next e he =>
    obtain rfl := Except.error.inj (he.symm.trans h)
    rfl
  · next scans hscans => exact absurd (hscans.symm.trans h) (by simp)

/-- Without such a fault it goes by what the layers declare. -/
theorem chase_of_ok {visited : List String} {mode : ActiveMode} {scans : List Scan}
    (h : s.scanAll (s.modeLayers mode.name) = .ok scans) :
    s.chase visited mode =
      match firstDeclaredMode? s.modeKey scans with
      | none => .ok (scans, mode)
      | some next =>
        if next.name = mode.name then .ok (scans, mode)
        else if next.name ∈ visited then .error (.modeCycle (visited ++ [next.name]))
        else (s.chase (visited ++ [next.name]) next).map
          fun further => (scans ++ further.1, further.2) := by
  refine (chase.eq_def s visited mode).trans ?_
  split
  · next e he => exact absurd (he.symm.trans h) (by simp)
  · next scans' hscans =>
    obtain rfl : scans' = scans := Except.ok.inj (hscans.symm.trans h)
    split
    · next hnext => simp only [hnext]
    · next next hnext =>
      simp only [hnext]
      split
      · rfl
      · split
        · rfl
        · cases s.chase (visited ++ [next.name]) next <;> rfl

/-- What holds of a mode if it holds of the new mode that its scanned layers declare, if there is
one, holds of every mode. -/
theorem chase_induction {motive : List String → ActiveMode → Prop}
    (step : ∀ visited mode, (∀ scans next, s.scanAll (s.modeLayers mode.name) = .ok scans →
      firstDeclaredMode? s.modeKey scans = some next → next.name ∉ visited →
      motive (visited ++ [next.name]) next) → motive visited mode)
    (visited : List String) (mode : ActiveMode) : motive visited mode :=
  step visited mode fun _ next _ _ _ => chase_induction step (visited ++ [next.name]) next
termination_by unvisited (s.assigned s.modeKey) visited
decreasing_by
  exact unvisited_append_lt (firstDeclaredMode?_mem_assigned (by assumption) (by assumption))
    (by assumption)

/-- What a chase returns that has passed some modes and is at the last one: the fault of that mode's
layers; everything that was read, if that mode is stable; or the modes since the first one, if it
redirects back to one of them. -/
inductive ChaseEnd (s : Site) (earlier modes : List String) (last : String) :
    Except Fault (List Scan × ActiveMode) → Prop
  | fault {fault : Fault} : s.scanAll (s.modeLayers last) = .error fault →
      ChaseEnd s earlier modes last (.error fault)
  | stable {scans : List Scan} {origin : Origin} : s.Stable last →
      s.Scanned ((modes ++ [last]).flatMap s.modeLayers) scans →
      ChaseEnd s earlier modes last (.ok (scans, ⟨last, origin⟩))
  | back {next : String} : s.redirect? last = some next → next ≠ last → next ∈ earlier ++ modes →
      ChaseEnd s earlier modes last (.error (.modeCycle (earlier ++ modes ++ [last, next])))

/-- A chase that ends after some modes ends so for the mode before them too, with its layers read
first. -/
theorem ChaseEnd.step {earlier : List String} {scans : List Scan}
    {result : Except Fault (List Scan × ActiveMode)}
    (h : s.ChaseEnd (earlier ++ [mode]) modes last result)
    (hscans : s.Scanned (s.modeLayers mode) scans) :
    s.ChaseEnd earlier (mode :: modes) last
      (result.map fun further => (scans ++ further.1, further.2)) := by
  cases h with
  | fault hfault => exact .fault hfault
  | stable hstable hfurther => exact .stable hstable (hscans.append hfurther)
  | @back next hback hne hnext =>
    have hpassed : earlier ++ [mode] ++ modes = earlier ++ mode :: modes := by simp
    rw [hpassed] at hnext ⊢
    exact .back hback hne hnext

/-- Scanned layers of a mode that declare no mode, or the same one, make it stable. -/
theorem stable_of_scanned {scans : List Scan} (hscans : s.Scanned (s.modeLayers mode) scans)
    (h : ∀ next, firstDeclaredMode? s.modeKey scans = some next → next.name = mode) :
    s.Stable mode := by
  intro next hnext
  rw [redirect?, ← name_firstDeclaredMode? hscans] at hnext
  obtain ⟨declared, hdeclared, rfl⟩ := Option.map_eq_some_iff.mp hnext
  exact h declared hdeclared

/-- What the scanned layers of a mode declare is what the mode redirects to. -/
theorem redirect?_of_scanned {scans : List Scan} {declared : ActiveMode}
    (hscans : s.Scanned (s.modeLayers mode) scans)
    (h : firstDeclaredMode? s.modeKey scans = some declared) :
    s.redirect? mode = some declared.name := by
  rw [redirect?, ← name_firstDeclaredMode? hscans, h]
  rfl

/-- The chase passes modes of which none comes twice, and then it ends. -/
theorem exists_chaseEnd (s : Site) (visited : List String) (mode : ActiveMode) :
    ∀ earlier, visited = earlier ++ [mode.name] → visited.Nodup →
      ∃ modes last, s.Redirects mode.name modes last ∧ (earlier ++ modes ++ [last]).Nodup ∧
        s.ChaseEnd earlier modes last (s.chase visited mode) := by
  induction visited, mode using chase_induction (s := s) with
  | step visited mode ih =>
  rintro earlier rfl hnodup
  have hhere : (earlier ++ [] ++ [mode.name]).Nodup := by simpa using hnodup
  cases hscanAll : s.scanAll (s.modeLayers mode.name) with
  | error fault =>
    rw [chase_of_error hscanAll]
    exact ⟨[], mode.name, .refl _, hhere, .fault hscanAll⟩
  | ok scans =>
    have hscans := scanAll_eq_ok_iff.mp hscanAll
    have hread : s.Scanned (([] ++ [mode.name]).flatMap s.modeLayers) scans := by simpa using hscans
    rw [chase_of_ok hscanAll]
    cases hdeclared : firstDeclaredMode? s.modeKey scans with
    | none =>
      have hstable : s.Stable mode.name := stable_of_scanned hscans (by simp [hdeclared])
      exact ⟨[], mode.name, .refl _, hhere, .stable hstable hread⟩
    | some next =>
      have hredirect := redirect?_of_scanned hscans hdeclared
      by_cases hsame : next.name = mode.name
      · have hstable : s.Stable mode.name := stable_of_scanned hscans (by simp [hdeclared, hsame])
        simp only [if_pos hsame]
        exact ⟨[], mode.name, .refl _, hhere, .stable hstable hread⟩
      · simp only [if_neg hsame]
        by_cases hvisited : next.name ∈ earlier ++ [mode.name]
        · have hback : next.name ∈ earlier ++ [] := by simpa [hsame] using hvisited
          rw [if_pos hvisited, List.append_assoc]
          refine ⟨[], mode.name, .refl _, hhere, ?_⟩
          simpa using ChaseEnd.back hredirect hsame hback
        · have hnodup' : (earlier ++ [mode.name] ++ [next.name]).Nodup :=
            nodup_append_singleton_iff.mpr ⟨hvisited, hnodup⟩
          obtain ⟨modes, last, hmodes, hpassed, hend⟩ :=
            ih scans next hscanAll hdeclared hvisited _ rfl hnodup'
          rw [if_neg hvisited]
          exact ⟨mode.name :: modes, last, .step hredirect hsame hmodes, by simpa using hpassed,
            hend.step hscans⟩

theorem chaseFrom_some (s : Site) (first : ActiveMode) :
    s.chaseFrom (some first) =
      (s.chase [first.name] first).map fun chased => (chased.1, some chased.2) := by
  simp only [chaseFrom]
  cases s.chase [first.name] first <;> rfl

/-- A chase without a fault has read the layers of the modes chased, in order, and has reached the
last one of them. -/
theorem exists_chased_of_chaseFrom {seed reached : Option ActiveMode} {scans : List Scan}
    (h : s.chaseFrom seed = .ok (scans, reached)) :
    ∃ modes, s.Chased (seed.map ActiveMode.name) modes ∧ modes.Nodup ∧
      s.Scanned (modes.flatMap s.modeLayers) scans ∧
      reached.map ActiveMode.name = modes.getLast? := by
  cases seed with
  | none =>
    obtain ⟨rfl, rfl⟩ := Prod.mk.inj (Except.ok.inj h)
    exact ⟨[], .nothing, .nil, .nil, rfl⟩
  | some first =>
    obtain ⟨modes, last, hmodes, hnodup, hend⟩ :=
      exists_chaseEnd s [first.name] first [] rfl (List.nodup_singleton _)
    rw [chaseFrom_some] at h
    generalize s.chase [first.name] first = result at h hend
    cases hend with
    | fault => simp [Except.map] at h
    | back => simp [Except.map] at h
    | @stable scans' origin hstable hscans =>
      obtain ⟨rfl, rfl⟩ := Prod.mk.inj (Except.ok.inj h)
      exact ⟨modes ++ [last], .modes hmodes hstable, hnodup, hscans, by simp⟩

/-- Layers that are read one after the other are at fault only for an import cycle. -/
theorem exists_importCycle_of_scanAll_error {layers : List Layer} {fault : Fault}
    (h : s.scanAll layers = .error fault) : ∃ chain, fault = .importCycle chain := by
  obtain ⟨layer, -, hscan⟩ := exists_scan_error_of_scanAll_error h
  exact exists_importCycle_of_scan_error hscan

/-- A chase fails only for a cycle of imports or of modes. -/
theorem cases_of_chaseFrom_error {seed : Option ActiveMode} {fault : Fault}
    (h : s.chaseFrom seed = .error fault) :
    (∃ chain, fault = .importCycle chain) ∨ ∃ chain, fault = .modeCycle chain := by
  cases seed with
  | none => simp [chaseFrom] at h
  | some first =>
    obtain ⟨modes, last, -, -, hend⟩ :=
      exists_chaseEnd s [first.name] first [] rfl (List.nodup_singleton _)
    rw [chaseFrom_some] at h
    generalize s.chase [first.name] first = result at h hend
    cases hend with
    | fault hfault =>
      obtain rfl := Except.error.inj h
      exact .inl (exists_importCycle_of_scanAll_error hfault)
    | stable => simp [Except.map] at h
    | back =>
      obtain rfl := Except.error.inj h
      exact .inr ⟨_, rfl⟩

/-- A cascade fails only for a cycle of imports or of modes. -/
theorem cases_of_cascade_error {precedence : ModePrecedence} {live : Option String} {fault : Fault}
    (h : s.cascade precedence live = .error fault) :
    (∃ chain, fault = .importCycle chain) ∨ ∃ chain, fault = .modeCycle chain := by
  unfold cascade at h
  cases hfixed : s.scanAll s.fixedLayers with
  | error e =>
    simp only [hfixed, Except.error.injEq] at h
    exact .inl (exists_importCycle_of_scanAll_error (h ▸ hfixed))
  | ok fixed =>
    simp only [hfixed] at h
    split at h
    · next e hchase =>
      obtain rfl := Except.error.inj h
      exact cases_of_chaseFrom_error hchase
    · simp at h

/-- The file of mode `a` leaves the mode empty, so that its local neighbour redirects to `b`. -/
def localRedirect : Site where
  tree :=
    { nodes := [
        (["w", ".env.a"], .file (Utf8.encode "MODE=") false),
        (["w", ".env.a.local"], .file (Utf8.encode "MODE=b") false),
        (["w", ".env.b"], .file (Utf8.encode "MODE=c\nMODE=b") false)]
      workingDirectory := ["w"] }
  directory := ⟨"."⟩
  scheme := ⟨.after, .after⟩
  modeKey := "MODE"

end Site

end LayeredEnv
