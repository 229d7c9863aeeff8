import LayeredEnv.Session
import Mathlib.Data.List.DropRight

/-!
# What a session keeps

A run of a session is told by its *history*: each step with what it showed.  What is kept after a
run hangs on the part of the history since the last reset only.  There, a resolution is *fresh* if
it looked at the files, which it did if it was forced or if no resolution had succeeded before it.
What is kept is the result of the last fresh one that succeeded.

`Workspace.Tracks` ties what a workspace keeps to a history.  A step preserves it
(`Workspace.Tracks.step`), hence a run does (`Workspace.Tracks.run`).

Main statement: `Workspace.run_keeps_latest_fresh`.
-/

namespace LayeredEnv

/-! ### Histories -/

/-- A step that was taken, and what it showed. -/
structure Event where
  step : Step
  answer : Answer

namespace Event

/-- The result of a resolution that succeeded. -/
def result? (e : Event) : Option Resolution :=
  match e.answer with
  | .resolved (.ok result) => some result
  | _ => none

/-- Whether the session was made to forget. -/
def isReset (e : Event) : Bool :=
  match e.step with
  | .reset => true
  | _ => false

/-- After the earlier events this one is a resolution that looks at the files: it is forced, or no
resolution has succeeded yet. -/
def Fresh (earlier : List Event) (e : Event) : Prop :=
  ∃ r, e.step = .resolve r ∧ (r.force = true ∨ ∀ other ∈ earlier, other.result? = none)

end Event

/-- The events since the last reset, or all of them if there is none. -/
def sinceReset (events : List Event) : List Event :=
  events.rtakeWhile fun e => !e.isReset

/-- The last event that is a fresh resolution which succeeded has this result. -/
def LatestFresh (events : List Event) (result : Resolution) : Prop :=
  ∃ earlier e later, events = earlier ++ e :: later ∧ e.Fresh earlier ∧ e.result? = some result ∧
    ∀ before other after, later = before ++ other :: after →
      other.Fresh (earlier ++ e :: before) → other.result? = none

namespace Workspace

/-- A workspace before its first step, with nothing kept. -/
def opening (tree : FileTree) (env : LiveEnvironment) : Workspace :=
  ⟨tree, { environment := env }⟩

/-- The steps of a run, each with what it showed. -/
def history (w : Workspace) (steps : List Step) : List Event :=
  List.zipWith Event.mk steps (w.run steps).1

/-- What is kept after a run. -/
def keptAfter (w : Workspace) (steps : List Step) : Option Resolution :=
  (w.run steps).2.session.kept

end Workspace

/-- The tree after a step: files are put in and taken out by steps of their own only. -/
def Step.change (tree : FileTree) : Step → FileTree
  | .write path node => tree.put path node
  | .remove path => tree.remove path
  | .reset | .look | .resolve _ => tree

variable {events : List Event} {e : Event} {result : Resolution}

/-! ### One more event -/

theorem sinceReset_append_of_isReset (h : e.isReset = true) :
    sinceReset (events ++ [e]) = [] :=
  List.rtakeWhile_concat_neg _ _ _ (by simp [h])

theorem sinceReset_append (h : e.isReset = false) :
    sinceReset (events ++ [e]) = sinceReset events ++ [e] :=
  List.rtakeWhile_concat_pos _ _ _ (by simp [h])

/-- Events are without a result if those before the last one and the last one are. -/
theorem forall_result?_append_iff :
    (∀ other ∈ events ++ [e], other.result? = none) ↔
      (∀ other ∈ events, other.result? = none) ∧ e.result? = none := by
  rw [List.forall_mem_append, List.forall_mem_singleton]

theorem not_latestFresh_nil : ¬ LatestFresh [] result := by
  rintro ⟨earlier, e, later, hsplit, -⟩
  simp at hsplit

/-- A split of events with one more behind them is at that one or before it. -/
theorem append_singleton_eq_split_iff {earlier later : List Event} {other : Event} :
    events ++ [e] = earlier ++ other :: later ↔
      (events = earlier ∧ e = other ∧ later = []) ∨
        ∃ rest, later = rest ++ [e] ∧ events = earlier ++ other :: rest := by
  rcases List.eq_nil_or_concat later with rfl | ⟨rest, last, rfl⟩
  · simp
  · rw [List.concat_eq_append, ← List.cons_append, ← List.append_assoc, List.append_singleton_inj]
    constructor
    · rintro ⟨rfl, rfl⟩
      exact .inr ⟨rest, rfl, rfl⟩
    · rintro (⟨-, -, hnil⟩ | ⟨rest', hrest, rfl⟩)
      · simp at hnil
      · obtain ⟨rfl, rfl⟩ := List.append_singleton_inj.mp hrest
        exact ⟨rfl, rfl⟩

/-- A fresh resolution that succeeds is the last one. -/
theorem latestFresh_append_of_fresh {given : Resolution} (hfresh : e.Fresh events)
    (hgiven : e.result? = some given) : LatestFresh (events ++ [e]) result ↔ given = result := by
  constructor
  · rintro ⟨earlier, other, later, hsplit, -, hresult, hlater⟩
    rcases append_singleton_eq_split_iff.mp hsplit with ⟨-, rfl, -⟩ | ⟨rest, rfl, rfl⟩
    · exact Option.some.inj (hgiven.symm.trans hresult)
    · have hnone := hlater rest e [] rfl hfresh
      simp [hgiven] at hnone
  · rintro rfl
    exact ⟨events, e, [], rfl, hfresh, hgiven, by simp⟩

/-- Any other event leaves the last one as it is. -/
theorem latestFresh_append_of_stale (hstale : e.Fresh events → e.result? = none) :
    LatestFresh (events ++ [e]) result ↔ LatestFresh events result := by
  constructor
  · rintro ⟨earlier, other, later, hsplit, hfresh, hresult, hlater⟩
    rcases append_singleton_eq_split_iff.mp hsplit with ⟨rfl, rfl, -⟩ | ⟨rest, rfl, rfl⟩
    · simp [hstale hfresh] at hresult
    · refine ⟨earlier, other, rest, rfl, hfresh, hresult, fun before next after hrest => ?_⟩
      exact hlater before next (after ++ [e]) (by simp [hrest])
  · rintro ⟨earlier, other, later, rfl, hfresh, hresult, hlater⟩
    refine ⟨earlier, other, later ++ [e], by simp, hfresh, hresult,
      fun before next after hsplit => ?_⟩
    rcases append_singleton_eq_split_iff.mp hsplit with ⟨rfl, rfl, -⟩ | ⟨rest, -, rfl⟩
    · exact hstale
    · exact hlater before next rest rfl

/-! ### One more step -/

/-- A session answers with what it keeps, unless it keeps nothing or is forced; then it resolves,
and keeps the result if there is one. -/
theorem Session.resolve_cases (s : Session) (tree : FileTree) (r : Request) :
    (∃ kept, s.kept = some kept ∧ r.force = false ∧ s.resolve tree r = (.ok kept, s)) ∨
      ((s.kept = none ∨ r.force = true) ∧
        ((∃ result, r.resolve tree s.environment = .ok result ∧
            s.resolve tree r = (.ok result, { s with kept := some result })) ∨
          ∃ fault, r.resolve tree s.environment = .error fault ∧
            s.resolve tree r = (.error fault, s))) := by
  unfold resolve
  split
  · next kept hkept hforce => exact .inl ⟨kept, hkept, hforce, rfl⟩
  · next hanew =>
    have hlooks : s.kept = none ∨ r.force = true := by
      cases hkept : s.kept with
      | none => exact .inl rfl
      | some kept => exact .inr (Bool.not_eq_false _ |>.mp (hanew kept hkept))
    cases hresolved : r.resolve tree s.environment with
    | ok result => exact .inr ⟨hlooks, .inl ⟨result, rfl, rfl⟩⟩
    | error fault => exact .inr ⟨hlooks, .inr ⟨fault, rfl, rfl⟩⟩

namespace Workspace

variable {w : Workspace}

/-- What a workspace keeps is the result of the last fresh resolution since the last reset that
succeeded, and it keeps nothing exactly if no resolution has succeeded since then. -/
structure Tracks (w : Workspace) (events : List Event) : Prop where
  kept_iff : ∀ result, w.session.kept = some result ↔ LatestFresh (sinceReset events) result
  none_iff : w.session.kept = none ↔ ∀ e ∈ sinceReset events, e.result? = none

/-- Nothing is kept before anything happens. -/
theorem Tracks.opening (tree : FileTree) (env : LiveEnvironment) :
    (Workspace.opening tree env).Tracks [] :=
  ⟨fun _ => by simp [Workspace.opening, sinceReset, not_latestFresh_nil],
    by simp [Workspace.opening, sinceReset]⟩

/-- Forgetting empties the history that counts. -/
theorem Tracks.of_isReset {w' : Workspace} (hreset : e.isReset = true)
    (hkept : w'.session.kept = none) : Tracks w' (events ++ [e]) :=
  ⟨fun _ => by simp [sinceReset_append_of_isReset hreset, hkept, not_latestFresh_nil],
    by simp [sinceReset_append_of_isReset hreset, hkept]⟩

/-- An event without a result changes nothing in what is kept. -/
theorem Tracks.of_no_result {w' : Workspace} (h : w.Tracks events) (hreset : e.isReset = false)
    (hresult : e.result? = none) (hkept : w'.session.kept = w.session.kept) :
    Tracks w' (events ++ [e]) := by
  constructor
  · intro result
    rw [hkept, h.kept_iff, sinceReset_append hreset,
      latestFresh_append_of_stale fun _ => hresult]
  · rw [hkept, h.none_iff, sinceReset_append hreset, forall_result?_append_iff,
      and_iff_left hresult]

/-- A result that was kept already is not fresh, and goes on being kept. -/
theorem Tracks.of_kept {w' : Workspace} (r : Request) (kept : Resolution) (h : w.Tracks events)
    (hstep : e.step = .resolve r) (hforce : r.force = false) (hresult : e.result? = some kept)
    (hbefore : w.session.kept = some kept) (hkept : w'.session.kept = w.session.kept) :
    Tracks w' (events ++ [e]) := by
  have hreset : e.isReset = false := by simp [Event.isReset, hstep]
  have hstale : ¬ e.Fresh (sinceReset events) := by
    rintro ⟨r', hstep', hforce' | hnone⟩
    · obtain rfl : r = r' := Step.resolve.inj (hstep.symm.trans hstep')
      simp [hforce] at hforce'
    · have := h.none_iff.mpr hnone
      simp [hbefore] at this
  constructor
  · intro result
    rw [hkept, h.kept_iff, sinceReset_append hreset,
      latestFresh_append_of_stale fun hfresh => absurd hfresh hstale]
  · rw [hkept, sinceReset_append hreset, forall_result?_append_iff]
    simp [hresult, hbefore]

/-- A result of a resolution that looked at the files is fresh, and is kept. -/
theorem Tracks.of_anew {w' : Workspace} (r : Request) (given : Resolution) (h : w.Tracks events)
    (hstep : e.step = .resolve r) (hlooks : w.session.kept = none ∨ r.force = true)
    (hresult : e.result? = some given) (hkept : w'.session.kept = some given) :
    Tracks w' (events ++ [e]) := by
  have hreset : e.isReset = false := by simp [Event.isReset, hstep]
  have hfresh : e.Fresh (sinceReset events) :=
    ⟨r, hstep, hlooks.symm.imp_right h.none_iff.mp⟩
  constructor
  · intro result
    rw [hkept, sinceReset_append hreset, latestFresh_append_of_fresh hfresh hresult,
      Option.some.injEq]
  · rw [hkept, sinceReset_append hreset, forall_result?_append_iff]
    simp [hresult]

/-- One more step, whatever it is, is tracked by the history with it. -/
theorem Tracks.step (h : w.Tracks events) (step : Step) :
    Tracks (w.step step).2 (events ++ [⟨step, (w.step step).1⟩]) := by
  cases step with
  | write path node => exact h.of_no_result rfl rfl rfl
  | remove path => exact h.of_no_result rfl rfl rfl
  | reset => exact .of_isReset rfl rfl
  | look => exact h.of_no_result rfl rfl rfl
  | resolve r =>
    rcases w.session.resolve_cases w.tree r with ⟨kept, hkept, hforce, hresolve⟩ |
      ⟨hlooks, ⟨result, -, hresolve⟩ | ⟨fault, -, hresolve⟩⟩
    · refine h.of_kept r kept rfl hforce ?_ hkept ?_ <;>
        simp [Workspace.step, hresolve, Event.result?]
    · refine h.of_anew r result rfl hlooks ?_ ?_ <;>
        simp [Workspace.step, hresolve, Event.result?]
    · refine h.of_no_result ?_ ?_ ?_ <;>
        simp [Workspace.step, hresolve, Event.result?, Event.isReset]

/-! ### Runs -/

theorem run_cons (w : Workspace) (first : Step) (rest : List Step) :
    w.run (first :: rest) =
      ((w.step first).1 :: ((w.step first).2.run rest).1, ((w.step first).2.run rest).2) := rfl

/-- A run of steps and further steps goes on from where the first ones led. -/
theorem run_append (w : Workspace) (steps further : List Step) :
    w.run (steps ++ further) =
      ((w.run steps).1 ++ ((w.run steps).2.run further).1, ((w.run steps).2.run further).2) := by
  induction steps generalizing w with
  | nil => rfl
  | cons first rest ih => rw [List.cons_append, run_cons, ih, run_cons, List.cons_append]

/-- A run shows one answer for each step. -/
theorem length_run (w : Workspace) (steps : List Step) :
    (w.run steps).1.length = steps.length := by
  induction steps generalizing w with
  | nil => rfl
  | cons first rest ih => rw [run_cons, List.length_cons, ih, List.length_cons]

theorem history_cons (w : Workspace) (first : Step) (rest : List Step) :
    w.history (first :: rest) =
      ⟨first, (w.step first).1⟩ :: (w.step first).2.history rest := rfl

/-- The tree after a run is the one that the writes and removals make. -/
theorem tree_run (w : Workspace) (steps : List Step) :
    (w.run steps).2.tree = steps.foldl Step.change w.tree := by
  induction steps generalizing w with
  | nil => rfl
  | cons first rest ih =>
    have hfirst : (w.step first).2.tree = Step.change w.tree first := by cases first <;> rfl
    rw [run_cons, ih, hfirst, List.foldl_cons]

/-- A session stays in its live environment. -/
theorem environment_run (w : Workspace) (steps : List Step) :
    (w.run steps).2.session.environment = w.session.environment := by
  induction steps generalizing w with
  | nil => rfl
  | cons first rest ih =>
    rw [run_cons, ih]
    cases first with
    | resolve r =>
      rcases w.session.resolve_cases w.tree r with ⟨kept, -, -, hresolve⟩ |
        ⟨-, ⟨result, -, hresolve⟩ | ⟨fault, -, hresolve⟩⟩ <;>
        simp [Workspace.step, hresolve]
    | write | remove | reset | look => rfl

/-- Steps one after the other are tracked by the history with them. -/
theorem Tracks.run (h : w.Tracks events) (steps : List Step) :
    Tracks (w.run steps).2 (events ++ w.history steps) := by
  induction steps generalizing w events with
  | nil => simpa [Workspace.run, history] using h
  | cons first rest ih =>
    have hrest := ih (h.step first)
    rwa [List.append_assoc, List.singleton_append, ← history_cons] at hrest

/-- The step behind some steps of a run shows what it shows where those lead. -/
theorem getElem?_run (w : Workspace) (earlier later : List Step) (step : Step) :
    (w.run (earlier ++ step :: later)).1[earlier.length]? =
      some ((w.run earlier).2.step step).1 := by
  rw [run_append, run_cons, List.getElem?_append_right (length_run w earlier).le, length_run,
    Nat.sub_self, List.getElem?_cons_zero]

/-- One more step leaves kept what it keeps itself. -/
theorem keptAfter_append_singleton (w : Workspace) (steps : List Step) (step : Step) :
    w.keptAfter (steps ++ [step]) = ((w.run steps).2.step step).2.session.kept := by
  rw [keptAfter, run_append, run_cons]
  rfl

/-- A resolution gets what is kept, or what its request resolves to, and changes nothing in what is
kept if it fails. -/
theorem exists_answer_of_resolve (w : Workspace) (r : Request) :
    ∃ answer, (w.step (.resolve r)).1 = .resolved answer ∧
      (∀ kept, w.session.kept = some kept → r.force = false → answer = .ok kept) ∧
      (w.session.kept = none ∨ r.force = true →
        answer = r.resolve w.tree w.session.environment) ∧
      ∀ fault, answer = .error fault → (w.step (.resolve r)).2.session.kept = w.session.kept := by
  refine ⟨(w.session.resolve w.tree r).1, rfl, ?_⟩
  have hstep : (w.step (.resolve r)).2.session = (w.session.resolve w.tree r).2 := rfl
  rw [hstep]
  rcases w.session.resolve_cases w.tree r with ⟨kept, hkept, hforce, hresolve⟩ |
    ⟨hlooks, ⟨result, hresult, hresolve⟩ | ⟨fault, hfault, hresolve⟩⟩ <;> rw [hresolve]
  · refine ⟨fun kept' hkept' _ => ?_, fun hlooks => ?_, fun _ _ => rfl⟩
    · exact congrArg Except.ok (Option.some.inj (hkept.symm.trans hkept'))
    · simp [hkept, hforce] at hlooks
  · refine ⟨fun kept hkept hforce => ?_, fun _ => hresult.symm, fun fault hfault => ?_⟩
    · simp [hkept, hforce] at hlooks
    · simp at hfault
  · refine ⟨fun kept hkept hforce => ?_, fun _ => hfault.symm, fun _ _ => rfl⟩
    simp [hkept, hforce] at hlooks

/-- What is kept after any steps from the opening on is the result of the last fresh resolution
since the last reset that succeeded, and something is kept exactly if some resolution has succeeded
since then.  Each resolution on the way gets what is kept before it, if something is and it is not
forced, and otherwise resolves its request over the tree that the writes and removals before it
make; and one that fails leaves alone what is kept. -/
theorem run_keeps_latest_fresh (tree : FileTree) (env : LiveEnvironment) (steps : List Step) :
    ((∃ result, (opening tree env).keptAfter steps = some result) ↔
        ∃ e ∈ sinceReset ((opening tree env).history steps), ∃ result, e.result? = some result) ∧
      (∀ result, (opening tree env).keptAfter steps = some result ↔
        LatestFresh (sinceReset ((opening tree env).history steps)) result) ∧
      ∀ earlier r later, steps = earlier ++ .resolve r :: later →
        ∃ answer, ((opening tree env).run steps).1[earlier.length]? = some (.resolved answer) ∧
          (∀ kept, (opening tree env).keptAfter earlier = some kept → r.force = false →
            answer = .ok kept) ∧
          ((opening tree env).keptAfter earlier = none ∨ r.force = true →
            answer = r.resolve (earlier.foldl Step.change tree) env) ∧
          ∀ fault, answer = .error fault →
            (opening tree env).keptAfter (earlier ++ [.resolve r]) =
              (opening tree env).keptAfter earlier := by
  have htracks := (Tracks.opening tree env).run steps
  rw [List.nil_append] at htracks
  refine ⟨?_, htracks.kept_iff, ?_⟩
  · have hsome := not_congr htracks.none_iff
    simpa only [keptAfter, not_forall, exists_prop, ← ne_eq, Option.ne_none_iff_exists'] using hsome
  · rintro earlier r later rfl
    obtain ⟨answer, hanswer, hkeeps, hlooks, hfails⟩ :=
      exists_answer_of_resolve ((opening tree env).run earlier).2 r
    rw [tree_run, environment_run] at hlooks
    refine ⟨answer, ?_, hkeeps, hlooks, fun fault hfault => ?_⟩
    · rw [getElem?_run, hanswer]
    · rw [keptAfter_append_singleton]
      exact hfails fault hfault

end Workspace

end LayeredEnv
