import LayeredEnv.Proofs.ResolvedNames
import LayeredEnv.Shell.Launch

/-!
# What the actions have in common

All actions resolve the same request, and none of them goes on without a resolution.  The actions
that only tell something succeed exactly if there is one.  To run a command, the program of the
command has to be found as well; then the path that was found is the one thing that is handed over
to be started, in an environment in which the resolved variables are on top of the inherited ones,
and the code of whatever was started by that is passed on.

What an action starts is not read off its definition: an invocation is started if it makes a
difference to the outcome what comes of that invocation (`CommandLine.Starts`).  An invocation names
a path, and which file that path comes to is up to the `Launcher`.  If the path has a slash, an
operating system takes it for the file that was found.  If it has none, as where the search path has
an empty text in it, it is looked for once more in the search path of the new process, and may come
to another file.

Main statement: `CommandLine.actions_agree`.
-/

namespace LayeredEnv

namespace Exit

/-- Only of a process that ended with zero is zero passed on. -/
theorem passedOn_status_eq_zero_iff {e : Exit} : passedOn e.status = 0 ↔ e = .code 0 := by
  rw [passedOn_eq_zero_iff]
  cases e <;> simp [status]

/-- A code that fits is passed on as it is. -/
theorem passedOn_status_code {n : Nat} (h : n ≤ 255) : passedOn (code n).status = n := by
  have hlow : 0 ≤ (code n).status := by simp [status]
  have hhigh : (code n).status ≤ 255 := by
    simp only [status]
    omega
  exact Int.ofNat.inj (passedOn_of_le hlow hhigh)

end Exit

namespace Command

/-- The program of a command, which is looked for in the search path that is resolved, or else in
the inherited one. -/
def program? (tree : FileTree) (inherited : EnvironmentBlock) (command : String)
    (added : List (String × String)) : Option Path :=
  find? tree command (KeyMap.find? searchVariable added)
    (KeyMap.find? searchVariable inherited.found)

/-- How the program of a command is started. -/
def invocation (inherited : EnvironmentBlock) (arguments : List String)
    (added : List (String × String)) (program : Path) : Invocation where
  program := program
  arguments := arguments
  environment := childEnvironment inherited added
  byShell := (KeyMap.find? searchVariable added).isSome && !program.hasSlash

variable {launch : Launcher} {tree : FileTree} {inherited : EnvironmentBlock} {command : String}
  {arguments : List String} {added : List (String × String)}

/-- A command without a program is not run. -/
theorem run_of_program?_eq_none (h : program? tree inherited command added = none) :
    run launch tree inherited command arguments added = .error (.commandNotFound command) := by
  unfold program? at h
  simp only [run, h]

/-- A command with a program comes to what the program comes to. -/
theorem run_of_program? {program : Path}
    (h : program? tree inherited command added = some program) :
    run launch tree inherited command arguments added =
      match launch tree (invocation inherited arguments added program) with
      | .ok outcome => .ok outcome
      | .error e => .error (launchFault program e) := by
  unfold program? at h
  simp only [run, h]
  rfl

end Command

namespace CommandLine

variable {launch launch' : Launcher} {tree : FileTree} {environment : EnvironmentBlock}
  {f : Flags} {action : Action} {command : String} {arguments : List String} {r : Resolution}
  {i : Invocation}

/-! ### One resolution for all actions -/

/-- The project file loads, and what it and the flags ask for is resolved. -/
def Flags.Resolves (f : Flags) (tree : FileTree) (environment : EnvironmentBlock)
    (r : Resolution) : Prop :=
  ∃ p, f.loadProjectFile tree = .ok p ∧
    (f.apply (p.apply { directory := f.directory })).resolve tree (.ofBlock environment) = .ok r

theorem Flags.resolves_iff :
    f.Resolves tree environment r ↔
      ∃ request, f.request tree = .ok request ∧
        request.resolve tree (.ofBlock environment) = .ok r := by
  constructor
  · rintro ⟨p, hfile, hresult⟩
    exact ⟨_, request_eq_ok_iff.mpr ⟨p, hfile, rfl⟩, hresult⟩
  · rintro ⟨request, hrequest, hresult⟩
    obtain ⟨p, hfile, rfl⟩ := request_eq_ok_iff.mp hrequest
    exact ⟨p, hfile, hresult⟩

/-- There is at most one resolution. -/
theorem Flags.Resolves.unique {r' : Resolution} (h : f.Resolves tree environment r)
    (h' : f.Resolves tree environment r') : r = r' := by
  obtain ⟨p, hfile, hresult⟩ := h
  obtain ⟨p', hfile', hresult'⟩ := h'
  obtain rfl := Except.ok.inj (hfile.symm.trans hfile')
  exact Except.ok.inj (hresult.symm.trans hresult')

/-- The resolved keys have names that survive in the environment of a child. -/
theorem Flags.Resolves.isName (h : f.Resolves tree environment r) :
    ∀ p ∈ r.environment, EnvironmentBlock.IsName p.1 := by
  obtain ⟨request, hrequest, hresult⟩ := Flags.resolves_iff.mp h
  intro p hp
  refine Flags.isName_of_resolve hrequest hresult p.1 ?_
  rw [← r.keys_environment]
  exact List.mem_map_of_mem hp

/-- With a resolution an action does with it what is asked for. -/
theorem perform_of_resolves (h : f.Resolves tree environment r) :
    perform launch tree environment ⟨f, action⟩ = finish launch tree environment r action := by
  obtain ⟨request, hrequest, hresult⟩ := Flags.resolves_iff.mp h
  simp only [perform, hrequest, hresult]

/-- Without a resolution every action fails, and whatever programs would do makes no difference. -/
theorem exists_failure_of_not_resolves (h : ¬ ∃ r, f.Resolves tree environment r)
    (action : Action) :
    ∃ text, ∀ launch, perform launch tree environment ⟨f, action⟩ = ended tree 1 "" text := by
  cases hrequest : f.request tree with
  | error failure => exact ⟨failure.text, fun launch => by simp only [perform, hrequest, failed]⟩
  | ok request =>
    cases hresult : request.resolve tree (.ofBlock environment) with
    | ok r => exact absurd ⟨r, Flags.resolves_iff.mpr ⟨request, hrequest, hresult⟩⟩ h
    | error fault =>
      obtain ⟨text, htext⟩ : ∃ text, unresolved tree fault action = ended tree 1 "" text := by
        cases action with
        | check => cases fault <;> exact ⟨_, rfl⟩
        | print format sources => exact ⟨_, rfl⟩
        | files => exact ⟨_, rfl⟩
        | run command arguments => exact ⟨_, rfl⟩
      exact ⟨text, fun launch => by simp only [perform, hrequest, hresult, htext]⟩

/-- The actions that only tell something end well, and whatever programs would do makes no
difference. -/
theorem exists_told_of_resolves (h : f.Resolves tree environment r)
    (hrun : ∀ command arguments, action ≠ .run command arguments) :
    ∃ text, ∀ launch, perform launch tree environment ⟨f, action⟩ = ended tree 0 text "" := by
  cases action with
  | print format sources => exact ⟨_, fun launch => perform_of_resolves h⟩
  | files => exact ⟨_, fun launch => perform_of_resolves h⟩
  | check => exact ⟨_, fun launch => perform_of_resolves h⟩
  | run command arguments => exact absurd rfl (hrun command arguments)

/-! ### What is started -/

/-- An invocation is started by an action if the outcome may differ where only what comes of that
invocation differs. -/
def Starts (tree : FileTree) (environment : EnvironmentBlock) (a : Arguments) (i : Invocation) :
    Prop :=
  ∃ launch launch' : Launcher, (∀ tree' j, j ≠ i → launch tree' j = launch' tree' j) ∧
    perform launch tree environment a ≠ perform launch' tree environment a

/-- Nothing is started if whatever programs would do makes no difference. -/
theorem not_starts_of_forall {a : Arguments} {outcome : Outcome}
    (h : ∀ launch, perform launch tree environment a = outcome) (i : Invocation) :
    ¬ Starts tree environment a i := by
  rintro ⟨launch, launch', -, hne⟩
  exact hne ((h launch).trans (h launch').symm)

/-- A command that is run comes to what its program comes to, with the code passed on. -/
theorem perform_run_of_program? {program : Path} (h : f.Resolves tree environment r)
    (hprogram : Command.program? tree environment command r.environment = some program) :
    perform launch tree environment ⟨f, .run command arguments⟩ =
      match launch tree (Command.invocation environment arguments r.environment program) with
      | .ok outcome => { outcome with exit := .code (Exit.passedOn outcome.exit.status) }
      | .error e =>
        failed tree ⟨"Failed to execute: " ++ command, Command.launchFault program e⟩ := by
  rw [perform_of_resolves h]
  simp only [finish, Command.run_of_program? hprogram]
  cases launch tree (Command.invocation environment arguments r.environment program) <;> rfl

/-- A command without a program is not run. -/
theorem perform_run_of_program?_eq_none (h : f.Resolves tree environment r)
    (hprogram : Command.program? tree environment command r.environment = none)
    (arguments : List String) (launch : Launcher) :
    perform launch tree environment ⟨f, .run command arguments⟩ =
      failed tree ⟨"Failed to execute: " ++ command, .commandNotFound command⟩ := by
  rw [perform_of_resolves h]
  simp only [finish, Command.run_of_program?_eq_none hprogram]

/-- The program of a command that is run is started: the outcome tells its code. -/
theorem starts_invocation {program : Path} (h : f.Resolves tree environment r)
    (hprogram : Command.program? tree environment command r.environment = some program)
    (arguments : List String) :
    Starts tree environment ⟨f, .run command arguments⟩
      (Command.invocation environment arguments r.environment program) := by
  classical
  let invocation := Command.invocation environment arguments r.environment program
  refine ⟨fun _ _ => .ok { exit := .code 0, tree },
    fun _ j => .ok { exit := .code (if j = invocation then 1 else 0), tree }, ?_, ?_⟩
  · intro _ j hother
    simp [invocation, hother]
  · rw [perform_run_of_program? h hprogram, perform_run_of_program? h hprogram]
    simp [invocation, Exit.passedOn, Exit.status]

/-- Nothing is started without a resolution. -/
theorem Starts.exists_resolves (h : Starts tree environment ⟨f, action⟩ i) :
    ∃ r, f.Resolves tree environment r := by
  by_contra hresolves
  obtain ⟨text, hsame⟩ := exists_failure_of_not_resolves hresolves action
  exact not_starts_of_forall hsame i h

/-- Nothing is started but by running a command. -/
theorem Starts.exists_run (h : Starts tree environment ⟨f, action⟩ i) :
    ∃ command arguments, action = .run command arguments := by
  by_contra hrun
  have htells : ∀ command arguments, action ≠ .run command arguments := by
    intro command arguments haction
    exact hrun ⟨command, arguments, haction⟩
  obtain ⟨r, hresolves⟩ := h.exists_resolves
  obtain ⟨text, hsame⟩ := exists_told_of_resolves hresolves htells
  exact not_starts_of_forall hsame i h

/-- Running a command starts nothing but its program. -/
theorem Starts.exists_program (h : Starts tree environment ⟨f, .run command arguments⟩ i)
    (hresolves : f.Resolves tree environment r) :
    ∃ program, Command.program? tree environment command r.environment = some program ∧
      i = Command.invocation environment arguments r.environment program := by
  cases hprogram : Command.program? tree environment command r.environment with
  | none =>
    have hsame := perform_run_of_program?_eq_none hresolves hprogram arguments
    exact absurd h (not_starts_of_forall hsame i)
  | some program =>
    refine ⟨program, rfl, ?_⟩
    -- of any other invocation the outcome tells nothing
    obtain ⟨launch, launch', hagree, hne⟩ := h
    by_contra hother
    apply hne
    rw [perform_run_of_program? hresolves hprogram, hagree tree _ (Ne.symm hother),
      perform_run_of_program? hresolves hprogram]

/-- What is started is the program of a command that is run, once there is a resolution. -/
theorem starts_iff :
    Starts tree environment ⟨f, action⟩ i ↔
      ∃ command arguments r program, action = .run command arguments ∧
        f.Resolves tree environment r ∧
        Command.program? tree environment command r.environment = some program ∧
        i = Command.invocation environment arguments r.environment program := by
  constructor
  · intro h
    obtain ⟨r, hresolves⟩ := h.exists_resolves
    obtain ⟨command, arguments, rfl⟩ := h.exists_run
    obtain ⟨program, hprogram, hi⟩ := h.exists_program hresolves
    exact ⟨command, arguments, r, program, rfl, hresolves, hprogram, hi⟩
  · rintro ⟨command, arguments, r, program, rfl, hresolves, hprogram, rfl⟩
    exact starts_invocation hresolves hprogram arguments

/-! ### The code of an action -/

/-- The actions that only tell something succeed exactly if there is a resolution. -/
theorem exit_eq_zero_iff_resolves (hrun : ∀ command arguments, action ≠ .run command arguments) :
    (perform launch tree environment ⟨f, action⟩).exit = .code 0 ↔
      ∃ r, f.Resolves tree environment r := by
  by_cases hresolves : ∃ r, f.Resolves tree environment r
  · obtain ⟨text, htold⟩ := exists_told_of_resolves hresolves.choose_spec hrun
    simp [htold, ended, hresolves]
  · obtain ⟨text, hfails⟩ := exists_failure_of_not_resolves hresolves action
    simp [hfails, ended, hresolves]

/-- If a command starts something, its code is that of what was started, passed on; it is one if
that could not be started. -/
theorem exit_of_starts (h : Starts tree environment ⟨f, .run command arguments⟩ i)
    (launch : Launcher) :
    (perform launch tree environment ⟨f, .run command arguments⟩).exit =
      .code (match launch tree i with
        | .ok outcome => Exit.passedOn outcome.exit.status
        | .error _ => 1) := by
  obtain ⟨command', arguments', r, program, haction, hresolves, hprogram, rfl⟩ := starts_iff.mp h
  obtain ⟨rfl, rfl⟩ := Action.run.inj haction
  rw [perform_run_of_program? hresolves hprogram]
  cases launch tree (Command.invocation environment arguments r.environment program) <;> rfl

/-- If a command starts nothing, it fails. -/
theorem exit_of_not_starts
    (h : ∀ i, ¬ Starts tree environment ⟨f, .run command arguments⟩ i) (launch : Launcher) :
    (perform launch tree environment ⟨f, .run command arguments⟩).exit = .code 1 := by
  by_cases hresolves : ∃ r, f.Resolves tree environment r
  · obtain ⟨r, hr⟩ := hresolves
    cases hprogram : Command.program? tree environment command r.environment with
    | none =>
      rw [perform_run_of_program?_eq_none hr hprogram]
      rfl
    | some program => exact absurd (starts_invocation hr hprogram arguments) (h _)
  · obtain ⟨text, hfails⟩ := exists_failure_of_not_resolves hresolves (.run command arguments)
    rw [hfails]
    rfl

/-- A command that starts what can be started ends with the code of that, passed on. -/
theorem code_eq_passedOn {code : Nat} {outcome : Outcome}
    (hexit : (perform launch tree environment ⟨f, .run command arguments⟩).exit = .code code)
    (h : Starts tree environment ⟨f, .run command arguments⟩ i)
    (hlaunch : launch tree i = .ok outcome) : code = Exit.passedOn outcome.exit.status := by
  have hcode := exit_of_starts h launch
  rw [hexit, hlaunch] at hcode
  exact Exit.code.inj hcode

/-- Running a command always ends with a code that fits. -/
theorem exists_code_lt (launch : Launcher) (tree : FileTree) (environment : EnvironmentBlock)
    (f : Flags) (command : String) (arguments : List String) :
    ∃ code < 256,
      (perform launch tree environment ⟨f, .run command arguments⟩).exit = .code code := by
  by_cases hstarts : ∃ i, Starts tree environment ⟨f, .run command arguments⟩ i
  · obtain ⟨i, hi⟩ := hstarts
    refine ⟨_, ?_, exit_of_starts hi launch⟩
    cases launch tree i with
    | error e => exact (by decide : 1 < 256)
    | ok outcome => exact Exit.passedOn_lt _
  · exact ⟨1, by decide, exit_of_not_starts (not_exists.mp hstarts) launch⟩

/-- A command only succeeds if what it started succeeded. -/
theorem exists_started_of_exit_eq_zero
    (hexit : (perform launch tree environment ⟨f, .run command arguments⟩).exit = .code 0) :
    ∃ i outcome, Starts tree environment ⟨f, .run command arguments⟩ i ∧
      launch tree i = .ok outcome ∧ outcome.exit = .code 0 := by
  by_cases hstarts : ∃ i, Starts tree environment ⟨f, .run command arguments⟩ i
  · obtain ⟨i, hi⟩ := hstarts
    cases hlaunch : launch tree i with
    | error e =>
      have hcode := exit_of_starts hi launch
      simp [hexit, hlaunch] at hcode
    | ok outcome =>
      have hpassed := code_eq_passedOn hexit hi hlaunch
      exact ⟨i, outcome, hi, hlaunch, Exit.passedOn_status_eq_zero_iff.mp hpassed.symm⟩
  · have hfails := exit_of_not_starts (not_exists.mp hstarts) launch
    simp [hexit] at hfails

/-- The actions that only tell something succeed exactly if the project file loads and the request
is resolved, and no other action than running a command starts anything.  That one starts something
only with a resolution, and what it hands over to be started is the path that was found for the
command, in an environment that has the resolved variables on top of the inherited ones.  It ends
with zero exactly if what it started did, and with any other code that fits if what it started ended
with that one. -/
theorem actions_agree (launch : Launcher) (tree : FileTree) (environment : EnvironmentBlock)
    (f : Flags) :
    (∀ action, (∀ command arguments, action ≠ .run command arguments) →
        ((perform launch tree environment ⟨f, action⟩).exit = .code 0 ↔
          ∃ r, f.Resolves tree environment r)) ∧
      (∀ action i, Starts tree environment ⟨f, action⟩ i →
        ∃ command r, action = .run command i.arguments ∧ f.Resolves tree environment r ∧
          Command.program? tree environment command r.environment = some i.program ∧
          EnvironmentBlock.OnTop environment r.environment i.environment) ∧
      ∀ command arguments, ∃ code < 256,
        (perform launch tree environment ⟨f, .run command arguments⟩).exit = .code code ∧
        (code = 0 ↔ ∃ i outcome, Starts tree environment ⟨f, .run command arguments⟩ i ∧
          launch tree i = .ok outcome ∧ outcome.exit = .code 0) ∧
        ∀ i outcome n, Starts tree environment ⟨f, .run command arguments⟩ i →
          launch tree i = .ok outcome → outcome.exit = .code n → 1 ≤ n → n ≤ 255 → code = n := by
  refine ⟨?_, ?_, ?_⟩
  · intro action hrun
    exact exit_eq_zero_iff_resolves hrun
  · intro action i hstarts
    obtain ⟨command, arguments, r, program, rfl, hresolves, hprogram, rfl⟩ := starts_iff.mp hstarts
    exact ⟨command, r, rfl, hresolves, hprogram,
      Command.onTop_childEnvironment r.nodup_environment hresolves.isName⟩
  · intro command arguments
    obtain ⟨code, hlt, hexit⟩ := exists_code_lt launch tree environment f command arguments
    refine ⟨code, hlt, hexit, ⟨?_, ?_⟩, ?_⟩
    · intro hzero
      exact exists_started_of_exit_eq_zero (hzero ▸ hexit)
    · rintro ⟨i, outcome, hi, hlaunch, hchild⟩
      rw [code_eq_passedOn hexit hi hlaunch]
      exact Exit.passedOn_status_eq_zero_iff.mpr hchild
    · intro i outcome n hi hlaunch hchild _ hfits
      rw [code_eq_passedOn hexit hi hlaunch, hchild]
      exact Exit.passedOn_status_code hfits

/-- A script that ends with the code that it is told to.  The base file puts its directory into the
search path and tells it the code. -/
def toolTree : FileTree :=
  Shell.Installed.install
    { nodes := [
        (["opt", "tool"], .file (Utf8.encode "#!/bin/sh\nexit $CODE\n") true),
        (["w", ".env"], .file (Utf8.encode "PATH=/opt\nCODE=7") false)]
      workingDirectory := ["w"] }

/-- A process that was started with two variables. -/
def toolEnvironment : EnvironmentBlock := [("CODE", "0"), ("HOME", "/")]

/-- The script is found in the search path of the base file.  The shell runs it with the code of the
base file and not with the inherited one, and that code is passed on. -/
theorem actions_agree_tool :
    ∃ i, Starts toolTree toolEnvironment ⟨{}, .run "tool" ["x"]⟩ i ∧ i.program = ⟨"/opt/tool"⟩ ∧
      i.arguments = ["x"] ∧ (∀ value, ("CODE", value) ∈ i.environment.found ↔ value = "7") ∧
      (∃ value, ("HOME", value) ∈ i.environment.found) ∧
      (perform Shell.launch toolTree toolEnvironment ⟨{}, .run "tool" ["x"]⟩).exit = .code 7 := by
  have hvariables : ((Flags.request {} toolTree).toOption.bind fun request =>
      (request.resolve toolTree (.ofBlock toolEnvironment)).toOption.map Resolution.environment) =
      some [("CODE", "7"), ("HOME", "/"), ("PATH", "/opt")] := by
    decide +kernel
  have hprogram : Command.program? toolTree toolEnvironment "tool"
      [("CODE", "7"), ("HOME", "/"), ("PATH", "/opt")] = some ⟨"/opt/tool"⟩ := by
    decide +kernel
  have hruns : (Shell.launch toolTree (Command.invocation toolEnvironment ["x"]
      [("CODE", "7"), ("HOME", "/"), ("PATH", "/opt")] ⟨"/opt/tool"⟩)).toOption.map Outcome.exit =
      some (.code 7) := by
    decide +kernel
  obtain ⟨request, hrequest, hvariables⟩ := Option.bind_eq_some_iff.mp hvariables
  obtain ⟨r, hresult, henvironment⟩ := Option.map_eq_some_iff.mp hvariables
  rw [toOption_eq_some_iff] at hrequest hresult
  have hresolves : Flags.Resolves {} toolTree toolEnvironment r :=
    Flags.resolves_iff.mpr ⟨request, hrequest, hresult⟩
  have hstarts := starts_invocation hresolves (henvironment ▸ hprogram) ["x"]
  rw [← henvironment] at hruns
  obtain ⟨outcome, hlaunch, hends⟩ := Option.map_eq_some_iff.mp hruns
  rw [toOption_eq_some_iff] at hlaunch
  obtain ⟨-, hstarted, hrun⟩ := actions_agree Shell.launch toolTree toolEnvironment {}
  obtain ⟨command, r', -, hresolves', -, hontop⟩ := hstarted _ _ hstarts
  obtain rfl := hresolves'.unique hresolves
  obtain ⟨code, -, hexit, -, hpassed⟩ := hrun "tool" ["x"]
  obtain rfl := hpassed _ _ 7 hstarts hlaunch hends (by decide) (by decide)
  refine ⟨_, hstarts, rfl, rfl, ?_, ?_, hexit⟩
  · intro value
    exact hontop.own "CODE" "7" (by simp [henvironment]) value
  · exact hontop.kept "HOME" "/" (by decide)

end CommandLine

end LayeredEnv
