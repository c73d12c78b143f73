/-
Module: CommandShell.Proofs.StartedProgram
Purpose: Which program a line starts, with which arguments, and where its output goes.
Trusted boundary: none
Main exports:
  attempts, Machine.CanOpen, Launch.Plan.attempts_run, World.Launches,
  Session.attempts_executeLine_cases, Attempt.IsFor, Session.executeLine_starts
-/
import CommandShell.Proofs.Candidates
import CommandShell.Proofs.CommandCases
import CommandShell.Proofs.Tokens
import CommandShell.Session

namespace CommandShell

/-- The attempt to start a program that an event is. -/
def Event.attempt? : Event → Option Attempt
  | .attempted attempt => some attempt
  | _ => none

/-- The attempts to start a program, in order. -/
def attempts (events : List Event) : List Attempt :=
  events.filterMap Event.attempt?

@[simp] theorem attempts_nil : attempts [] = [] := rfl

@[simp] theorem attempts_append (one other : List Event) :
    attempts (one ++ other) = attempts one ++ attempts other :=
  List.filterMap_append ..

@[simp] theorem attempts_cons (event : Event) (events : List Event) :
    attempts (event :: events) = event.attempt?.toList ++ attempts events := by
  cases found : event.attempt? with
  | none => exact List.filterMap_cons_none found
  | some attempt => exact List.filterMap_cons_some found

/-- Looking at candidates attempts nothing. -/
@[simp] theorem attempts_probes (candidates : List String) :
    attempts (candidates.map Event.probed) = [] := by
  induction candidates with
  | nil => rfl
  | cons candidate candidates ih => simp [Event.attempt?, ih]

/-! ### Opening targets one after the other -/

/-- The targets can be opened in this order, each on the files that the ones before leave. -/
def Machine.CanOpen (mode : Mode) : Machine → List Path → Prop
  | _, [] => True
  | machine, path :: rest =>
      ∃ location next, machine.openTarget mode path = .ok (location, next) ∧
        next.CanOpen mode rest

namespace Launch

/-- No connection fails if and only if the targets can be opened one after the other. -/
theorem failure_openTargets_eq_none_iff {mode : Mode} {machine : Machine} {wiring : Wiring}
    {setups : List Setup} :
    (openTargets mode machine wiring setups).failure = none ↔
      machine.CanOpen mode (setups.map Setup.path) := by
  induction setups generalizing machine wiring with
  | nil => exact ⟨fun _ => trivial, fun _ => rfl⟩
  | cons setup rest ih =>
      rw [openTargets, List.map_cons, Machine.CanOpen]
      cases opened : machine.openTarget mode setup.path with
      | error cause => simp
      | ok made =>
          obtain ⟨location, next⟩ := made
          dsimp only
          rw [ih]
          constructor
          · intro rest
            exact ⟨location, next, rfl, rest⟩
          · intro opens
            obtain ⟨_, _, same, rest⟩ := opens
            cases same
            exact rest

/-- Once a pair of targets is open, the streams of the program lead to them. -/
theorem wiring_openTargets_pair {mode : Mode} {machine : Machine} {output error : Path}
    (opens : machine.CanOpen mode [output, error]) :
    let wiring := (openTargets mode machine {} [⟨.output, output⟩, ⟨.error, error⟩]).wiring
    wiring.output.map OpenFile.path = some output ∧
      wiring.error.map OpenFile.path = some error := by
  obtain ⟨_, next, first, _, _, second, _⟩ := opens
  simp only [openTargets, first, second]
  exact ⟨rfl, rfl⟩

/-- Passing on what a program writes attempts nothing. -/
@[simp] theorem attempts_deliver (wiring : Wiring) (machine : Machine) (offset : Stream → Nat)
    (writes : List (Stream × Bytes)) :
    attempts (deliver wiring machine offset writes).events = [] := by
  apply List.filterMap_eq_nil_iff.mpr
  intro event member
  obtain ⟨stream, bytes, rfl⟩ := of_mem_deliver member
  rfl

/-- A launch makes its attempt as soon as all targets are open, and never another. -/
theorem Plan.attempts_run (plan : Plan) (mode : Mode) (machine : Machine) :
    attempts (plan.run mode machine).events =
      match (plan.opening mode machine).failure with
      | some _ => []
      | none => [plan.attempt (plan.opening mode machine).wiring] := by
  have cases := plan.run_cases mode machine
  generalize plan.run mode machine = launched at cases
  cases cases with
  | closed failed => rw [failed]; rfl
  | started opened found ran delivered =>
      rw [opened, ← delivered]
      simp [Event.attempt?]
  | unstarted opened missed inherited => rw [opened]; rfl
  | diverted opened missed redirected told => rw [opened]; rfl
  | untold opened missed redirected untold => rw [opened]; rfl

end Launch

namespace Redirection.Parsed

variable {parsed : Parsed} {program : String}

/-- The paths of the targets, in the order they are opened. -/
def targetPaths (parsed : Parsed) : List Path :=
  match parsed.targets with
  | none => []
  | some targets => [bytesOf targets.output, bytesOf targets.error]

/-- The attempt for a program and the words of its command. -/
def attempt (parsed : Parsed) (program : String) : Attempt where
  program := bytesOf program
  arguments := parsed.words.tail
  output := parsed.targets.map fun targets => bytesOf targets.output
  error := parsed.targets.map fun targets => bytesOf targets.error

/-- The plan of a command connects its streams to the targets of the clause, in order. -/
theorem path_setups_plan :
    (parsed.plan program).setups.map Launch.Setup.path = parsed.targetPaths := by
  rcases parsed with ⟨words, _ | targets⟩ <;> rfl

/-- Once its targets are open, the plan of a command makes the attempt for the command. -/
theorem attempt_plan {mode : Mode} {machine : Machine}
    (opens : machine.CanOpen mode parsed.targetPaths) :
    (parsed.plan program).attempt ((parsed.plan program).opening mode machine).wiring =
      parsed.attempt program := by
  rcases parsed with ⟨words, _ | targets⟩
  · rfl
  · obtain ⟨output, error⟩ := Launch.wiring_openTargets_pair opens
    exact congr (congrArg (Attempt.mk (bytesOf program) words.tail) output) error

/-- The connections of a command are all made if and only if its targets can be opened in order. -/
theorem failure_opening_plan_iff {mode : Mode} {machine : Machine} :
    ((parsed.plan program).opening mode machine).failure = none ↔
      machine.CanOpen mode parsed.targetPaths := by
  rw [Launch.Plan.opening, Launch.failure_openTargets_eq_none_iff, path_setups_plan]

end Redirection.Parsed

namespace World

/-- Judging how a launch went adds no attempt to those before it and in it. -/
theorem attempts_afterLaunch (world : World) (command : String) (earlier : List Event)
    (launched : Launch.Launched) :
    attempts (world.afterLaunch command earlier launched).events =
      attempts earlier ++ attempts launched.events := by
  unfold afterLaunch
  dsimp only
  split
  case h_1 => exact attempts_append _ _
  case h_2 status _ =>
    dsimp only
    split <;> simp [Event.attempt?]

/-- The tokens call no built-in command, the grammar accepts all of them, and the name resolves. -/
structure Prepares (world : World) (settings : Settings) (name : String) (rest : List String)
    (parsed : Redirection.Parsed) (program : String) : Prop where
  external : Builtin.ofName? name = none
  accepted : settings.redirection.Accepts (name :: rest) parsed
  resolved : (world.resolution settings name).result = .ok program

/-- All goes well that has to before a program is started: the targets can be opened too. -/
structure Launches (world : World) (settings : Settings) (name : String) (rest : List String)
    (parsed : Redirection.Parsed) (program : String) : Prop
    extends world.Prepares settings name rest parsed program where
  opens : world.machine.CanOpen settings.targetMode parsed.targetPaths

variable {world : World} {settings : Settings} {name program : String} {rest : List String}
  {parsed : Redirection.Parsed}

/-- A command whose launch comes about makes one attempt, the one it asks for. -/
theorem attempts_runProgram_of (launches : world.Launches settings name rest parsed program) :
    attempts (world.runProgram settings (name :: rest)).events = [parsed.attempt program] := by
  have cases := world.runProgram_cases settings name rest
  generalize world.runProgram settings (name :: rest) = effect at cases
  cases cases with
  | refused refused =>
      rw [Redirection.Rules.parse_eq_ok_iff.mpr launches.accepted] at refused
      cases refused
  | unresolved accepted unresolved =>
      rw [launches.resolved] at unresolved
      cases unresolved
  | launched accepted resolved =>
      rw [Redirection.Rules.parse_eq_ok_iff.mpr launches.accepted] at accepted
      rw [launches.resolved] at resolved
      cases accepted
      cases resolved
      rw [attempts_afterLaunch, Launch.Plan.attempts_run,
        Redirection.Parsed.failure_opening_plan_iff.mpr launches.opens]
      simp [Event.attempt?, Redirection.Parsed.attempt_plan launches.opens]

/-- Tokens that launch no program make no attempt. -/
theorem attempts_runProgram_eq_nil_or (world : World) (settings : Settings) (rest : List String)
    (external : Builtin.ofName? name = none) :
    attempts (world.runProgram settings (name :: rest)).events = [] ∨
      ∃ parsed program, world.Launches settings name rest parsed program := by
  have cases := world.runProgram_cases settings name rest
  generalize world.runProgram settings (name :: rest) = effect at cases
  cases cases with
  | refused refused => exact .inl rfl
  | unresolved accepted unresolved => exact .inl (attempts_probes _)
  | @launched parsed program accepted resolved =>
      rw [attempts_afterLaunch, Launch.Plan.attempts_run]
      cases failed :
        ((parsed.plan program).opening settings.targetMode world.machine).failure with
      | some failure => exact .inl (by simp [Event.attempt?])
      | none =>
          have opens := Redirection.Parsed.failure_opening_plan_iff.mp failed
          have grammar := Redirection.Rules.parse_eq_ok_iff.mp accepted
          exact .inr ⟨parsed, program, ⟨external, grammar, resolved⟩, opens⟩

/-- No built-in command attempts to start a program. -/
theorem attempts_builtin (builtin : Builtin) (arguments : List String) :
    attempts (builtin.perform world arguments).events = [] := by
  apply List.filterMap_eq_nil_iff.mpr
  intro event member
  obtain ⟨place, rfl⟩ := moved_of_mem_builtin member
  rfl

end World

namespace Session

/-- The attempts of a command are made by what it does to the world; printing makes none. -/
theorem attempts_perform (session : Session) (tokens : List String) :
    attempts (session.perform tokens).events =
      attempts (session.world.perform session.settings tokens).events := by
  unfold perform
  dsimp only
  split
  · rfl
  · simp [Event.attempt?]

/-- A session adds no attempt to those of its commands. -/
theorem attempts_executeLine (session : Session) (line : String) :
    attempts (session.executeLine line).events =
      attempts (session.world.perform session.settings (tokenize line)).events := by
  have cases := session.executeLine_cases line
  generalize session.executeLine line = executed at cases
  cases cases with
  | blank blank => rw [blank]; rfl
  | succeeded => simp [attempts_perform, Event.attempt?]
  | failed => simp [attempts_perform, Event.attempt?, report]

/-- A line makes the one attempt of the command it launches, or launches none and makes none. -/
theorem attempts_executeLine_cases (session : Session) (line : String) :
    (attempts (session.executeLine line).events = [] ∧
      ¬ ∃ name rest parsed program, tokenize line = name :: rest ∧
        session.world.Launches session.settings name rest parsed program) ∨
    ∃ name rest parsed program, tokenize line = name :: rest ∧
      session.world.Launches session.settings name rest parsed program ∧
      attempts (session.executeLine line).events = [parsed.attempt program] := by
  rw [attempts_executeLine]
  by_cases launches : ∃ name rest parsed program, tokenize line = name :: rest ∧
      session.world.Launches session.settings name rest parsed program
  · obtain ⟨name, rest, parsed, program, tokens, launches⟩ := launches
    refine .inr ⟨name, rest, parsed, program, tokens, launches, ?_⟩
    rw [tokens, World.perform, launches.external]
    exact World.attempts_runProgram_of launches
  · refine .inl ⟨?_, launches⟩
    cases tokens : tokenize line with
    | nil => rfl
    | cons name rest =>
        rw [World.perform]
        cases external : Builtin.ofName? name with
        | some builtin =>
            rw [attempts_cons, World.attempts_builtin]
            rfl
        | none =>
            rcases World.attempts_runProgram_eq_nil_or session.world session.settings rest
              external with silent | launch
            · exact silent
            · obtain ⟨parsed, program, launch⟩ := launch
              exact absurd ⟨name, rest, parsed, program, tokens, launch⟩ launches

end Session

/-- The attempt is the one that the command asks for: the program is the first candidate that is
there, the arguments are the words between the name and the clause, and both output streams lead to
the targets of the clause or, without a clause, to where those of the shell lead. -/
structure Attempt.IsFor (attempt : Attempt) (session : Session) (name : String)
    (rest : List String) : Prop where
  program : (SearchPath.firstCandidate? session.world.machine session.world.searchPath name).map
    bytesOf = some attempt.program
  /-- Whatever file is found for the program, it is told that path before its arguments. -/
  firstArgument : ∀ (setups : List Launch.Setup) machine wiring executable,
    let plan : Launch.Plan := ⟨attempt.program, attempt.arguments, setups⟩
    plan.find machine wiring = .ok executable →
      (plan.invocation machine executable).arguments =
        attempt.program :: attempt.arguments.map bytesOf
  clean : ∀ argument ∈ attempt.arguments, argument ≠ "" ∧ argument ≠ Redirection.operator ∧
    ∀ char ∈ argument.toList, isSeparator char = false
  streams :
    (Redirection.operator ∉ rest ∧ attempt.arguments = rest ∧
      attempt.output = none ∧ attempt.error = none) ∨
    ∃ base, rest = attempt.arguments ++ [Redirection.operator, base] ∧
      attempt.output = some (bytesOf (base ++ session.settings.redirection.outputSuffix)) ∧
      attempt.error = some (bytesOf (base ++ session.settings.redirection.errorSuffix))

/-- A program whose path has a slash is started by that path and by no other. -/
theorem Machine.path_of_findProgram {machine : Machine} {writing : List Location} {path : Path}
    {executable : Machine.Executable} (slash : Path.slash ∈ path)
    (found : machine.findProgram writing path = .ok executable) : executable.path = path := by
  unfold findProgram at found
  rw [if_pos (List.contains_iff_mem.mpr slash)] at found
  split at found
  case h_1 => cases found; rfl
  case h_2 => cases found

/-- A program that is started by a path with a slash is told that path first, then its arguments. -/
theorem Launch.Plan.arguments_invocation {plan : Plan} {machine : Machine} {wiring : Wiring}
    {executable : Machine.Executable} (slash : Path.slash ∈ plan.program)
    (found : plan.find machine wiring = .ok executable) :
    (plan.invocation machine executable).arguments =
      plan.program :: plan.arguments.map bytesOf := by
  unfold find at found
  split at found
  case isTrue => cases found
  case isFalse => rw [invocation, Machine.path_of_findProgram slash found]

namespace Redirection.Rules.Accepts

variable {rules : Rules} {name : String} {rest : List String} {parsed : Parsed}

/-- The words of an accepted command are the tokens before its clause. -/
theorem streams (accepted : rules.Accepts (name :: rest) parsed) (program : String) :
    (operator ∉ rest ∧ (parsed.attempt program).arguments = rest ∧
      (parsed.attempt program).output = none ∧ (parsed.attempt program).error = none) ∨
    ∃ base, rest = (parsed.attempt program).arguments ++ [operator, base] ∧
      (parsed.attempt program).output = some (bytesOf (base ++ rules.outputSuffix)) ∧
      (parsed.attempt program).error = some (bytesOf (base ++ rules.errorSuffix)) := by
  generalize whole : name :: rest = tokens at accepted
  cases accepted with
  | plain free =>
      rw [← whole] at free
      rw [← whole]
      exact .inl ⟨fun member => free (List.mem_cons_of_mem name member), rfl, rfl, rfl⟩
  | @clause words base nonempty =>
      cases words with
      | nil => exact absurd rfl nonempty
      | cons word words => exact .inr ⟨base, (List.cons.inj whole).2, rfl, rfl⟩

/-- No word of an accepted command is an operator, and all of them are among its tokens. -/
theorem of_mem_words {tokens : List String} (accepted : rules.Accepts tokens parsed)
    {word : String} (member : word ∈ parsed.words) : word ∈ tokens ∧ word ≠ operator := by
  cases accepted with
  | plain free =>
      refine ⟨member, ?_⟩
      rintro rfl
      exact free member
  | clause nonempty free =>
      refine ⟨List.mem_append_left _ member, ?_⟩
      rintro rfl
      exact free member

end Redirection.Rules.Accepts

/-- The attempt of a command whose launch comes about is the one that its line asks for. -/
theorem World.Launches.isFor {session : Session} {line name program : String} {rest : List String}
    {parsed : Redirection.Parsed} (named : "" ∉ session.world.searchPath)
    (tokens : tokenize line = name :: rest)
    (launches : session.world.Launches session.settings name rest parsed program) :
    (parsed.attempt program).IsFor session name rest where
  program := by
    rw [SearchPath.firstCandidate?_of_resolve launches.resolved]
    rfl
  firstArgument := by
    intro setups machine wiring executable plan found
    apply Launch.Plan.arguments_invocation _ found
    exact SearchPath.slash_mem_firstCandidate? named
      (SearchPath.firstCandidate?_of_resolve launches.resolved)
  clean := by
    intro argument member
    obtain ⟨among, word⟩ := launches.accepted.of_mem_words (List.mem_of_mem_tail member)
    rw [← tokens] at among
    exact ⟨tokenize_ne_empty among, word, isSeparator_eq_false_of_mem_tokenize among⟩
  streams := launches.accepted.streams program

namespace Session

/-- A line starts at most one program, exactly if it launches one, and starts it as the command
asks for. -/
theorem executeLine_starts (session : Session) (line : String)
    (named : "" ∉ session.world.searchPath) :
    (attempts (session.executeLine line).events).length ≤ 1 ∧
    ((∃ attempt, attempt ∈ attempts (session.executeLine line).events) ↔
      ∃ name rest parsed program, tokenize line = name :: rest ∧
        session.world.Launches session.settings name rest parsed program) ∧
    ∀ attempt ∈ attempts (session.executeLine line).events,
      ∃ name rest, tokenize line = name :: rest ∧ attempt.IsFor session name rest := by
  rcases session.attempts_executeLine_cases line with ⟨silent, none⟩ | launched
  · rw [silent]
    refine ⟨Nat.zero_le 1, ⟨?_, fun launch => absurd launch none⟩, ?_⟩
    · intro made
      obtain ⟨attempt, member⟩ := made
      cases member
    · intro attempt member
      cases member
  · obtain ⟨name, rest, parsed, program, tokens, launches, single⟩ := launched
    rw [single]
    refine ⟨Nat.le_refl 1, ⟨fun _ => ?_, fun _ => ⟨_, List.mem_singleton_self _⟩⟩, ?_⟩
    · exact ⟨name, rest, parsed, program, tokens, launches⟩
    · intro attempt member
      obtain rfl := List.mem_singleton.mp member
      exact ⟨name, rest, tokens, launches.isFor named tokens⟩

/-- A session in the root directory of a machine that has one program, `/bin/run`. -/
def withOneProgram : Session where
  world.machine.files := ⟨[([bytesOf "bin"], .directory 0o755),
    ([bytesOf "bin", bytesOf "run"], .file 0o755 (.program default))]⟩

/-- One attempt for a line with arguments and a clause, with the program from the search path. -/
theorem executeLine_starts_redirected :
    let line := "run a\t b > r"
    let attempt : Attempt := {
      program := bytesOf "/bin/run"
      arguments := ["a", "b"]
      output := some (bytesOf "r.out")
      error := some (bytesOf "r.err") }
    "" ∉ withOneProgram.world.searchPath ∧
      attempts (withOneProgram.executeLine line).events = [attempt] ∧
      ∃ name rest, tokenize line = name :: rest ∧ attempt.IsFor withOneProgram name rest :=
  ⟨by decide, by decide,
    (executeLine_starts withOneProgram "run a\t b > r" (by decide)).2.2 _ (by decide)⟩

end Session
end CommandShell
