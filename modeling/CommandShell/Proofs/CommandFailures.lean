/-
Module: CommandShell.Proofs.CommandFailures
Purpose: Which commands fail, and which failures are reported where they should not be.
Trusted boundary: none
Main exports:
  Redirection.Parsed.start, Redirection.Parsed.Seals, Session.Fails, Session.Misreports,
  Launch.Plan.result_run_error_iff, World.outcome_runProgram_error_iff,
  Session.fails_iff_of_prepares, Session.misreports_iff_of_prepares,
  Session.result_perform_error_iff, Session.Misreports.not_fails
-/
import CommandShell.Proofs.OpenedTarget
import CommandShell.Proofs.StartedProgram

namespace CommandShell

namespace Launch

/-- A launch fails if a target cannot be opened, or if the program cannot be started and there is
no target for standard error that takes the report. -/
theorem Plan.result_run_error_iff {plan : Plan} {mode : Mode} {machine : Machine} :
    (∃ error, (plan.run mode machine).result = .error error) ↔
      (plan.opening mode machine).failure ≠ none ∨
        (∃ cause, plan.find (plan.opening mode machine).machine
          (plan.opening mode machine).wiring = .error cause) ∧
          ∀ target, plan.errorTarget? = some target →
            ∃ refusal, (plan.opening mode machine).machine.append target diagnostic =
              .error refusal := by
  have cases := plan.run_cases mode machine
  generalize plan.run mode machine = launched at cases
  cases cases with
  | closed failed =>
      refine ⟨fun _ => .inl ?_, fun _ => ⟨_, rfl⟩⟩
      intro none
      cases failed.symm.trans none
  | started opened found =>
      constructor
      · intro failed
        obtain ⟨_, none⟩ := failed
        cases none
      · intro failed
        rcases failed with closed | ⟨⟨_, missed⟩, _⟩
        · exact absurd opened closed
        · cases found.symm.trans missed
  | unstarted opened missed inherited =>
      refine ⟨fun _ => .inr ⟨⟨_, missed⟩, ?_⟩, fun _ => ⟨_, rfl⟩⟩
      intro target redirected
      cases inherited.symm.trans redirected
  | diverted opened missed redirected told =>
      constructor
      · intro failed
        obtain ⟨_, none⟩ := failed
        cases none
      · intro failed
        rcases failed with closed | ⟨_, untold⟩
        · exact absurd opened closed
        · obtain ⟨_, refused⟩ := untold _ redirected
          cases told.symm.trans refused
  | untold opened missed redirected untold =>
      refine ⟨fun _ => .inr ⟨⟨_, missed⟩, ?_⟩, fun _ => ⟨_, rfl⟩⟩
      intro target same
      cases redirected.symm.trans same
      exact ⟨_, untold⟩

end Launch

namespace Redirection.Parsed

variable {parsed : Parsed} {program : String} {mode : Mode} {machine : Machine}

/-- What the system answers when, after the targets are open, it is asked to start the program. -/
def start (parsed : Parsed) (program : String) (mode : Mode) (machine : Machine) :
    Except IoError Machine.Executable :=
  (parsed.plan program).find ((parsed.plan program).opening mode machine).machine
    ((parsed.plan program).opening mode machine).wiring

/-- The launch makes the target for standard error, and with a mode that does not let it be opened
for writing a second time. -/
def Seals (parsed : Parsed) (mode : Mode) (machine : Machine) : Prop :=
  ∃ targets location next, parsed.targets = some targets ∧
    machine.openTarget mode (bytesOf targets.output) = .ok (location, next) ∧
    next.Makes (bytesOf targets.error) ∧ (mode.masked machine.mask).has Mode.write = false

/-- With both targets open, the report for one that cannot be started is refused exactly if the
launch has sealed the target for it. -/
theorem append_opening_iff {words : List String} {targets : Targets} (program : String)
    (opens : machine.CanOpen mode (targetPaths ⟨words, some targets⟩)) :
    (∃ refusal, ((plan ⟨words, some targets⟩ program).opening mode machine).machine.append
      (bytesOf targets.error) diagnostic = .error refusal) ↔
      Seals ⟨words, some targets⟩ mode machine := by
  obtain ⟨location, next, first, _, last, second, _⟩ := opens
  have opened : ((plan ⟨words, some targets⟩ program).opening mode machine).machine = last := by
    simp only [Launch.Plan.opening, plan, Launch.Plan.redirect, Option.map_some, List.nil_append,
      Launch.openTargets, first, second]
  rw [opened, Machine.append_openTarget second, Machine.mask_openTarget first]
  constructor
  · intro parts
    obtain ⟨made, sealed⟩ := parts
    exact ⟨targets, location, next, rfl, first, made, sealed⟩
  · intro seals
    obtain ⟨_, _, _, same, again, made, sealed⟩ := seals
    cases same
    cases first.symm.trans again
    exact ⟨made, sealed⟩

/-- A command fails to launch if a target cannot be opened, or if its program cannot be started and
the report of that has no target or a sealed one. -/
theorem result_run_plan_error_iff :
    (∃ error, ((parsed.plan program).run mode machine).result = .error error) ↔
      ¬ machine.CanOpen mode parsed.targetPaths ∨
        (∃ cause, parsed.start program mode machine = .error cause) ∧
          (parsed.targets = none ∨ parsed.Seals mode machine) := by
  rw [Launch.Plan.result_run_error_iff, ne_eq, failure_opening_plan_iff]
  by_cases opens : machine.CanOpen mode parsed.targetPaths
  · apply or_congr Iff.rfl
    apply and_congr Iff.rfl
    rcases parsed with ⟨words, _ | targets⟩
    · refine ⟨fun _ => .inl rfl, fun _ target redirected => ?_⟩
      cases redirected
    · have redirected : (plan ⟨words, some targets⟩ program).errorTarget? =
          some (bytesOf targets.error) := rfl
      rw [← append_opening_iff program opens, redirected]
      constructor
      · intro refused
        exact .inr (refused _ rfl)
      · intro told target same
        rcases told with inherited | refused
        · cases inherited
        · cases same
          exact refused
  · exact ⟨fun _ => .inl opens, fun _ => .inl opens⟩

end Redirection.Parsed

namespace World

variable {world : World} {settings : Settings} {name program : String} {rest : List String}
  {parsed : Redirection.Parsed}

/-- What is prepared for tokens is settled by them. -/
theorem Prepares.unique {parsed' : Redirection.Parsed} {program' : String}
    (one : world.Prepares settings name rest parsed program)
    (other : world.Prepares settings name rest parsed' program') :
    parsed = parsed' ∧ program = program' := by
  have read := Redirection.Rules.parse_eq_ok_iff.mpr one.accepted
  have same := Redirection.Rules.parse_eq_ok_iff.mpr other.accepted
  have found := one.resolved.symm.trans other.resolved
  cases read.symm.trans same
  cases found
  exact ⟨rfl, rfl⟩

/-- Judging a launch neither makes an error of a launch that went well nor hides one: a bad exit
status is no error. -/
theorem outcome_afterLaunch_error_iff {command : String} {earlier : List Event}
    {launched : Launch.Launched} :
    (∃ error, (world.afterLaunch command earlier launched).outcome = .error error) ↔
      ∃ error, launched.result = .error error := by
  unfold afterLaunch
  cases launched.result with
  | error error => exact ⟨fun _ => ⟨error, rfl⟩, fun _ => ⟨_, rfl⟩⟩
  | ok status =>
      constructor
      · intro failed
        obtain ⟨_, none⟩ := failed
        cases none
      · intro failed
        obtain ⟨_, none⟩ := failed
        cases none

/-- A command whose program is prepared fails if its launch does. -/
theorem outcome_runProgram_error_iff
    (prepared : world.Prepares settings name rest parsed program) :
    (∃ error, (world.runProgram settings (name :: rest)).outcome = .error error) ↔
      ¬ world.machine.CanOpen settings.targetMode parsed.targetPaths ∨
        (∃ cause, parsed.start program settings.targetMode world.machine = .error cause) ∧
          (parsed.targets = none ∨ parsed.Seals settings.targetMode world.machine) := by
  have read := Redirection.Rules.parse_eq_ok_iff.mpr prepared.accepted
  have cases := world.runProgram_cases settings name rest
  generalize world.runProgram settings (name :: rest) = effect at cases
  cases cases with
  | refused refused => cases read.symm.trans refused
  | unresolved _ unresolved => cases prepared.resolved.symm.trans unresolved
  | launched accepted resolved =>
      cases read.symm.trans accepted
      cases prepared.resolved.symm.trans resolved
      rw [outcome_afterLaunch_error_iff, Redirection.Parsed.result_run_plan_error_iff]

/-- A command with no program prepared fails. -/
theorem outcome_runProgram_of_unprepared (external : Builtin.ofName? name = none)
    (unprepared : ¬ ∃ parsed program, world.Prepares settings name rest parsed program) :
    ∃ error, (world.runProgram settings (name :: rest)).outcome = .error error := by
  have cases := world.runProgram_cases settings name rest
  generalize world.runProgram settings (name :: rest) = effect at cases
  cases cases with
  | refused => exact ⟨_, rfl⟩
  | unresolved => exact ⟨_, rfl⟩
  | launched accepted resolved =>
      have grammar := Redirection.Rules.parse_eq_ok_iff.mp accepted
      exact absurd ⟨_, _, external, grammar, resolved⟩ unprepared

end World

namespace Session

/-- The ways in which a command can fail. -/
inductive Fails (session : Session) : List String → Prop where
  | noHome {name : String} (called : Builtin.ofName? name = some .cd)
      (homeless : session.world.home = none) : session.Fails [name]
  | closed {name : String} {rest : List String} {target : Path} {cause : IoError}
      (called : Builtin.ofName? name = some .cd)
      (goal : (rest.head?.map bytesOf <|> session.world.home) = some target)
      (closed : session.world.machine.changeDirectory target = .error cause) :
      session.Fails (name :: rest)
  | lost {name : String} {rest : List String} {cause : IoError}
      (called : Builtin.ofName? name = some .pwd)
      (lost : session.world.machine.workingDirectory = .error cause) : session.Fails (name :: rest)
  | unwritten {name : String} {rest : List String} {path : Path}
      (called : Builtin.ofName? name = some .pwd)
      (there : session.world.machine.workingDirectory = .ok path)
      (unwritten : (session.out.write (bytesOf (shown path ++ "\n"))).complete = false) :
      session.Fails (name :: rest)
  | refused {name : String} {rest : List String} (external : Builtin.ofName? name = none)
      (refused : ∀ parsed, ¬ session.settings.redirection.Accepts (name :: rest) parsed) :
      session.Fails (name :: rest)
  | unresolved {name : String} {rest : List String} {error : ResolveError}
      (external : Builtin.ofName? name = none)
      (unresolved : (session.world.resolution session.settings name).result = .error error) :
      session.Fails (name :: rest)
  | unopened {name program : String} {rest : List String} {parsed : Redirection.Parsed}
      (prepared : session.world.Prepares session.settings name rest parsed program)
      (unopened :
        ¬ session.world.machine.CanOpen session.settings.targetMode parsed.targetPaths) :
      session.Fails (name :: rest)
  | unstarted {name program : String} {rest : List String} {parsed : Redirection.Parsed}
      {cause : IoError}
      (launches : session.world.Launches session.settings name rest parsed program)
      (inherited : parsed.targets = none)
      (unstarted : parsed.start program session.settings.targetMode session.world.machine =
        .error cause) :
      session.Fails (name :: rest)

/-- A redirected program cannot be started, and the file that is to be told so is sealed.  The
report then goes to the user, as if the file could not be opened in the first place. -/
inductive Misreports (session : Session) : List String → Prop where
  | sealed {name program : String} {rest : List String} {parsed : Redirection.Parsed}
      {cause : IoError}
      (launches : session.world.Launches session.settings name rest parsed program)
      (unstarted : parsed.start program session.settings.targetMode session.world.machine =
        .error cause)
      (sealed : parsed.Seals session.settings.targetMode session.world.machine) :
      session.Misreports (name :: rest)

/-- With its program prepared, a command fails if a target cannot be opened, or if the program
cannot be started and no target is to be told so. -/
theorem fails_iff_of_prepares {session : Session} {name program : String} {rest : List String}
    {parsed : Redirection.Parsed}
    (prepared : session.world.Prepares session.settings name rest parsed program) :
    session.Fails (name :: rest) ↔
      ¬ session.world.machine.CanOpen session.settings.targetMode parsed.targetPaths ∨
        (∃ cause, parsed.start program session.settings.targetMode session.world.machine =
          .error cause) ∧ parsed.targets = none := by
  constructor
  · intro fails
    cases fails with
    | noHome called => cases prepared.external.symm.trans called
    | closed called => cases prepared.external.symm.trans called
    | lost called => cases prepared.external.symm.trans called
    | unwritten called => cases prepared.external.symm.trans called
    | refused _ refused => exact absurd prepared.accepted (refused parsed)
    | unresolved _ unresolved => cases prepared.resolved.symm.trans unresolved
    | unopened other unopened =>
        obtain ⟨rfl, rfl⟩ := prepared.unique other
        exact .inl unopened
    | unstarted launches inherited unstarted =>
        obtain ⟨rfl, rfl⟩ := prepared.unique launches.toPrepares
        exact .inr ⟨⟨_, unstarted⟩, inherited⟩
  · intro failed
    by_cases opens :
        session.world.machine.CanOpen session.settings.targetMode parsed.targetPaths
    · rcases failed with unopened | ⟨⟨cause, unstarted⟩, inherited⟩
      · exact absurd opens unopened
      · exact .unstarted ⟨prepared, opens⟩ inherited unstarted
    · exact .unopened prepared opens

/-- With its program prepared, a command misreports if all targets can be opened, the program cannot
be started, and the launch has sealed the target that is to be told so. -/
theorem misreports_iff_of_prepares {session : Session} {name program : String}
    {rest : List String} {parsed : Redirection.Parsed}
    (prepared : session.world.Prepares session.settings name rest parsed program) :
    session.Misreports (name :: rest) ↔
      session.world.machine.CanOpen session.settings.targetMode parsed.targetPaths ∧
        (∃ cause, parsed.start program session.settings.targetMode session.world.machine =
          .error cause) ∧ parsed.Seals session.settings.targetMode session.world.machine := by
  constructor
  · intro misreports
    obtain ⟨launches, unstarted, sealed⟩ := misreports
    obtain ⟨rfl, rfl⟩ := prepared.unique launches.toPrepares
    exact ⟨launches.opens, ⟨_, unstarted⟩, sealed⟩
  · intro parts
    obtain ⟨opens, ⟨cause, unstarted⟩, sealed⟩ := parts
    exact .sealed ⟨prepared, opens⟩ unstarted sealed

/-- The command of a program ends in an error in two ways: it fails, or its report cannot be
made. -/
theorem result_perform_external_iff {session : Session} {name : String} {rest : List String}
    (external : Builtin.ofName? name = none) :
    (∃ error, (session.perform (name :: rest)).result = .error error) ↔
      session.Fails (name :: rest) ∨ session.Misreports (name :: rest) := by
  rw [perform_external external]
  dsimp only
  by_cases prepared :
      ∃ parsed program, session.world.Prepares session.settings name rest parsed program
  · obtain ⟨parsed, program, prepared⟩ := prepared
    rw [World.outcome_runProgram_error_iff prepared, fails_iff_of_prepares prepared,
      misreports_iff_of_prepares prepared]
    by_cases opens :
        session.world.machine.CanOpen session.settings.targetMode parsed.targetPaths
    · simp only [opens, not_true_eq_false, false_or, true_and, and_or_left]
    · simp only [opens, not_false_eq_true, true_or]
  · refine ⟨fun _ => .inl ?_, fun _ => World.outcome_runProgram_of_unprepared external prepared⟩
    by_cases accepted : ∃ parsed, session.settings.redirection.Accepts (name :: rest) parsed
    · obtain ⟨parsed, accepted⟩ := accepted
      cases resolved : (session.world.resolution session.settings name).result with
      | error error => exact .unresolved external resolved
      | ok program => exact absurd ⟨parsed, program, external, accepted, resolved⟩ prepared
    · exact .refused external fun parsed grammar => accepted ⟨parsed, grammar⟩

theorem complete_write_nil (sink : Sink) : (sink.write []).complete = true := by
  apply (sink.complete_write_iff []).mpr
  intro room _
  exact Nat.zero_le room

/-- A built-in command fails by itself, or because not all it prints arrives. -/
theorem result_perform_builtin_iff {session : Session} {name : String} {rest : List String}
    {builtin : Builtin} (called : Builtin.ofName? name = some builtin) :
    (∃ error, (session.perform (name :: rest)).result = .error error) ↔
      (∃ error, (builtin.perform session.world rest).outcome = .error error) ∨
        (session.out.write (builtin.perform session.world rest).printed).complete = false := by
  rw [perform, World.perform, called]
  dsimp only
  cases printed : (builtin.perform session.world rest).printed with
  | nil =>
      rw [complete_write_nil]
      constructor
      · exact .inl
      · intro failed
        rcases failed with failed | none
        · exact failed
        · cases none
  | cons byte bytes =>
      simp only [List.isEmpty_cons, Bool.false_eq_true, if_false]
      cases (session.out.write (byte :: bytes)).complete with
      | false => exact ⟨fun _ => .inr rfl, fun _ => ⟨_, rfl⟩⟩
      | true =>
          constructor
          · exact .inl
          · intro failed
            rcases failed with failed | none
            · exact failed
            · cases none

/-- What a call of a built-in command has to do with one of its failures. -/
theorem fails_builtin_iff {session : Session} {name : String} {rest : List String}
    {builtin : Builtin} (called : Builtin.ofName? name = some builtin) :
    session.Fails (name :: rest) ↔
      (∃ error, (builtin.perform session.world rest).outcome = .error error) ∨
        (session.out.write (builtin.perform session.world rest).printed).complete = false := by
  constructor
  · intro fails
    cases fails with
    | noHome other homeless =>
        cases called.symm.trans other
        simp [Builtin.perform, World.changeDirectory, homeless]
    | closed other goal closed =>
        cases called.symm.trans other
        simp [Builtin.perform, World.changeDirectory, goal, closed]
    | lost other lost =>
        cases called.symm.trans other
        simp [Builtin.perform, World.printDirectory, lost]
    | unwritten other there unwritten =>
        cases called.symm.trans other
        simp [Builtin.perform, World.printDirectory, there, unwritten]
    | refused external => cases called.symm.trans external
    | unresolved external => cases called.symm.trans external
    | unopened prepared => cases called.symm.trans prepared.external
    | unstarted launches => cases called.symm.trans launches.external
  · intro failed
    cases builtin with
    | exit => simp [Builtin.perform, complete_write_nil] at failed
    | path => simp [Builtin.perform, complete_write_nil] at failed
    | pwd =>
        cases there : session.world.machine.workingDirectory with
        | error cause => exact .lost called there
        | ok path =>
            simp [Builtin.perform, World.printDirectory, there] at failed
            exact .unwritten called there failed
    | cd =>
        cases goal : rest.head?.map bytesOf <|> session.world.home with
        | none =>
            cases rest with
            | nil => exact .noHome called goal
            | cons => cases goal
        | some target =>
            cases closed : session.world.machine.changeDirectory target with
            | error cause => exact .closed called goal closed
            | ok machine =>
                simp [Builtin.perform, World.changeDirectory, goal, closed,
                  complete_write_nil] at failed

/-- Exactly the commands that fail or misreport end in an error. -/
theorem result_perform_error_iff {session : Session} {tokens : List String} :
    (∃ error, (session.perform tokens).result = .error error) ↔
      session.Fails tokens ∨ session.Misreports tokens := by
  cases tokens with
  | nil =>
      constructor
      · intro failed
        obtain ⟨error, none⟩ := failed
        cases none
      · intro failed
        rcases failed with none | none
        · cases none
        · cases none
  | cons name rest =>
      cases called : Builtin.ofName? name with
      | none => exact result_perform_external_iff called
      | some builtin =>
          rw [result_perform_builtin_iff called, fails_builtin_iff called]
          constructor
          · exact .inl
          · intro failed
            rcases failed with failed | ⟨launches, _, _⟩
            · exact failed
            · cases called.symm.trans launches.external

/-- A command that misreports is none of those that fail. -/
theorem Misreports.not_fails {session : Session} {tokens : List String}
    (misreports : session.Misreports tokens) : ¬ session.Fails tokens := by
  obtain ⟨launches, _, sealed⟩ := misreports
  obtain ⟨_, _, _, redirected, _⟩ := sealed
  intro fails
  rcases (fails_iff_of_prepares launches.toPrepares).mp fails with unopened | ⟨_, inherited⟩
  · exact unopened launches.opens
  · cases redirected.symm.trans inherited

end Session
end CommandShell
