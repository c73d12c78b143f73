/-
Module: CommandShell.Proofs.CommandCases
Purpose: All that a launch and a command can come to, said once for every theorem about them.
Trusted boundary: none
Main exports:
  Redirection.Parsed.plan, Launch.Plan.Runs, Launch.Plan.run_cases, World.RunsProgram,
  World.runProgram_cases, Session.perform_external, Session.Executes, Session.executeLine_cases,
  Session.session_perform, Session.settings_executeLine, Event.ofSession, Launch.of_mem_deliver,
  World.moved_of_mem_builtin, World.ofSession_perform, Session.ofSession_perform
-/
import CommandShell.Proofs.Clause
import CommandShell.Session

namespace CommandShell

namespace Launch

/-- The machine and the connections after all the targets of a plan have been tried. -/
def Plan.opening (plan : Plan) (mode : Mode) (machine : Machine) : Opening :=
  openTargets mode machine {} plan.setups

/-- What a launch can come to: a target cannot be opened; the program runs; or it cannot be
started, which its caller is told, or its error stream is told, or neither. -/
inductive Plan.Runs (plan : Plan) (mode : Mode) (machine : Machine) : Launched → Prop where
  | closed {path : Path} {cause : IoError}
      (failed : (plan.opening mode machine).failure = some (path, cause)) :
      plan.Runs mode machine
        ⟨(plan.opening mode machine).machine, .error (.redirect path cause), []⟩
  | started {executable : Machine.Executable} {behaviour : Behaviour} {delivery : Delivery}
      (opened : (plan.opening mode machine).failure = none)
      (found : plan.find (plan.opening mode machine).machine (plan.opening mode machine).wiring =
        .ok executable)
      (ran : executable.program.run
        (plan.invocation (plan.opening mode machine).machine executable) = behaviour)
      (delivered : deliver (plan.opening mode machine).wiring (plan.opening mode machine).machine
        (fun _ => 0) behaviour.writes = delivery) :
      plan.Runs mode machine
        ⟨delivery.machine, .ok behaviour.status,
          .attempted (plan.attempt (plan.opening mode machine).wiring) ::
            .started plan.program executable.location :: delivery.events ++
            [.ended plan.program behaviour.status]⟩
  | unstarted {cause : IoError}
      (opened : (plan.opening mode machine).failure = none)
      (missed : plan.find (plan.opening mode machine).machine (plan.opening mode machine).wiring =
        .error cause)
      (inherited : plan.errorTarget? = none) :
      plan.Runs mode machine
        ⟨(plan.opening mode machine).machine, .error (.start plan.program cause),
          [.attempted (plan.attempt (plan.opening mode machine).wiring)]⟩
  | diverted {cause : IoError} {target : Path} {last : Machine}
      (opened : (plan.opening mode machine).failure = none)
      (missed : plan.find (plan.opening mode machine).machine (plan.opening mode machine).wiring =
        .error cause)
      (redirected : plan.errorTarget? = some target)
      (told : (plan.opening mode machine).machine.append target diagnostic = .ok last) :
      plan.Runs mode machine
        ⟨last, .ok notStarted,
          [.attempted (plan.attempt (plan.opening mode machine).wiring),
            .diverted plan.program cause]⟩
  | untold {cause refusal : IoError} {target : Path}
      (opened : (plan.opening mode machine).failure = none)
      (missed : plan.find (plan.opening mode machine).machine (plan.opening mode machine).wiring =
        .error cause)
      (redirected : plan.errorTarget? = some target)
      (untold : (plan.opening mode machine).machine.append target diagnostic = .error refusal) :
      plan.Runs mode machine
        ⟨(plan.opening mode machine).machine, .error (.redirect target refusal),
          [.attempted (plan.attempt (plan.opening mode machine).wiring),
            .diverted plan.program cause]⟩

/-- There is no other way for a launch to go. -/
theorem Plan.run_cases (plan : Plan) (mode : Mode) (machine : Machine) :
    plan.Runs mode machine (plan.run mode machine) := by
  unfold Plan.run
  dsimp only
  split
  case h_1 path cause failed => exact .closed failed
  case h_2 opened =>
    split
    case h_1 executable found => exact .started opened found rfl rfl
    case h_2 cause missed =>
      split
      case h_1 inherited => exact .unstarted opened missed inherited
      case h_2 target redirected =>
        split
        case h_1 last told => exact .diverted opened missed redirected told
        case h_2 refusal untold => exact .untold opened missed redirected untold

end Launch

/-- The plan that an accepted command is launched by, once its name is resolved. -/
def Redirection.Parsed.plan (parsed : Redirection.Parsed) (program : String) : Launch.Plan :=
  Launch.Plan.redirect { program := bytesOf program, arguments := parsed.words.tail }
    (parsed.targets.map fun targets => (bytesOf targets.output, bytesOf targets.error))

/-- The words that the grammar leaves of a command start with its name. -/
theorem Redirection.Rules.words_of_parse {rules : Redirection.Rules} {name : String}
    {rest : List String} {parsed : Redirection.Parsed}
    (accepted : rules.parse (name :: rest) = .ok parsed) :
    parsed.words = name :: parsed.words.tail := by
  generalize whole : name :: rest = tokens at accepted
  cases Redirection.Rules.parse_eq_ok_iff.mp accepted with
  | plain => rw [← whole]; rfl
  | @clause words base nonempty =>
      cases words with
      | nil => exact absurd rfl nonempty
      | cons word words =>
          rw [(List.cons.inj whole).1]
          rfl

/-- The search for the program of a command. -/
def World.resolution (world : World) (settings : Settings) (name : String) :
    SearchPath.Resolution :=
  SearchPath.resolve world.machine settings.candidateLimit name world.searchPath

/-- What tokens that call no built-in command can come to: the grammar refuses them, the name does
not resolve, or there is a launch. -/
inductive World.RunsProgram (world : World) (settings : Settings) (name : String)
    (rest : List String) : Effect → Prop where
  | refused {error : ClauseError}
      (refused : settings.redirection.parse (name :: rest) = .error error) :
      world.RunsProgram settings name rest { world, outcome := .error (.clause error) }
  | unresolved {parsed : Redirection.Parsed} {error : ResolveError}
      (accepted : settings.redirection.parse (name :: rest) = .ok parsed)
      (unresolved : (world.resolution settings name).result = .error error) :
      world.RunsProgram settings name rest
        { world
          outcome := .error (.resolve error)
          events := (world.resolution settings name).probed.map Event.probed }
  | launched {parsed : Redirection.Parsed} {program : String}
      (accepted : settings.redirection.parse (name :: rest) = .ok parsed)
      (resolved : (world.resolution settings name).result = .ok program) :
      world.RunsProgram settings name rest
        (world.afterLaunch name
          ((world.resolution settings name).probed.map Event.probed ++ [.resolved name program])
          ((parsed.plan program).run settings.targetMode world.machine))

/-- There is no other way for the command of a program to go. -/
theorem World.runProgram_cases (world : World) (settings : Settings) (name : String)
    (rest : List String) :
    world.RunsProgram settings name rest (world.runProgram settings (name :: rest)) := by
  unfold runProgram
  split
  case h_1 error refused => exact .refused refused
  case h_2 targets accepted =>
    have words := Redirection.Rules.words_of_parse accepted
    cases words
  case h_3 command arguments targets accepted =>
    have words := Redirection.Rules.words_of_parse accepted
    obtain ⟨rfl, _⟩ := List.cons.inj words
    dsimp only
    split
    case h_1 error unresolved => exact .unresolved accepted unresolved
    case h_2 program resolved => exact .launched accepted resolved

/-- A command for a program prints nothing itself. -/
theorem World.printed_runProgram (world : World) (settings : Settings) (name : String)
    (rest : List String) : (world.runProgram settings (name :: rest)).printed = [] := by
  have cases := world.runProgram_cases settings name rest
  generalize world.runProgram settings (name :: rest) = effect at cases
  cases cases with
  | refused => rfl
  | unresolved => rfl
  | launched =>
      unfold afterLaunch
      dsimp only
      split <;> rfl

/-- So in a session it ends as it would whoever looks on, and the output stream is not touched. -/
theorem Session.perform_external {session : Session} {name : String} {rest : List String}
    (external : Builtin.ofName? name = none) :
    session.perform (name :: rest) =
      let effect := session.world.runProgram session.settings (name :: rest)
      ⟨effect.outcome, { session with world := effect.world }, effect.events⟩ := by
  rw [perform, World.perform, external]
  dsimp only
  rw [World.printed_runProgram]
  rfl

/-- What a line can come to: it is blank, or its command succeeds, or it fails and that is
reported. -/
inductive Session.Executes (session : Session) (line : String) : Step Flow → Prop where
  | blank (blank : tokenize line = []) :
      session.Executes line ⟨.proceed, session, [.executing line]⟩
  | succeeded {flow : Flow} (command : tokenize line ≠ [])
      (succeeded : (session.perform (tokenize line)).result = .ok flow) :
      session.Executes line
        ⟨flow, (session.perform (tokenize line)).session,
          .executing line :: (session.perform (tokenize line)).events ++
            [.flushed .output session.out.flushes]⟩
  | failed {error : CommandError} (command : tokenize line ≠ [])
      (failed : (session.perform (tokenize line)).result = .error error) :
      session.Executes line
        ⟨.proceed,
          ((session.perform (tokenize line)).session.report (.command error)).session,
          .executing line :: (session.perform (tokenize line)).events ++
            [.flushed .output session.out.flushes] ++
            ((session.perform (tokenize line)).session.report (.command error)).events⟩

/-- There is no other way for a line to go. -/
theorem Session.executeLine_cases (session : Session) (line : String) :
    session.Executes line (session.executeLine line) := by
  unfold executeLine
  split
  case h_1 blank => exact .blank blank
  case h_2 tokens command =>
    dsimp only
    split
    case h_1 flow succeeded => exact .succeeded command succeeded
    case h_2 error failed => exact .failed command failed

namespace Session

/-- A command changes the world and writes to the output stream. -/
theorem session_perform (session : Session) (tokens : List String) :
    ∃ world out, (session.perform tokens).session = { session with world, out } := by
  unfold perform
  dsimp only
  split
  · exact ⟨_, session.out, rfl⟩
  · exact ⟨_, _, rfl⟩

/-- No command changes the settings. -/
@[simp] theorem settings_perform (session : Session) (tokens : List String) :
    (session.perform tokens).session.settings = session.settings := by
  obtain ⟨world, out, same⟩ := session.session_perform tokens
  rw [same]

/-- No command writes to the error stream of the shell; only a report does. -/
@[simp] theorem err_perform (session : Session) (tokens : List String) :
    (session.perform tokens).session.err = session.err := by
  obtain ⟨world, out, same⟩ := session.session_perform tokens
  rw [same]

/-- No line changes the settings. -/
theorem settings_executeLine (session : Session) (line : String) :
    (session.executeLine line).session.settings = session.settings := by
  have cases := session.executeLine_cases line
  generalize session.executeLine line = executed at cases
  cases cases with
  | blank => rfl
  | succeeded => exact settings_perform session _
  | failed => exact settings_perform session _

/-- No startup line changes the settings. -/
theorem settings_sourceLines (session : Session) (lines : List String) :
    (session.sourceLines lines).session.settings = session.settings := by
  induction lines generalizing session with
  | nil => rfl
  | cons line rest ih =>
      have executed := session.settings_executeLine line
      rw [sourceLines]
      dsimp only
      split
      · exact executed
      · exact (ih _).trans executed

@[simp] theorem settings_answer (session : Session) (reading : Reading) :
    (session.answer reading).session.settings = session.settings := by
  cases reading with
  | line text =>
      unfold answer
      dsimp only
      split <;> exact session.settings_executeLine text
  | overflow => rfl
  | interrupted => rfl
  | finished => rfl
  | failed cause => rfl

end Session

/-! ### Events of commands -/

/-- What only the session itself does: reading, writing, flushing and reporting. -/
def Event.ofSession : Event → Bool
  | .read .. => true
  | .executing _ => true
  | .prompted _ => true
  | .printed _ => true
  | .flushed .. => true
  | .reported .. => true
  | _ => false

/-- What only the session does is all that brings bytes to the streams of the shell. -/
theorem Event.shellBytes_of_ofSession {event : Event} (other : event.ofSession = false)
    (stream : Stream) : event.shellBytes stream = [] := by
  cases event with
  | prompted => cases other
  | printed => cases other
  | reported => cases other
  | _ => rfl

/-- All that happens while a program writes is that it writes to the streams it shares. -/
theorem Launch.of_mem_deliver {wiring : Wiring} {machine : Machine} {offset : Stream → Nat}
    {writes : List (Stream × Bytes)} {event : Event}
    (member : event ∈ (deliver wiring machine offset writes).events) :
    ∃ stream bytes, event = .programWrote stream bytes := by
  induction writes generalizing machine offset with
  | nil => cases member
  | cons piece rest ih =>
      obtain ⟨stream, bytes⟩ := piece
      rw [deliver] at member
      split at member
      · exact ih member
      · rcases List.mem_cons.mp member with rfl | member
        · exact ⟨stream, bytes, rfl⟩
        · exact ih member

/-- Nothing in a launch is done by the session itself. -/
theorem Launch.Plan.ofSession_run (plan : Plan) (mode : Mode) (machine : Machine) :
    ∀ event ∈ (plan.run mode machine).events, event.ofSession = false := by
  have cases := plan.run_cases mode machine
  generalize plan.run mode machine = launched at cases
  intro event member
  cases cases with
  | closed => cases member
  | started opened found ran delivered =>
      subst delivered
      simp only [List.mem_append, List.mem_cons, List.not_mem_nil, or_false] at member
      rcases member with (rfl | rfl | member) | rfl
      · rfl
      · rfl
      · obtain ⟨stream, bytes, rfl⟩ := of_mem_deliver member
        rfl
      · rfl
  | unstarted =>
      obtain rfl := List.mem_singleton.mp member
      rfl
  | diverted => simp at member; rcases member with rfl | rfl <;> rfl
  | untold => simp at member; rcases member with rfl | rfl <;> rfl

namespace World

theorem ofSession_afterLaunch {world : World} {command : String} {earlier : List Event}
    {launched : Launch.Launched} (before : ∀ event ∈ earlier, event.ofSession = false)
    (during : ∀ event ∈ launched.events, event.ofSession = false) :
    ∀ event ∈ (world.afterLaunch command earlier launched).events, event.ofSession = false := by
  have both : ∀ event ∈ earlier ++ launched.events, event.ofSession = false := by
    intro event member
    exact (List.mem_append.mp member).elim (before event) (during event)
  intro event member
  unfold afterLaunch at member
  dsimp only at member
  split at member
  case h_1 => exact both event member
  case h_2 =>
    rcases List.mem_append.mp member with member | last
    · exact both event member
    · split at last
      case isTrue => cases last
      case isFalse =>
        obtain rfl := List.mem_singleton.mp last
        rfl

/-- Nothing in the command of a program is done by the session itself. -/
theorem ofSession_runProgram (world : World) (settings : Settings) (name : String)
    (rest : List String) :
    ∀ event ∈ (world.runProgram settings (name :: rest)).events, event.ofSession = false := by
  have probes : ∀ (candidates : List String), ∀ event ∈ candidates.map Event.probed,
      event.ofSession = false := by
    intro candidates event member
    obtain ⟨candidate, _, rfl⟩ := List.mem_map.mp member
    rfl
  have cases := world.runProgram_cases settings name rest
  generalize world.runProgram settings (name :: rest) = effect at cases
  cases cases with
  | refused =>
      intro event member
      cases member
  | unresolved => exact probes _
  | launched =>
      apply ofSession_afterLaunch
      · intro event member
        rcases List.mem_append.mp member with member | last
        · exact probes _ event member
        · obtain rfl := List.mem_singleton.mp last
          rfl
      · exact Launch.Plan.ofSession_run _ _ _

/-- All that happens in a built-in command is that the working directory changes. -/
theorem moved_of_mem_builtin {world : World} {builtin : Builtin} {arguments : List String}
    {event : Event} (member : event ∈ (builtin.perform world arguments).events) :
    ∃ place, event = .moved place := by
  cases builtin with
  | exit => cases member
  | path => cases member
  | pwd =>
      unfold Builtin.perform printDirectory at member
      dsimp only at member
      split at member <;> cases member
  | cd =>
      unfold Builtin.perform changeDirectory at member
      dsimp only at member
      split at member
      · cases member
      · split at member
        · exact ⟨_, List.mem_singleton.mp member⟩
        · cases member

/-- A command leaves to the session what the session does. -/
theorem ofSession_perform (world : World) (settings : Settings) (tokens : List String) :
    ∀ event ∈ (world.perform settings tokens).events, event.ofSession = false := by
  intro event member
  cases tokens with
  | nil => cases member
  | cons name arguments =>
      rw [perform] at member
      split at member
      · rcases List.mem_cons.mp member with rfl | member
        · rfl
        · obtain ⟨place, rfl⟩ := moved_of_mem_builtin member
          rfl
      · exact ofSession_runProgram world settings name arguments event member

end World

/-- Apart from writing what is to be printed, no command does what the session does. -/
theorem Session.ofSession_perform (session : Session) (tokens : List String) :
    ∀ event ∈ (session.perform tokens).events,
      event.ofSession = false ∨ ∃ write, event = .printed write := by
  intro event member
  unfold perform at member
  dsimp only at member
  split at member
  · exact .inl (World.ofSession_perform _ _ tokens event member)
  · rcases List.mem_append.mp member with member | last
    · exact .inl (World.ofSession_perform _ _ tokens event member)
    · exact .inr ⟨_, List.mem_singleton.mp last⟩

end CommandShell
