/-
Module: CommandShell.Proofs.StartedFile
Purpose: Which file is started for a command, told from the files before the command.
Trusted boundary: none
Main exports:
  Machine.reach_of_openTarget, Machine.programPaths, Machine.findProgram_eq_ok,
  Session.reach_of_started
-/
import CommandShell.Proofs.CarriedState
import CommandShell.Proofs.OpenedTarget
import CommandShell.Proofs.StartedProgram

namespace CommandShell
namespace Machine

variable {machine next : Machine} {mode mode' : Mode} {path : Path} {location opened : Location}
  {content : Content}

/-- A file that is found once a target has been opened, and is not that target, was found before. -/
theorem reach_of_openTarget {target : Path}
    (opens : machine.openTarget mode target = .ok (opened, next)) (elsewhere : location ≠ opened)
    (reached : next.reach path = .ok (.file location mode' content)) :
    machine.reach path = .ok (.file location mode' content) := by
  obtain ⟨ends, current, rfl⟩ := put_of_openTarget opens
  exact (FileSystem.locate_put_elsewhere_iff ends elsewhere current (.text [])).mp reached

end Machine

/-- So it is with all the targets of a command. -/
theorem Redirection.Parsed.reach_of_opening {parsed : Redirection.Parsed} {program : String}
    {mode mode' : Mode} {machine : Machine} {path : Path} {location : Location} {content : Content}
    (opened : ((parsed.plan program).opening mode machine).failure = none)
    (elsewhere : location ∉ ((parsed.plan program).opening mode machine).wiring.locations)
    (reached : ((parsed.plan program).opening mode machine).machine.reach path =
      .ok (.file location mode' content)) :
    machine.reach path = .ok (.file location mode' content) := by
  have opens := failure_opening_plan_iff.mp opened
  rcases parsed with ⟨words, _ | targets⟩
  case none => exact reached
  case some =>
    obtain ⟨first, middle, output, second, last, error, _⟩ := opens
    have opening : ((Redirection.Parsed.mk words (some targets)).plan program).opening mode machine =
        ⟨last, ⟨some ⟨bytesOf targets.output, first⟩, some ⟨bytesOf targets.error, second⟩⟩,
          none⟩ := by
      simp only [Launch.Plan.opening, plan, Launch.Plan.redirect, Option.map_some,
        List.nil_append, Launch.openTargets, output, error]
      rfl
    rw [opening] at elsewhere reached
    have apart : location ≠ first ∧ location ≠ second := by
      simpa [Launch.Wiring.locations] using elsewhere
    exact Machine.reach_of_openTarget output apart.1
      (Machine.reach_of_openTarget error apart.2 reached)

namespace Machine

variable {machine : Machine} {writing : List Location} {path : Path}

/-- The path by which the system looks for a program in one of its directories. -/
def pathIn (directory : Path) (name : Name) : Path :=
  if directory.isEmpty then name else directory ++ Path.slash :: name

/-- The paths by which the system looks for a program: the path itself if it has a slash, else one
in each of the directories where the system looks. -/
def programPaths (machine : Machine) (path : Path) : List Path :=
  if path.contains Path.slash then [path]
  else machine.programPath.map fun directory => pathIn directory path

/-- A file that is opened as a program is the one that the path leads to, and nobody writes to
it. -/
theorem openProgram_eq_ok {location : Location} {mode : Mode} {content : Content}
    (opened : machine.openProgram writing path = .ok (location, mode, content)) :
    location ∉ writing ∧ machine.reach path = .ok (.file location mode content) := by
  unfold openProgram at opened
  split at opened
  case h_1 => cases opened
  case h_2 => cases opened
  case h_3 => cases opened
  case h_4 reached =>
    split at opened
    case isTrue => cases opened
    case isFalse =>
    split at opened
    case isTrue => cases opened
    case isFalse free =>
      cases opened
      exact ⟨fun member => free (List.contains_iff_mem.mpr member), reached⟩

/-- Whether it is a program or a text that asks for an interpreter, what runs is in the file that the
path leads to. -/
theorem programAt_eq_ok {location : Location} {program : Program}
    (found : machine.programAt writing path = .ok (location, program)) :
    location ∉ writing ∧ ∃ mode content, machine.reach path = .ok (.file location mode content) := by
  unfold programAt fileBudget programWithin at found
  cases opened : machine.openProgram writing path with
  | error error => simp [opened] at found
  | ok file =>
      obtain ⟨there, mode, content⟩ := file
      obtain ⟨free, reached⟩ := openProgram_eq_ok opened
      have same : there = location := by
        rw [opened] at found
        cases content with
        | program program => exact (Prod.mk.inj (Except.ok.inj found)).1
        | text bytes =>
            dsimp only at found
            split at found
            case h_1 => cases found
            case h_2 =>
            split at found
            case h_1 => cases found
            case h_2 => exact (Prod.mk.inj (Except.ok.inj found)).1
      exact ⟨same ▸ free, mode, content, same ▸ reached⟩

/-- A program that is found among directories is a file in one of them that nobody writes to. -/
theorem searchProgram_eq_ok {name : Name} {denied : Bool} {last : IoError}
    {directories : List Path} {executable : Executable}
    (found : machine.searchProgram writing name denied last directories = .ok executable) :
    executable.path ∈ directories.map (fun directory => pathIn directory name) ∧
      executable.location ∉ writing ∧ ∃ mode content,
        machine.reach executable.path = .ok (.file executable.location mode content) := by
  induction directories generalizing denied last with
  | nil => cases found
  | cons directory rest ih =>
      rw [searchProgram] at found
      split at found
      case h_1 here =>
        cases found
        exact ⟨List.mem_cons_self, programAt_eq_ok here⟩
      case h_2 => exact (ih found).imp_left (List.mem_cons_of_mem _)
      case h_3 => exact (ih found).imp_left (List.mem_cons_of_mem _)
      case h_4 => exact (ih found).imp_left (List.mem_cons_of_mem _)
      case h_5 => cases found

/-- A program that the system finds is in a file that one of those paths leads to, and the file is
not open for writing. -/
theorem findProgram_eq_ok {executable : Executable}
    (found : machine.findProgram writing path = .ok executable) :
    executable.path ∈ machine.programPaths path ∧ executable.location ∉ writing ∧
      ∃ mode content,
        machine.reach executable.path = .ok (.file executable.location mode content) := by
  unfold findProgram at found
  unfold programPaths
  split at found
  case isTrue slash =>
    rw [if_pos slash]
    split at found
    case h_1 here =>
      cases found
      exact ⟨List.mem_singleton.mpr rfl, programAt_eq_ok here⟩
    case h_2 => cases found
  case isFalse plain =>
    rw [if_neg plain]
    split at found
    case isTrue => cases found
    case isFalse => exact searchProgram_eq_ok found

end Machine

@[simp] theorem Redirection.Parsed.program_plan (parsed : Redirection.Parsed) (command : String) :
    (parsed.plan command).program = bytesOf command := by
  rcases parsed with ⟨words, _ | targets⟩ <;> rfl

/-- A launch finds its program where the system does, with the targets open for writing. -/
theorem Launch.Plan.findProgram_of_find {plan : Plan} {machine : Machine} {wiring : Wiring}
    {executable : Machine.Executable} (found : plan.find machine wiring = .ok executable) :
    machine.findProgram wiring.locations plan.program = .ok executable := by
  unfold find at found
  split at found
  case isTrue => cases found
  case isFalse => exact found

/-- To open targets changes nothing about where the system looks. -/
theorem Launch.Plan.programPaths_opening (plan : Plan) (mode : Mode) (machine : Machine)
    (path : Path) : (plan.opening mode machine).machine.programPaths path =
      machine.programPaths path := by
  obtain ⟨files, same⟩ := openTargets_changes_files mode machine {} plan.setups
  rw [opening, same]
  rfl

/-- A launch starts a program only if the system finds one for it, in a file that was there before
the targets were opened. -/
theorem Redirection.Parsed.reach_of_started {parsed : Redirection.Parsed} {command : String}
    {mode : Mode} {machine : Machine} {program : Path} {location : Location}
    (started : .started program location ∈ ((parsed.plan command).run mode machine).events) :
    program = bytesOf command ∧ ∃ path ∈ machine.programPaths program, ∃ mode content,
      machine.reach path = .ok (.file location mode content) := by
  have cases := (parsed.plan command).run_cases mode machine
  generalize (parsed.plan command).run mode machine = launched at cases started
  cases cases with
  | closed => cases started
  | @started executable behaviour delivery opened found ran delivered =>
      subst delivered
      simp only [program_plan, List.cons_append, List.mem_cons, List.mem_append, List.not_mem_nil,
        or_false, reduceCtorEq, false_or, Event.started.injEq] at started
      rcases started with ⟨rfl, rfl⟩ | written
      · have looked := Launch.Plan.findProgram_of_find found
        rw [program_plan] at looked
        obtain ⟨among, elsewhere, current, content, reached⟩ := Machine.findProgram_eq_ok looked
        rw [Launch.Plan.programPaths_opening] at among
        exact ⟨rfl, executable.path, among, current, content,
          reach_of_opening opened elsewhere reached⟩
      · obtain ⟨stream, bytes, none⟩ := Launch.of_mem_deliver written
        cases none
  | unstarted => cases List.mem_singleton.mp started
  | diverted => simp at started
  | untold => simp at started

/-- A command starts a program only after its name has been looked up, and then in a launch. -/
theorem World.launch_of_started {world : World} {settings : Settings} {tokens : List String}
    {program : Path} {location : Location}
    (started : .started program location ∈ (world.perform settings tokens).events) :
    ∃ name rest parsed command, tokens = name :: rest ∧
      (world.resolution settings name).result = .ok command ∧
      .started program location ∈
        ((Redirection.Parsed.plan parsed command).run settings.targetMode world.machine).events := by
  cases tokens with
  | nil => cases started
  | cons name rest =>
      rw [perform] at started
      split at started
      case h_1 builtin called =>
        rcases List.mem_cons.mp started with none | none
        · cases none
        · obtain ⟨place, none⟩ := moved_of_mem_builtin none
          cases none
      case h_2 =>
        have cases := world.runProgram_cases settings name rest
        generalize world.runProgram settings (name :: rest) = effect at cases started
        cases cases with
        | refused => cases started
        | unresolved => simp at started
        | @launched parsed command accepted resolved =>
            refine ⟨name, rest, parsed, command, rfl, resolved, ?_⟩
            unfold afterLaunch at started
            dsimp only at started
            split at started
            case h_1 => simpa using started
            case h_2 =>
              split at started
              · simpa using started
              · simpa using started

namespace Session

/-- Whatever a command starts is the first candidate that is there.  If the path of the candidate
has a slash, it is the very file that was found there before the command; if it has none, it is a
file of that name in one of the directories where the system looks. -/
theorem reach_of_started {session : Session} {tokens : List String} {program : Path}
    {location : Location}
    (started : .started program location ∈ (session.perform tokens).events) :
    (∃ name rest, tokens = name :: rest ∧
      (SearchPath.firstCandidate? session.world.machine session.world.searchPath name).map
        bytesOf = some program) ∧
    (Path.slash ∈ program → ∃ mode content,
      session.world.machine.reach program = .ok (.file location mode content)) ∧
    (Path.slash ∉ program → ∃ directory ∈ session.world.machine.programPath, ∃ mode content,
      session.world.machine.reach (Machine.pathIn directory program) =
        .ok (.file location mode content)) := by
  have inWorld : .started program location ∈
      (session.world.perform session.settings tokens).events := by
    unfold perform at started
    dsimp only at started
    split at started
    · exact started
    · simpa using started
  obtain ⟨name, rest, parsed, command, given, resolved, launched⟩ :=
    World.launch_of_started inWorld
  obtain ⟨rfl, path, among, mode, content, reached⟩ :=
    Redirection.Parsed.reach_of_started launched
  refine ⟨⟨name, rest, given, ?_⟩, ?_, ?_⟩
  · rw [SearchPath.firstCandidate?_of_resolve resolved]
    rfl
  · intro slash
    rw [Machine.programPaths, if_pos (List.contains_iff_mem.mpr slash)] at among
    obtain rfl := List.mem_singleton.mp among
    exact ⟨mode, content, reached⟩
  · intro plain
    rw [Machine.programPaths, if_neg (fun slash => plain (List.contains_iff_mem.mp slash))] at among
    obtain ⟨directory, listed, rfl⟩ := List.mem_map.mp among
    exact ⟨directory, listed, mode, content, reached⟩

end Session
end CommandShell
