/-
Module: CommandShell.Proofs.ProgramPath
Purpose: Sessions on machines that differ only in where the system itself looks for programs.
Trusted boundary: none
Main exports:
  Machine.withProgramPath, Session.withProgramPath, AttemptsByPath, Session.perform_withProgramPath,
  Session.run_withProgramPath, Session.attemptsByPath_executeLine, Session.programPath_unused
-/
import CommandShell.Proofs.History
import CommandShell.Proofs.StartedFile
import CommandShell.Source.Scripted

namespace CommandShell

/-!
The directories where the system looks for a program are read in one place only: to start a program
whose path has no slash.  So a session that makes no such attempt is the same on every machine that
differs in them.  An attempt of that kind comes of an empty directory in the search path.
-/

/-- The same machine with other directories where the system looks for programs. -/
def Machine.withProgramPath (machine : Machine) (directories : List Path) : Machine :=
  { machine with programPath := directories }

def World.withProgramPath (world : World) (directories : List Path) : World :=
  { world with machine := world.machine.withProgramPath directories }

def Session.withProgramPath (session : Session) (directories : List Path) : Session :=
  { session with world := session.world.withProgramPath directories }

def Step.withProgramPath {α : Type} (step : Step α) (directories : List Path) : Step α :=
  { step with session := step.session.withProgramPath directories }

/-- Every attempt to start a program is by a path with a slash, which the system does not look
for. -/
def AttemptsByPath (events : List Event) : Prop :=
  ∀ attempt ∈ attempts events, Path.slash ∈ attempt.program

theorem attemptsByPath_nil : AttemptsByPath [] :=
  fun _ none => (List.not_mem_nil none).elim

theorem attemptsByPath_append {one other : List Event} :
    AttemptsByPath (one ++ other) ↔ AttemptsByPath one ∧ AttemptsByPath other := by
  simp only [AttemptsByPath, attempts_append, List.forall_mem_append]

namespace Machine

variable (machine : Machine) (directories : List Path)

/-- Changing the directory does not look for a program. -/
theorem changeDirectory_withProgramPath (path : Path) :
    (machine.withProgramPath directories).changeDirectory path =
      (machine.changeDirectory path).map fun next => next.withProgramPath directories := by
  unfold changeDirectory reach withProgramPath
  dsimp only
  cases machine.files.locate .reach machine.directory path with
  | error error => rfl
  | ok found =>
      cases found with
      | file location mode content => rfl
      | vacant parent name => rfl
      | directory place =>
          dsimp only
          split <;> rfl

/-- Nor does opening a target. -/
theorem openTarget_withProgramPath (mode : Mode) (path : Path) :
    (machine.withProgramPath directories).openTarget mode path =
      (machine.openTarget mode path).map fun opened =>
        (opened.1, opened.2.withProgramPath directories) := by
  unfold openTarget withProgramPath
  dsimp only
  cases machine.files.locate .create machine.directory path with
  | error error => rfl
  | ok found =>
      cases found with
      | directory place => rfl
      | vacant parent name =>
          dsimp only
          split <;> rfl
      | file location old content =>
          dsimp only
          split <;> rfl

/-- Nor does appending to one. -/
theorem append_withProgramPath (path : Path) (bytes : Bytes) :
    (machine.withProgramPath directories).append path bytes =
      (machine.append path bytes).map fun next => next.withProgramPath directories := by
  unfold append reach withProgramPath
  dsimp only
  cases machine.files.locate .reach machine.directory path with
  | error error => rfl
  | ok found =>
      cases found with
      | directory place => rfl
      | vacant parent name => rfl
      | file location mode content =>
          dsimp only
          split <;> rfl

/-- Nor does writing to a file that is open. -/
theorem overwrite_withProgramPath (location : Location) (offset : Nat) (bytes : Bytes) :
    (machine.withProgramPath directories).overwrite location offset bytes =
      (machine.overwrite location offset bytes).withProgramPath directories := by
  unfold overwrite withProgramPath
  dsimp only
  split <;> rfl

/-- A program is run from its path, and an interpreter from its own, without any search. -/
theorem programWithin_withProgramPath (writing : List Location) (files : Nat) (path : Path) :
    (machine.withProgramPath directories).programWithin writing files path =
      machine.programWithin writing files path := by
  induction files generalizing path with
  | zero => rfl
  | succ files ih =>
      unfold programWithin
      simp only [ih]
      rfl

/-- A program whose path has a slash is found without the directories. -/
theorem findProgram_withProgramPath {path : Path} (slash : Path.slash ∈ path)
    (writing : List Location) :
    (machine.withProgramPath directories).findProgram writing path =
      machine.findProgram writing path := by
  have direct : path.contains Path.slash = true := List.contains_iff_mem.mpr slash
  rw [findProgram, findProgram, if_pos direct, if_pos direct, programAt, programAt,
    programWithin_withProgramPath]

end Machine

/-- The search path of the shell is not the one of the system: a resolution does not ask for the
latter. -/
theorem SearchPath.resolve_withProgramPath (machine : Machine) (directories : List Path)
    (limit : Nat) (name : String) (searchPath : SearchPath) :
    resolve (machine.withProgramPath directories) limit name searchPath =
      resolve machine limit name searchPath := by
  induction searchPath with
  | nil => rfl
  | cons directory rest ih =>
      rw [resolve, resolve, ih]
      rfl

namespace Launch

variable (machine : Machine) (directories : List Path)

/-- Connecting the streams of a program leaves the directories of the system and does not ask for
them. -/
theorem openTargets_withProgramPath (mode : Mode) (wiring : Wiring) (setups : List Setup) :
    openTargets mode (machine.withProgramPath directories) wiring setups =
      let opening := openTargets mode machine wiring setups
      { opening with machine := opening.machine.withProgramPath directories } := by
  induction setups generalizing machine wiring with
  | nil => rfl
  | cons setup rest ih =>
      rw [openTargets, openTargets, Machine.openTarget_withProgramPath]
      cases machine.openTarget mode setup.path with
      | error cause => rfl
      | ok opened => exact ih opened.2 _

/-- So does passing on what a program writes. -/
theorem deliver_withProgramPath (wiring : Wiring) (offset : Stream → Nat)
    (writes : List (Stream × Bytes)) :
    deliver wiring (machine.withProgramPath directories) offset writes =
      let delivery := deliver wiring machine offset writes
      { delivery with machine := delivery.machine.withProgramPath directories } := by
  induction writes generalizing machine offset with
  | nil => rfl
  | cons piece rest ih =>
      obtain ⟨stream, bytes⟩ := piece
      rw [deliver, deliver]
      cases wiring.file? stream with
      | some file =>
          dsimp only
          rw [Machine.overwrite_withProgramPath, ih]
      | none =>
          dsimp only
          rw [ih]

/-- A program whose path has a slash is found or missed alike. -/
theorem Plan.find_withProgramPath {plan : Plan} (slash : Path.slash ∈ plan.program)
    (wiring : Wiring) :
    plan.find (machine.withProgramPath directories) wiring = plan.find machine wiring := by
  rw [find, find, Machine.findProgram_withProgramPath machine directories slash]

/-- A launch by a path with a slash, and one that comes to no attempt, is the same launch wherever
the system looks for programs. -/
theorem Plan.run_withProgramPath {plan : Plan} {mode : Mode}
    (byPath : AttemptsByPath (plan.run mode machine).events) :
    plan.run mode (machine.withProgramPath directories) =
      let launched := plan.run mode machine
      { launched with machine := launched.machine.withProgramPath directories } := by
  rw [AttemptsByPath, attempts_run, opening] at byPath
  rw [run, run, openTargets_withProgramPath]
  dsimp only
  cases opened : (openTargets mode machine {} plan.setups).failure with
  | some failure => rfl
  | none =>
      rw [opened] at byPath
      have slash : Path.slash ∈ plan.program :=
        byPath (plan.attempt (openTargets mode machine {} plan.setups).wiring)
          (List.mem_singleton.mpr rfl)
      dsimp only
      rw [find_withProgramPath _ _ slash]
      cases plan.find (openTargets mode machine {} plan.setups).machine
        (openTargets mode machine {} plan.setups).wiring with
      | ok executable =>
          dsimp only
          rw [deliver_withProgramPath]
          rfl
      | error cause =>
          dsimp only
          cases plan.errorTarget? with
          | none => rfl
          | some target =>
              dsimp only
              rw [Machine.append_withProgramPath]
              cases (openTargets mode machine {} plan.setups).machine.append target diagnostic with
              | ok last => rfl
              | error refusal => rfl

end Launch

namespace World

variable {world : World} {settings : Settings} (directories : List Path)

/-- No built-in command asks for the directories of the system. -/
theorem perform_builtin_withProgramPath (builtin : Builtin) (arguments : List String) :
    builtin.perform (world.withProgramPath directories) arguments =
      let effect := builtin.perform world arguments
      { effect with world := effect.world.withProgramPath directories } := by
  cases builtin with
  | exit => rfl
  | path => rfl
  | pwd =>
      have same : (world.withProgramPath directories).machine.workingDirectory =
          world.machine.workingDirectory := rfl
      dsimp only [Builtin.perform]
      rw [printDirectory, printDirectory, same]
      cases world.machine.workingDirectory with
      | ok path => rfl
      | error cause => rfl
  | cd =>
      dsimp only [Builtin.perform]
      unfold changeDirectory
      dsimp only [withProgramPath]
      cases arguments.head?.map bytesOf <|> world.home with
      | none => rfl
      | some target =>
          dsimp only
          rw [Machine.changeDirectory_withProgramPath]
          cases world.machine.changeDirectory target with
          | ok machine => rfl
          | error cause => rfl

theorem afterLaunch_withProgramPath (command : String) (earlier : List Event)
    (launched : Launch.Launched) :
    (world.withProgramPath directories).afterLaunch command earlier
        { launched with machine := launched.machine.withProgramPath directories } =
      let effect := world.afterLaunch command earlier launched
      { effect with world := effect.world.withProgramPath directories } := by
  unfold afterLaunch
  dsimp only
  cases launched.result with
  | ok status => rfl
  | error error => rfl

/-- The command of a program comes to the same if it attempts the program by a path. -/
theorem runProgram_withProgramPath {tokens : List String}
    (byPath : AttemptsByPath (world.runProgram settings tokens).events) :
    (world.withProgramPath directories).runProgram settings tokens =
      let effect := world.runProgram settings tokens
      { effect with world := effect.world.withProgramPath directories } := by
  unfold runProgram at byPath ⊢
  cases read : settings.redirection.parse tokens with
  | error error => rfl
  | ok parsed =>
      rw [read] at byPath
      obtain ⟨_ | ⟨command, arguments⟩, targets⟩ := parsed
      · rfl
      · dsimp only [withProgramPath] at byPath ⊢
        rw [SearchPath.resolve_withProgramPath]
        cases resolved :
            (SearchPath.resolve world.machine settings.candidateLimit command
              world.searchPath).result with
        | error error => rfl
        | ok program =>
            rw [resolved] at byPath
            dsimp only at byPath ⊢
            rw [AttemptsByPath, attempts_afterLaunch, List.forall_mem_append] at byPath
            rw [Launch.Plan.run_withProgramPath _ _ byPath.2]
            exact afterLaunch_withProgramPath directories command _ _

theorem perform_withProgramPath {tokens : List String}
    (byPath : AttemptsByPath (world.perform settings tokens).events) :
    (world.withProgramPath directories).perform settings tokens =
      let effect := world.perform settings tokens
      { effect with world := effect.world.withProgramPath directories } := by
  cases tokens with
  | nil => rfl
  | cons name arguments =>
      rw [perform] at byPath ⊢
      rw [perform]
      cases called : Builtin.ofName? name with
      | some builtin =>
          dsimp only
          rw [perform_builtin_withProgramPath]
      | none =>
          rw [called] at byPath
          exact runProgram_withProgramPath directories byPath

end World

namespace Session

/-- Carry out commands, one after the other, whatever comes of each. -/
def performAll (session : Session) :
    List (List String) → Step (List (Except CommandError Flow))
  | [] => ⟨[], session, []⟩
  | tokens :: rest =>
      let performed := session.perform tokens
      let later := performed.session.performAll rest
      ⟨performed.result :: later.result, later.session, performed.events ++ later.events⟩

variable {session : Session} (directories : List Path)

theorem perform_withProgramPath {tokens : List String}
    (byPath : AttemptsByPath (session.perform tokens).events) :
    (session.withProgramPath directories).perform tokens =
      (session.perform tokens).withProgramPath directories := by
  rw [AttemptsByPath, attempts_perform] at byPath
  have same := World.perform_withProgramPath directories byPath
  change (session.withProgramPath directories).world.perform
    (session.withProgramPath directories).settings tokens = _ at same
  rw [perform, perform, same]
  generalize session.world.perform session.settings tokens = effect
  dsimp only
  split <;> rfl

/-- A line comes to the same, its report included. -/
theorem executeLine_withProgramPath {line : String}
    (byPath : AttemptsByPath (session.executeLine line).events) :
    (session.withProgramPath directories).executeLine line =
      (session.executeLine line).withProgramPath directories := by
  rw [AttemptsByPath, attempts_executeLine, ← attempts_perform] at byPath
  unfold executeLine
  generalize tokenize line = tokens at byPath
  cases tokens with
  | nil => rfl
  | cons name arguments =>
      dsimp only
      rw [perform_withProgramPath directories byPath]
      dsimp only [Step.withProgramPath]
      cases (session.perform (name :: arguments)).result with
      | ok flow => rfl
      | error error => rfl

theorem showPrompt_withProgramPath (shownBySource : Bool) :
    (session.withProgramPath directories).showPrompt shownBySource =
      (session.showPrompt shownBySource).withProgramPath directories := by
  change showPrompt { session with world := _ } shownBySource = _
  unfold showPrompt
  dsimp only
  split
  · rfl
  · split <;> rfl

/-- Only lines start programs, so every answer comes to the same. -/
theorem answer_withProgramPath {reading : Reading}
    (byPath : AttemptsByPath (session.answer reading).events) :
    (session.withProgramPath directories).answer reading =
      (session.answer reading).withProgramPath directories := by
  cases reading with
  | line text =>
      rw [(session.answer_line text).2] at byPath
      unfold answer
      dsimp only
      rw [executeLine_withProgramPath directories byPath]
      dsimp only [Step.withProgramPath]
      cases (session.executeLine text).result with
      | proceed => rfl
      | exit => rfl
  | overflow => rfl
  | interrupted => rfl
  | finished => rfl
  | failed cause => rfl

/-- So does a turn, as its prompt starts nothing. -/
theorem turn_withProgramPath {shownBySource : Bool} {reading : Reading}
    (byPath : AttemptsByPath (session.turn shownBySource reading).events) :
    (session.withProgramPath directories).turn shownBySource reading =
      (session.turn shownBySource reading).withProgramPath directories := by
  unfold turn at byPath ⊢
  rw [showPrompt_withProgramPath]
  dsimp only [Step.withProgramPath] at byPath ⊢
  cases shown : (session.showPrompt shownBySource).result with
  | error error => rfl
  | ok value =>
      rw [shown] at byPath
      have answered := (attemptsByPath_append.mp byPath).2
      rw [AttemptsByPath, attempts_cons] at answered
      dsimp only
      rw [answer_withProgramPath directories answered]
      rfl

/-- Commands one after the other come to the same. -/
theorem performAll_withProgramPath {commands : List (List String)}
    (byPath : AttemptsByPath (session.performAll commands).events) :
    (session.withProgramPath directories).performAll commands =
      (session.performAll commands).withProgramPath directories := by
  induction commands generalizing session with
  | nil => rfl
  | cons tokens rest ih =>
      rw [performAll] at byPath ⊢
      rw [performAll]
      obtain ⟨first, later⟩ := attemptsByPath_append.mp byPath
      rw [perform_withProgramPath directories first]
      dsimp only [Step.withProgramPath]
      rw [ih later]
      rfl

/-- Lines that are known beforehand come to the same, up to one that leaves. -/
theorem sourceLines_withProgramPath {lines : List String}
    (byPath : AttemptsByPath (session.sourceLines lines).events) :
    (session.withProgramPath directories).sourceLines lines =
      (session.sourceLines lines).withProgramPath directories := by
  induction lines generalizing session with
  | nil => rfl
  | cons line rest ih =>
      rw [sourceLines] at byPath ⊢
      rw [sourceLines]
      dsimp only at byPath ⊢
      cases left : (session.executeLine line).result with
      | exit =>
          rw [left] at byPath
          rw [executeLine_withProgramPath directories byPath]
          dsimp only [Step.withProgramPath]
          rw [left]
      | proceed =>
          rw [left] at byPath
          obtain ⟨first, later⟩ := attemptsByPath_append.mp byPath
          rw [executeLine_withProgramPath directories first]
          dsimp only [Step.withProgramPath]
          rw [left]
          dsimp only
          rw [ih later]
          rfl

/-- A run comes to the same, over any source: the two answer the same readings, turn by turn. -/
theorem run_withProgramPath {σ : Type} [LineSource σ] {source : σ}
    (byPath : AttemptsByPath (session.run source).events) :
    (session.withProgramPath directories).run source =
      (session.run source).withProgramPath directories := by
  revert byPath
  apply run_induction (motive := fun session source step =>
    AttemptsByPath step.events →
      (session.withProgramPath directories).run source = step.withProgramPath directories)
  · intro session source result turned ended byPath
    rw [run_eq_turn, turn_withProgramPath directories byPath]
    dsimp only [Step.withProgramPath]
    rw [ended]
  · intro session source later turned more ih byPath
    obtain ⟨first, rest⟩ := attemptsByPath_append.mp byPath
    rw [run_eq_turn, turn_withProgramPath directories first]
    dsimp only [Step.withProgramPath]
    rw [more]
    dsimp only
    rw [ih rest]
    rfl

end Session

/-! ### Search paths without the empty directory -/

/-- The empty directory comes into the search path through an empty token only. -/
theorem World.empty_not_mem_perform {world : World} (named : "" ∉ world.searchPath)
    (settings : Settings) {tokens : List String} (full : "" ∉ tokens) :
    "" ∉ (world.perform settings tokens).world.searchPath := by
  have cases := world.perform_cases settings tokens
  generalize world.perform settings tokens = effect at cases
  cases cases with
  | replaced directories called => exact fun member => full (List.mem_cons_of_mem _ member)
  | moved => exact named
  | launched _ same => rw [same]; exact named
  | idle _ _ same => rw [same]; exact named

/-- With no empty directory in the search path, a command is attempted by a path with a slash. -/
theorem World.attemptsByPath_perform {world : World} (named : "" ∉ world.searchPath)
    (settings : Settings) (tokens : List String) :
    AttemptsByPath (world.perform settings tokens).events := by
  intro attempt member
  cases tokens with
  | nil => cases member
  | cons name rest =>
      rw [perform] at member
      cases external : Builtin.ofName? name with
      | some builtin =>
          rw [external, attempts_cons, attempts_builtin] at member
          cases member
      | none =>
          rw [external] at member
          rcases world.attempts_runProgram_eq_nil_or settings rest external with silent | launch
          · rw [silent] at member
            cases member
          · obtain ⟨parsed, program, launches⟩ := launch
            rw [attempts_runProgram_of launches] at member
            obtain rfl := List.mem_singleton.mp member
            exact SearchPath.slash_mem_firstCandidate? named
              (SearchPath.firstCandidate?_of_resolve launches.resolved)

namespace Session

/-- Commands without empty tokens attempt programs by their paths. -/
theorem attemptsByPath_performAll {session : Session} {commands : List (List String)}
    (named : "" ∉ session.world.searchPath) (full : ∀ tokens ∈ commands, "" ∉ tokens) :
    AttemptsByPath (session.performAll commands).events := by
  induction commands generalizing session with
  | nil => exact attemptsByPath_nil
  | cons tokens rest ih =>
      refine attemptsByPath_append.mpr ⟨?_, ih ?_ ?_⟩
      · rw [AttemptsByPath, attempts_perform]
        exact World.attemptsByPath_perform named _ tokens
      · rw [world_perform]
        exact World.empty_not_mem_perform named _ (full tokens List.mem_cons_self)
      · exact fun other member => full other (List.mem_cons_of_mem tokens member)

theorem attempts_showPrompt (session : Session) (shownBySource : Bool) :
    attempts (session.showPrompt shownBySource).events = [] := by
  apply List.filterMap_eq_nil_iff.mpr
  intro event member
  rcases of_mem_showPrompt member with ⟨write, rfl⟩ | ⟨succeeded, rfl⟩
  · rfl
  · rfl

/-- A line has no empty tokens: it attempts by a path, and leaves a search path like that. -/
theorem attemptsByPath_executeLine {session : Session} (named : "" ∉ session.world.searchPath)
    (line : String) :
    AttemptsByPath (session.executeLine line).events ∧
      "" ∉ (session.executeLine line).session.world.searchPath := by
  rw [AttemptsByPath, attempts_executeLine, world_executeLine]
  refine ⟨World.attemptsByPath_perform named _ _, World.empty_not_mem_perform named _ ?_⟩
  intro empty
  exact tokenize_ne_empty empty rfl

/-- So does every answer. -/
theorem attemptsByPath_answer {session : Session} (named : "" ∉ session.world.searchPath)
    (reading : Reading) :
    AttemptsByPath (session.answer reading).events ∧
      "" ∉ (session.answer reading).session.world.searchPath := by
  cases reading with
  | line text =>
      rw [(session.answer_line text).1, (session.answer_line text).2]
      exact attemptsByPath_executeLine named text
  | overflow => exact ⟨attemptsByPath_nil, named⟩
  | interrupted => exact ⟨attemptsByPath_nil, named⟩
  | finished => exact ⟨attemptsByPath_nil, named⟩
  | failed cause => exact ⟨attemptsByPath_nil, named⟩

/-- Lines have no empty tokens.  So no line brings the empty directory into a search path that does
not have it, and no program is left to the system to look for. -/
theorem History.attemptsByPath {first session : Session} {handled : List Handled}
    {events : List Event} (history : first.History handled session events)
    (named : "" ∉ first.world.searchPath) :
    AttemptsByPath events ∧ "" ∉ session.world.searchPath := by
  induction history with
  | start => exact ⟨attemptsByPath_nil, named⟩
  | sourced line before ih =>
      obtain ⟨executed, kept⟩ := attemptsByPath_executeLine ih.2 line
      exact ⟨attemptsByPath_append.mpr ⟨ih.1, executed⟩, kept⟩
  | @prompted _ session _ shownBySource before ih =>
      rw [world_showPrompt]
      refine ⟨attemptsByPath_append.mpr ⟨ih.1, ?_⟩, ih.2⟩
      rw [AttemptsByPath, attempts_showPrompt]
      exact attemptsByPath_nil
  | answered reading before ih =>
      obtain ⟨answered, kept⟩ := attemptsByPath_answer ih.2 reading
      exact ⟨attemptsByPath_append.mpr ⟨ih.1, answered⟩, kept⟩

/-- As long as every attempt is by a path with a slash, sessions that differ only in where the
system looks for programs are the same in all else: in their results, their events, and what they
leave.  Without an empty directory in the search path, and without one being set, they make no other
attempt.  What is started by such a path is the very file that the search for the command has found;
what is started by a path without a slash is whatever the system finds by that name. -/
theorem programPath_unused (session : Session) (directories : List Path) :
    (∀ commands, AttemptsByPath (session.performAll commands).events →
      (session.withProgramPath directories).performAll commands =
        (session.performAll commands).withProgramPath directories) ∧
    (∀ lines, AttemptsByPath (session.sourceLines lines).events →
      (session.withProgramPath directories).sourceLines lines =
        (session.sourceLines lines).withProgramPath directories) ∧
    (∀ (σ : Type) [LineSource σ] (source : σ), AttemptsByPath (session.run source).events →
      (session.withProgramPath directories).run source =
        (session.run source).withProgramPath directories) ∧
    ("" ∉ session.world.searchPath →
      (∀ commands, (∀ tokens ∈ commands, "" ∉ tokens) →
        AttemptsByPath (session.performAll commands).events) ∧
      (∀ lines, AttemptsByPath (session.sourceLines lines).events) ∧
      ∀ (σ : Type) [LineSource σ] (source : σ), AttemptsByPath (session.run source).events) ∧
    ∀ tokens program location, .started program location ∈ (session.perform tokens).events →
      (∃ name rest, tokens = name :: rest ∧
        (SearchPath.firstCandidate? session.world.machine session.world.searchPath name).map
          bytesOf = some program) ∧
      (Path.slash ∈ program → ∃ mode content,
        session.world.machine.reach program = .ok (.file location mode content)) ∧
      (Path.slash ∉ program → ∃ directory ∈ session.world.machine.programPath, ∃ mode content,
        session.world.machine.reach (Machine.pathIn directory program) =
          .ok (.file location mode content)) := by
  refine ⟨?_, ?_, ?_, ?_, ?_⟩
  · intro commands byPath
    exact performAll_withProgramPath directories byPath
  · intro lines byPath
    exact sourceLines_withProgramPath directories byPath
  · intro σ _ source byPath
    exact run_withProgramPath directories byPath
  · intro named
    refine ⟨fun commands full => attemptsByPath_performAll named full, ?_, ?_⟩
    · intro lines
      obtain ⟨_, history, _⟩ := History.start.sourceLines lines
      exact (history.attemptsByPath named).1
    · intro σ _ source
      obtain ⟨_, history, _⟩ := History.start.run source
      exact (history.attemptsByPath named).1
  · intro tokens program location started
    exact reach_of_started started

/-- A session in the root directory of a machine with two programs of one name: one there, and one
in a directory where the system may be told to look. -/
def withTwoPrograms (searchPath : SearchPath) : Session where
  world.searchPath := searchPath
  world.machine.files := ⟨[
    ([bytesOf "tool"],
      .file 0o755 (.program (ScriptedProgram.program { output := bytesOf "here\n" }))),
    ([bytesOf "envbin"], .directory 0o755),
    ([bytesOf "envbin", bytesOf "tool"],
      .file 0o755 (.program (ScriptedProgram.program { output := bytesOf "there\n" })))]⟩

/-- With the root directory in the search path, its program runs wherever the system looks. -/
theorem programPath_unused_root :
    let session := withTwoPrograms ["/"]
    let directories := [bytesOf "/envbin"]
    let other := session.withProgramPath directories
    "" ∉ session.world.searchPath ∧
      other.performAll [["tool"], ["pwd"]] =
        (session.performAll [["tool"], ["pwd"]]).withProgramPath directories ∧
      other.sourceLines ["tool > r", "path /envbin"] =
        (session.sourceLines ["tool > r", "path /envbin"]).withProgramPath directories ∧
      other.run (ScriptedSource.mk false [.line "tool"]) =
        (session.run (ScriptedSource.mk false [.line "tool"])).withProgramPath directories ∧
      programsWrote .output (session.performAll [["tool"], ["pwd"]]).events = bytesOf "here\n" ∧
      .started (bytesOf "/tool") [bytesOf "tool"] ∈ (session.perform ["tool"]).events ∧
      ∃ mode content, session.world.machine.reach (bytesOf "/tool") =
        .ok (.file [bytesOf "tool"] mode content) := by
  intro session directories other
  obtain ⟨performed, sourced, ran, named, started⟩ := programPath_unused session directories
  have noEmpty : "" ∉ session.world.searchPath := by decide
  obtain ⟨commands, lines, source⟩ := named noEmpty
  have starts : .started (bytesOf "/tool") [bytesOf "tool"] ∈ (session.perform ["tool"]).events := by
    decide
  refine ⟨noEmpty, performed _ (commands _ (by decide)), sourced _ (lines _), ran _ _ (source _ _),
    by decide, starts, ?_⟩
  exact (started _ _ _ starts).2.1 (by decide)

/-- With the empty directory in the search path, the same file is found, but what is started is what
the system finds, and nothing is if it is told to look nowhere. -/
theorem programPath_used_empty :
    let session := withTwoPrograms [""]
    let directories := [bytesOf "/envbin"]
    let other := session.withProgramPath directories
    (session.perform ["tool"]).result =
        .error (.launch (.start (bytesOf "tool") (.system .missing))) ∧
      (other.perform ["tool"]).result = .ok .proceed ∧
      other.performAll [["tool"]] ≠
        (session.performAll [["tool"]]).withProgramPath directories ∧
      (SearchPath.firstCandidate? other.world.machine other.world.searchPath "tool") =
        some "tool" ∧
      (∃ mode content, other.world.machine.reach (bytesOf "tool") =
        .ok (.file [bytesOf "tool"] mode content)) ∧
      .started (bytesOf "tool") [bytesOf "envbin", bytesOf "tool"] ∈
        (other.perform ["tool"]).events := by
  intro session directories other
  have missed : (session.perform ["tool"]).result =
      .error (.launch (.start (bytesOf "tool") (.system .missing))) := rfl
  have found : (other.perform ["tool"]).result = .ok .proceed := rfl
  refine ⟨missed, found, ?_, by decide, ⟨0o755, .program _, rfl⟩, by decide⟩
  intro same
  have results := congrArg Step.result same
  change [(other.perform ["tool"]).result] = [(session.perform ["tool"]).result] at results
  rw [missed, found] at results
  cases results

end Session
end CommandShell
