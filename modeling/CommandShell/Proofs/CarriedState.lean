/-
Module: CommandShell.Proofs.CarriedState
Purpose: What a session carries from line to line: search path, home and working directory.
Trusted boundary: none
Main exports:
  World.Keeps, World.Enters, World.Performs, World.perform_cases, searchPathSet?, lastSearchPath,
  Handled.after, Handled.Tracks, Handled.Leads, Session.carried_of_history
-/
import CommandShell.Proofs.ExecutedLines
import CommandShell.Proofs.OpenedTarget

namespace CommandShell

namespace Machine

variable {machine next : Machine} {mode : Mode} {path : Path} {location : Location}
  {bytes : Bytes}

/-- Opening a target leaves everything of the machine but its files. -/
theorem openTarget_changes_files (opened : machine.openTarget mode path = .ok (location, next)) :
    ∃ files, next = { machine with files } := by
  obtain ⟨_, current, rfl⟩ := put_of_openTarget opened
  exact ⟨_, rfl⟩

/-- So does appending to a file by its path. -/
theorem append_changes_files (appended : machine.append path bytes = .ok next) :
    ∃ files, next = { machine with files } := by
  unfold append at appended
  split at appended
  case h_1 =>
    split at appended
    case isTrue => cases appended; exact ⟨_, rfl⟩
    case isFalse => cases appended
  case h_2 => cases appended
  case h_3 => cases appended
  case h_4 => cases appended

/-- So does writing into a file that is open. -/
theorem overwrite_changes_files (machine : Machine) (location : Location) (offset : Nat)
    (bytes : Bytes) : ∃ files, machine.overwrite location offset bytes = { machine with files } := by
  unfold overwrite
  split
  case h_1 => exact ⟨_, rfl⟩
  case h_2 => exact ⟨machine.files, rfl⟩

/-- Only a directory that is there and may be searched can be changed to. -/
theorem changeDirectory_eq_ok_iff :
    machine.changeDirectory path = .ok next ↔
      ∃ place, machine.reach path = .ok (.directory place) ∧
        machine.files.searchable place = true ∧ next = { machine with directory := place } := by
  constructor
  · intro changed
    unfold changeDirectory at changed
    split at changed
    case h_1 place reached =>
      split at changed
      case isTrue search => cases changed; exact ⟨place, reached, search, rfl⟩
      case isFalse => cases changed
    case h_2 => cases changed
    case h_3 => cases changed
    case h_4 => cases changed
  · rintro ⟨place, reached, search, rfl⟩
    rw [changeDirectory, reached]
    exact if_pos search

end Machine

namespace Launch

/-- Connecting streams to any number of targets changes files only. -/
theorem openTargets_changes_files (mode : Mode) (machine : Machine) (wiring : Wiring)
    (setups : List Setup) :
    ∃ files, (openTargets mode machine wiring setups).machine = { machine with files } := by
  induction setups generalizing machine wiring with
  | nil => exact ⟨machine.files, rfl⟩
  | cons setup rest ih =>
      rw [openTargets]
      cases opened : machine.openTarget mode setup.path with
      | error cause => exact ⟨machine.files, rfl⟩
      | ok made =>
          obtain ⟨location, next⟩ := made
          obtain ⟨files, rfl⟩ := Machine.openTarget_changes_files opened
          exact ih _ _

/-- Whatever a program writes, and wherever its streams lead, only files change. -/
theorem deliver_changes_files (wiring : Wiring) (machine : Machine) (offset : Stream → Nat)
    (writes : List (Stream × Bytes)) :
    ∃ files, (deliver wiring machine offset writes).machine = { machine with files } := by
  induction writes generalizing machine offset with
  | nil => exact ⟨machine.files, rfl⟩
  | cons piece rest ih =>
      obtain ⟨stream, bytes⟩ := piece
      rw [deliver]
      split
      case h_1 file _ =>
        obtain ⟨files, same⟩ :=
          machine.overwrite_changes_files file.location (offset stream) bytes
        rw [same]
        exact ih _ _
      case h_2 => exact ih _ _

/-- Whatever becomes of a launch, it leaves the machine as it was but for the files. -/
theorem Plan.run_changes_files (plan : Plan) (mode : Mode) (machine : Machine) :
    ∃ files, (plan.run mode machine).machine = { machine with files } := by
  obtain ⟨opened, same⟩ := openTargets_changes_files mode machine {} plan.setups
  change (plan.opening mode machine).machine = _ at same
  have cases := plan.run_cases mode machine
  generalize plan.run mode machine = launched at cases
  cases cases with
  | closed => exact ⟨opened, same⟩
  | @started executable behaviour delivery _ _ _ delivered =>
      obtain ⟨files, written⟩ := deliver_changes_files (plan.opening mode machine).wiring
        (plan.opening mode machine).machine (fun _ => 0) behaviour.writes
      rw [delivered, same] at written
      exact ⟨files, written⟩
  | unstarted => exact ⟨opened, same⟩
  | diverted _ _ _ told =>
      obtain ⟨files, written⟩ := Machine.append_changes_files told
      rw [same] at written
      exact ⟨files, written⟩
  | untold => exact ⟨opened, same⟩

end Launch

/-! ### Commands -/

namespace World

variable {world : World} {settings : Settings}

/-- The command goes to this directory: to the one it names first, whatever follows, or home if it
names none.  It does so only if the system lets the shell change to it. -/
inductive Enters (world : World) : List String → Place → Prop where
  | named {name directory : String} {rest : List String} {place : Place}
      (called : Builtin.ofName? name = some .cd)
      (changed : world.machine.changeDirectory (bytesOf directory) =
        .ok { world.machine with directory := place }) :
      world.Enters (name :: directory :: rest) place
  | home {name : String} {home : Path} {place : Place}
      (called : Builtin.ofName? name = some .cd) (known : world.home = some home)
      (changed : world.machine.changeDirectory home =
        .ok { world.machine with directory := place }) :
      world.Enters [name] place

/-- The search path, home and the working directory are the same. -/
structure Keeps (world after : World) : Prop where
  searchPath : after.searchPath = world.searchPath
  home : after.home = world.home
  directory : after.machine.directory = world.machine.directory

theorem Keeps.refl (world : World) : world.Keeps world := ⟨rfl, rfl, rfl⟩

/-- What a command can do to the world: replace the search path, enter a directory, change files,
or nothing.  The first two always succeed and print nothing. -/
inductive Performs (world : World) : List String → Effect → Prop where
  | replaced {name : String} (directories : List String)
      (called : Builtin.ofName? name = some .path) :
      world.Performs (name :: directories)
        { world := { world with searchPath := directories }
          outcome := .ok .proceed
          events := [.dispatched .path] }
  | moved {tokens : List String} {place : Place} (enters : world.Enters tokens place) :
      world.Performs tokens
        { world := { world with machine := { world.machine with directory := place } }
          outcome := .ok .proceed
          events := [.dispatched .cd, .moved place] }
  | launched {name : String} {rest : List String} {effect : Effect} {files : FileSystem}
      (external : Builtin.ofName? name = none)
      (same : effect.world = { world with machine := { world.machine with files } }) :
      world.Performs (name :: rest) effect
  | idle {tokens : List String} {effect : Effect}
      (other : ∀ name directories, tokens = name :: directories →
        Builtin.ofName? name ≠ some .path)
      (stays : ∀ place, ¬ world.Enters tokens place) (same : effect.world = world) :
      world.Performs tokens effect

/-- Only `cd` enters a directory. -/
theorem Enters.called {name : String} {arguments : List String} {place : Place}
    (enters : world.Enters (name :: arguments) place) : Builtin.ofName? name = some .cd := by
  cases enters with
  | named called => exact called
  | home called => exact called

/-- A command enters the directory that it asks to change to. -/
theorem enters_iff {name : String} {arguments : List String} {place : Place}
    (called : Builtin.ofName? name = some .cd) :
    world.Enters (name :: arguments) place ↔
      ∃ target, (arguments.head?.map bytesOf <|> world.home) = some target ∧
        world.machine.changeDirectory target = .ok { world.machine with directory := place } := by
  constructor
  · intro enters
    cases enters with
    | named _ changed => exact ⟨_, rfl, changed⟩
    | home _ known changed => exact ⟨_, known, changed⟩
  · intro goal
    obtain ⟨target, named, changed⟩ := goal
    cases arguments with
    | nil => exact .home called named changed
    | cons directory rest =>
        cases named
        exact .named called changed

/-- No command enters two directories. -/
theorem Enters.unique {tokens : List String} {one other : Place} (enters : world.Enters tokens one)
    (enters' : world.Enters tokens other) : one = other := by
  cases tokens with
  | nil => cases enters
  | cons name arguments =>
      obtain ⟨target, goal, changed⟩ := (enters_iff enters.called).mp enters
      obtain ⟨target', goal', changed'⟩ := (enters_iff enters.called).mp enters'
      cases goal.symm.trans goal'
      exact congrArg Machine.directory (Except.ok.inj (changed.symm.trans changed'))

/-- The command of a program changes the files of the machine and nothing else of the world. -/
theorem exists_files_runProgram (world : World) (settings : Settings) (name : String)
    (rest : List String) :
    ∃ files, (world.runProgram settings (name :: rest)).world =
      { world with machine := { world.machine with files } } := by
  have cases := world.runProgram_cases settings name rest
  generalize world.runProgram settings (name :: rest) = effect at cases
  cases cases with
  | refused => exact ⟨world.machine.files, rfl⟩
  | unresolved => exact ⟨world.machine.files, rfl⟩
  | @launched parsed program =>
      obtain ⟨files, same⟩ :=
        (parsed.plan program).run_changes_files settings.targetMode world.machine
      refine ⟨files, ?_⟩
      unfold afterLaunch
      dsimp only
      rw [same]
      split <;> rfl

/-- There is nothing else that a command can do to the world. -/
theorem perform_cases (world : World) (settings : Settings) (tokens : List String) :
    world.Performs tokens (world.perform settings tokens) := by
  cases tokens with
  | nil =>
      refine .idle ?_ ?_ rfl
      · intro name directories none
        cases none
      · intro place enters
        cases enters
  | cons name arguments =>
      rw [perform]
      cases called : Builtin.ofName? name with
      | none =>
          obtain ⟨files, same⟩ := world.exists_files_runProgram settings name arguments
          exact .launched called same
      | some builtin =>
          have other : builtin ≠ .path → ∀ name' directories,
              name :: arguments = name' :: directories → Builtin.ofName? name' ≠ some .path := by
            intro different name' directories same path
            obtain ⟨rfl, _⟩ := List.cons.inj same
            exact different (Option.some.inj (called.symm.trans path))
          have stays : builtin ≠ .cd → ∀ place, ¬ world.Enters (name :: arguments) place := by
            intro different place enters
            exact different (Option.some.inj (called.symm.trans enters.called))
          cases builtin with
          | exit => exact .idle (other (by decide)) (stays (by decide)) rfl
          | path => exact .replaced arguments called
          | pwd =>
              refine .idle (other (by decide)) (stays (by decide)) ?_
              dsimp only [Builtin.perform]
              unfold printDirectory
              split <;> rfl
          | cd =>
              dsimp only [Builtin.perform]
              unfold changeDirectory
              split
              case h_1 homeless =>
                refine .idle (other (by decide)) ?_ rfl
                intro place enters
                obtain ⟨target, goal, _⟩ := (enters_iff called).mp enters
                cases homeless.symm.trans goal
              case h_2 target goal =>
                cases changed : world.machine.changeDirectory target with
                | ok machine =>
                    obtain ⟨place, _, _, rfl⟩ := Machine.changeDirectory_eq_ok_iff.mp changed
                    exact .moved ((enters_iff called).mpr ⟨target, goal, changed⟩)
                | error cause =>
                    refine .idle (other (by decide)) ?_ rfl
                    intro place enters
                    obtain ⟨_, named, entered⟩ := (enters_iff called).mp enters
                    cases goal.symm.trans named
                    cases changed.symm.trans entered

/-- A command other than `path` that enters no directory keeps all three. -/
theorem Performs.keeps {tokens : List String} {effect : Effect}
    (performs : world.Performs tokens effect)
    (other : ∀ name directories, tokens = name :: directories → Builtin.ofName? name ≠ some .path)
    (stays : ∀ place, ¬ world.Enters tokens place) : world.Keeps effect.world := by
  cases performs with
  | replaced directories called => exact absurd called (other _ _ rfl)
  | moved enters => exact absurd enters (stays _)
  | launched _ same => rw [same]; exact ⟨rfl, rfl, rfl⟩
  | idle _ _ same => rw [same]; exact .refl world

/-- So does every command that calls no built-in one. -/
theorem Performs.keeps_of_external {name : String} {rest : List String} {effect : Effect}
    (performs : world.Performs (name :: rest) effect) (external : Builtin.ofName? name = none) :
    world.Keeps effect.world := by
  apply performs.keeps
  · intro name' directories same path
    obtain ⟨rfl, _⟩ := List.cons.inj same
    cases external.symm.trans path
  · intro place enters
    cases external.symm.trans enters.called

/-- A directory that is entered is the working directory then. -/
theorem Performs.directory_of_enters {tokens : List String} {effect : Effect} {place : Place}
    (performs : world.Performs tokens effect) (enters : world.Enters tokens place) :
    effect.world.machine.directory = place := by
  cases performs with
  | replaced directories called => cases called.symm.trans enters.called
  | @moved _ entered enters' => exact enters'.unique enters
  | launched external => cases external.symm.trans enters.called
  | idle _ stays => exact absurd enters (stays place)

/-- The working directory stays where no directory is entered. -/
theorem Performs.directory_of_stays {tokens : List String} {effect : Effect}
    (performs : world.Performs tokens effect) (stays : ∀ place, ¬ world.Enters tokens place) :
    effect.world.machine.directory = world.machine.directory := by
  cases performs with
  | replaced => rfl
  | moved enters => exact absurd enters (stays _)
  | launched _ same => rw [same]
  | idle _ _ same => rw [same]

/-- No command changes home. -/
theorem Performs.home_eq {tokens : List String} {effect : Effect}
    (performs : world.Performs tokens effect) : effect.world.home = world.home := by
  cases performs with
  | replaced => rfl
  | moved => rfl
  | launched _ same => rw [same]
  | idle _ _ same => rw [same]

end World

/-- The directories that a line sets the search path to: all tokens after the first, as they are,
if that one calls `path`. -/
def searchPathSet? (line : String) : Option SearchPath :=
  match tokenize line with
  | [] => none
  | name :: directories => if name = Builtin.path.name then some directories else none

/-- The search path that is left by lines, one after the other: the one set last. -/
def lastSearchPath (initial : SearchPath) (lines : List String) : SearchPath :=
  (lines.filterMap searchPathSet?).getLast?.getD initial

/-- Lines given later start from the search path that the earlier ones leave. -/
theorem lastSearchPath_append (initial : SearchPath) (one other : List String) :
    lastSearchPath initial (one ++ other) =
      lastSearchPath (lastSearchPath initial one) other := by
  unfold lastSearchPath
  rw [List.filterMap_append, List.getLast?_append]
  cases (other.filterMap searchPathSet?).getLast? with
  | none => rfl
  | some directories => rfl

/-- One line sets the search path or leaves it. -/
theorem lastSearchPath_singleton (initial : SearchPath) (line : String) :
    lastSearchPath initial [line] = (searchPathSet? line).getD initial := by
  unfold lastSearchPath
  cases set : searchPathSet? line with
  | none => rw [List.filterMap_cons_none set]; rfl
  | some directories => rw [List.filterMap_cons_some set]; rfl

/-- A line that does not call `path` sets no search path. -/
theorem searchPathSet?_eq_none {line : String}
    (other : ∀ name directories, tokenize line = name :: directories →
      Builtin.ofName? name ≠ some .path) : searchPathSet? line = none := by
  unfold searchPathSet?
  split
  case h_1 => rfl
  case h_2 name directories tokens =>
    apply if_neg
    intro path
    exact other name directories tokens (Builtin.ofName?_eq_some_iff.mpr path)

/-- A line that calls `path` sets the tokens after it, as they are. -/
theorem searchPathSet?_of_path {line name : String} {directories : List String}
    (tokens : tokenize line = name :: directories) (called : Builtin.ofName? name = some .path) :
    searchPathSet? line = some directories := by
  unfold searchPathSet?
  rw [tokens]
  exact if_pos (Builtin.ofName?_eq_some_iff.mp called)

/-- A line sets the search path exactly if it calls `path`. -/
theorem World.Performs.searchPath_eq {world : World} {line : String} {effect : Effect}
    (performs : world.Performs (tokenize line) effect) :
    effect.world.searchPath = (searchPathSet? line).getD world.searchPath := by
  generalize given : tokenize line = tokens at performs
  cases performs with
  | replaced directories called => rw [searchPathSet?_of_path given called, Option.getD_some]
  | moved enters =>
      rw [searchPathSet?_eq_none, Option.getD_none]
      intro name directories same path
      rw [← given, same] at enters
      cases path.symm.trans enters.called
  | launched external same =>
      rw [same, searchPathSet?_eq_none, Option.getD_none]
      intro name directories same path
      obtain ⟨rfl, _⟩ := List.cons.inj (given.symm.trans same)
      cases path.symm.trans external
  | idle other _ same =>
      rw [same, searchPathSet?_eq_none, Option.getD_none]
      intro name directories same
      exact other name directories (given.symm.trans same)

namespace Session

/-- In a session a command does to the world what it does to it anywhere. -/
theorem world_perform (session : Session) (tokens : List String) :
    (session.perform tokens).session.world =
      (session.world.perform session.settings tokens).world := by
  unfold perform
  dsimp only
  split <;> rfl

/-- What a line does to the world is what its tokens do to it; printing and reporting do not touch
it. -/
theorem world_executeLine (session : Session) (line : String) :
    (session.executeLine line).session.world =
      (session.world.perform session.settings (tokenize line)).world := by
  have cases := session.executeLine_cases line
  generalize session.executeLine line = executed at cases
  cases cases with
  | blank blank => rw [blank]; rfl
  | succeeded => exact session.world_perform _
  | failed => exact session.world_perform _

/-- A prompt does nothing to the world. -/
theorem world_showPrompt (session : Session) (shownBySource : Bool) :
    (session.showPrompt shownBySource).session.world = session.world := by
  obtain ⟨out, same⟩ := session.session_showPrompt shownBySource
  rw [same]

/-- An answer that delivers no line leaves the whole world alone. -/
theorem world_answer_of_line?_eq_none {session : Session} {reading : Reading}
    (none : reading.line? = none) : (session.answer reading).session.world = session.world := by
  cases reading with
  | line text => cases none
  | _ => rfl

/-- A command that fails keeps search path, home and working directory. -/
theorem keeps_of_failed {session : Session} {tokens : List String} {error : CommandError}
    (failed : (session.perform tokens).result = .error error) :
    session.world.Keeps (session.perform tokens).session.world := by
  rw [world_perform]
  have performs := session.world.perform_cases session.settings tokens
  unfold perform at failed
  generalize session.world.perform session.settings tokens = effect at performs failed
  apply performs.keeps
  · intro name directories same path
    cases performs with
    | replaced => cases failed
    | moved => cases failed
    | launched external =>
        obtain ⟨rfl, _⟩ := List.cons.inj same
        cases path.symm.trans external
    | idle other => exact other name directories same path
  · intro place enters
    cases performs with
    | replaced => cases failed
    | moved => cases failed
    | launched external => cases external.symm.trans enters.called
    | idle _ stays => exact stays place enters

end Session

/-! ### Histories -/

namespace Handled

/-- The world once the answer has been handled. -/
def after (handled : Handled) : World :=
  (handled.session.answer handled.reading).session.world

/-- The answer is a line that goes to this directory. -/
def Enters (handled : Handled) (place : Place) : Prop :=
  ∃ line, handled.reading = .line line ∧ handled.session.world.Enters (tokenize line) place

/-- The world after a line is what the tokens of the line make of it. -/
theorem after_line (session : Session) (line : String) :
    after ⟨session, .line line⟩ =
      (session.world.perform session.settings (tokenize line)).world := by
  rw [after, (session.answer_line line).1, Session.world_executeLine]

/-- What an answer that is handled has to do with search path, home and working directory. -/
structure Tracks (handled : Handled) : Prop where
  /-- A line that goes to a directory makes it the working directory. -/
  entered : ∀ place, handled.Enters place → handled.after.machine.directory = place
  /-- Nothing else changes the working directory. -/
  stayed : (∀ place, ¬ handled.Enters place) →
    handled.after.machine.directory = handled.session.world.machine.directory
  /-- A line that fails keeps all three, whichever way it fails. -/
  failed : ∀ line error, handled.reading = .line line →
    (handled.session.perform (tokenize line)).result = .error error →
    handled.session.world.Keeps handled.after
  /-- So does a line for a program, redirected or not, whatever becomes of the program. -/
  external : ∀ line name rest, handled.reading = .line line → tokenize line = name :: rest →
    Builtin.ofName? name = none → handled.session.world.Keeps handled.after
  /-- A blank line changes nothing at all. -/
  blank : ∀ line, handled.reading = .line line → tokenize line = [] →
    handled.after = handled.session.world
  /-- Nor does an answer that delivers no line; that a line was too long is among them. -/
  undelivered : handled.line? = none → handled.after = handled.session.world

/-- Every answer keeps to this, whatever it is. -/
theorem tracks (handled : Handled) : handled.Tracks where
  entered := by
    obtain ⟨session, reading⟩ := handled
    intro place enters
    obtain ⟨line, given, enters⟩ := enters
    dsimp only at given
    subst given
    rw [after_line]
    exact (session.world.perform_cases session.settings _).directory_of_enters enters
  stayed := by
    obtain ⟨session, reading⟩ := handled
    intro stays
    cases given : reading.line? with
    | none => exact congrArg (·.machine.directory) (Session.world_answer_of_line?_eq_none given)
    | some line =>
        cases reading with
        | line text =>
            rw [after_line]
            apply (session.world.perform_cases session.settings _).directory_of_stays
            intro place enters
            exact stays place ⟨text, rfl, enters⟩
        | _ => cases given
  failed := by
    obtain ⟨session, reading⟩ := handled
    intro line error given failed
    dsimp only at given
    subst given
    rw [after_line, ← Session.world_perform]
    exact Session.keeps_of_failed failed
  external := by
    obtain ⟨session, reading⟩ := handled
    intro line name rest given tokens external
    dsimp only at given
    subst given
    rw [after_line, tokens]
    exact (session.world.perform_cases session.settings _).keeps_of_external external
  blank := by
    obtain ⟨session, reading⟩ := handled
    intro line given blank
    dsimp only at given
    subst given
    rw [after_line, blank]
    rfl
  undelivered := by
    intro none
    exact Session.world_answer_of_line?_eq_none none

/-- The search path after an answer is the one that its line sets, if it is a line and sets one. -/
theorem searchPath_after (handled : Handled) :
    handled.after.searchPath =
      lastSearchPath handled.session.world.searchPath handled.line?.toList := by
  obtain ⟨session, reading⟩ := handled
  cases given : reading.line? with
  | none =>
      rw [line?, given, after, Session.world_answer_of_line?_eq_none given]
      rfl
  | some line =>
      cases reading with
      | line text =>
          rw [after_line, (session.world.perform_cases session.settings _).searchPath_eq]
          exact (lastSearchPath_singleton _ text).symm
      | _ => cases given

/-- No answer changes home. -/
theorem home_after (handled : Handled) : handled.after.home = handled.session.world.home := by
  obtain ⟨session, reading⟩ := handled
  cases given : reading.line? with
  | none => rw [after, Session.world_answer_of_line?_eq_none given]
  | some line =>
      cases reading with
      | line text =>
          rw [after_line]
          exact (session.world.perform_cases session.settings _).home_eq
      | _ => cases given

/-- Where the answers lead, one after the other: to the directory that was entered last. -/
inductive Leads (start : Place) : List Handled → Place → Prop where
  | start : Leads start [] start
  | entered {earlier : List Handled} {one : Handled} {before place : Place}
      (led : Leads start earlier before) (enters : one.Enters place) :
      Leads start (earlier ++ [one]) place
  | stayed {earlier : List Handled} {one : Handled} {place : Place}
      (led : Leads start earlier place) (stays : ∀ other, ¬ one.Enters other) :
      Leads start (earlier ++ [one]) place

/-- One more answer leads to the working directory that there is after it. -/
theorem Leads.snoc {start : Place} {earlier : List Handled} (one : Handled)
    (led : Leads start earlier one.session.world.machine.directory) :
    Leads start (earlier ++ [one]) one.after.machine.directory := by
  by_cases enters : ∃ place, one.Enters place
  · obtain ⟨place, enters⟩ := enters
    rw [one.tracks.entered place enters]
    exact led.entered enters
  · have stays : ∀ place, ¬ one.Enters place := not_exists.mp enters
    rw [one.tracks.stayed stays]
    exact led.stayed stays

end Handled

namespace Session

/-- What a session carries at every moment: the search path that was set last, the home it started
with, and the working directory that was entered last. -/
theorem History.carried {first session : Session} {handled : List Handled} {events : List Event}
    (history : first.History handled session events) :
    session.world.searchPath = lastSearchPath first.world.searchPath (executed events) ∧
      session.world.home = first.world.home ∧
      Handled.Leads first.world.machine.directory handled session.world.machine.directory := by
  induction history with
  | start => exact ⟨rfl, rfl, .start⟩
  | @sourced handled session events line before ih =>
      obtain ⟨searchPath, home, led⟩ := ih
      rw [← (session.answer_line line).1, executed_append, executed_executeLine,
        lastSearchPath_append, ← searchPath, ← home]
      have one := Handled.searchPath_after ⟨session, .line line⟩
      exact ⟨one, Handled.home_after ⟨session, .line line⟩, led.snoc ⟨session, .line line⟩⟩
  | prompted shownBySource before ih =>
      rw [world_showPrompt, executed_append, executed_showPrompt, List.append_nil]
      exact ih
  | @answered handled session events reading before ih =>
      obtain ⟨searchPath, home, led⟩ := ih
      rw [executed_append, executed_read, executed_answer, lastSearchPath_append, ← searchPath,
        ← home]
      have one := Handled.searchPath_after ⟨session, reading⟩
      exact ⟨one, Handled.home_after ⟨session, reading⟩, led.snoc ⟨session, reading⟩⟩

/-- At every moment of a session, however lines were given to it, the search path is what the last
executed line that calls `path` has set it to, home is the initial one, and the working directory is
the one that a `cd` has entered last.  Nothing else that is handled touches any of the three. -/
theorem carried_of_history (first : Session) :
    ∀ handled session events, first.History handled session events →
      session.world.searchPath = lastSearchPath first.world.searchPath (executed events) ∧
      session.world.home = first.world.home ∧
      Handled.Leads first.world.machine.directory handled session.world.machine.directory ∧
      executed events = handled.filterMap Handled.line? ∧
      (∀ one ∈ handled, one.Tracks) ∧
      (∀ lines, ∃ taken, first.History (handled ++ taken) (session.sourceLines lines).session
          (events ++ (session.sourceLines lines).events) ∧
        taken.map Handled.reading <+: lines.map Reading.line ∧
        ((session.sourceLines lines).result = .proceed →
          taken.map Handled.reading = lines.map Reading.line)) ∧
      ∀ {σ : Type} [LineSource σ] (source : σ), ∃ taken,
        first.History (handled ++ taken) (session.run source).session
          (events ++ (session.run source).events) ∧
        taken.map Handled.reading = LineSource.readings taken.length source := by
  intro handled session events history
  obtain ⟨searchPath, home, led⟩ := history.carried
  refine ⟨searchPath, home, led, history.executed_eq, ?_, history.sourceLines, history.run⟩
  intro one _
  exact one.tracks

/-- A session at home in the root directory of a machine that has one directory, `/a`. -/
def withOneDirectory : Session where
  world.machine.files := ⟨[([bytesOf "a"], .directory 0o755)]⟩
  world.home := some (bytesOf "/")

/-- A startup line that sets the search path, an operator in it, and then a line from a source that
enters a directory, with an argument too many. -/
theorem carried_of_history_moves :
    let one : Handled := ⟨withOneDirectory, .line "path x > y"⟩
    let other : Handled :=
      ⟨(withOneDirectory.executeLine "path x > y").session, .line "cd a extra"⟩
    let session := (other.session.answer other.reading).session
    let events := (withOneDirectory.executeLine "path x > y").events ++
      .read "whoosh> " other.reading :: (other.session.answer other.reading).events
    withOneDirectory.History [one, other] session events ∧
      session.world.machine.directory = ⟨[bytesOf "a"], 0⟩ ∧
      lastSearchPath withOneDirectory.world.searchPath (executed events) = ["x", ">", "y"] ∧
      session.world.searchPath =
        lastSearchPath withOneDirectory.world.searchPath (executed events) := by
  have once : withOneDirectory.History [⟨withOneDirectory, .line "path x > y"⟩] _ _ :=
    History.start.sourced "path x > y"
  have history := once.answered (.line "cd a extra")
  refine ⟨history, by decide, by decide, ?_⟩
  exact (carried_of_history withOneDirectory _ _ _ history).1

end Session
end CommandShell
