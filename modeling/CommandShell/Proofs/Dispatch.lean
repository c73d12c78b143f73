/-
Module: CommandShell.Proofs.Dispatch
Purpose: What the first token of a command decides: all that files and programs have to do with the
  command, or all that it has to do with the session.
Trusted boundary: none
Main exports:
  Session.withFiles, SameOutcome, Session.of_mem_perform_builtin,
  Session.perform_builtin_withFiles, Session.CallsBuiltin, Session.dispatch_by_name
-/
import CommandShell.Proofs.CarriedState
import CommandShell.Proofs.Delivery
import CommandShell.Proofs.ExitLine
import CommandShell.Proofs.FollowedPath
import CommandShell.Proofs.StartedProgram

namespace CommandShell

/-- The same machine with other files. -/
def Machine.withFiles (machine : Machine) (files : FileSystem) : Machine :=
  { machine with files }

def World.withFiles (world : World) (files : FileSystem) : World :=
  { world with machine := world.machine.withFiles files }

def Session.withFiles (session : Session) (files : FileSystem) : Session :=
  { session with world := session.world.withFiles files }

@[simp] theorem World.home_withFiles (world : World) (files : FileSystem) :
    (world.withFiles files).home = world.home := rfl

@[simp] theorem World.machine_withFiles (world : World) (files : FileSystem) :
    (world.withFiles files).machine = world.machine.withFiles files := rfl

@[simp] theorem Session.world_withFiles (session : Session) (files : FileSystem) :
    (session.withFiles files).world = session.world.withFiles files := rfl

@[simp] theorem Session.out_withFiles (session : Session) (files : FileSystem) :
    (session.withFiles files).out = session.out := rfl

namespace Machine

variable {machine : Machine} {files : FileSystem}

@[simp] theorem directory_withFiles : (machine.withFiles files).directory = machine.directory :=
  rfl

@[simp] theorem workingDirectory_withFiles :
    (machine.withFiles files).workingDirectory = machine.workingDirectory := rfl

/-- A path leads to a directory on both machines or on neither, and to the same one. -/
theorem reach_withFiles_iff (same : machine.files.SameFrame files) {path : Path} {place : Place} :
    (machine.withFiles files).reach path = .ok (.directory place) ↔
      machine.reach path = .ok (.directory place) := by
  constructor
  · exact fun reached => FileSystem.locate_of_sameFrame same.symm reached .directory
  · exact fun reached => FileSystem.locate_of_sameFrame same reached .directory

/-- The same directories can be changed to.  Why one cannot may be another matter. -/
theorem changeDirectory_withFiles (same : machine.files.SameFrame files) (path : Path) :
    (∃ next, machine.changeDirectory path = .ok next ∧
      (machine.withFiles files).changeDirectory path = .ok (next.withFiles files)) ∨
    ∃ cause cause', machine.changeDirectory path = .error cause ∧
      (machine.withFiles files).changeDirectory path = .error cause' := by
  have searches (place : Place) : (machine.withFiles files).files.searchable place =
      machine.files.searchable place := FileSystem.SameFrame.searchable_eq same place
  cases changed : machine.changeDirectory path with
  | ok next =>
      obtain ⟨place, there, search, rfl⟩ := changeDirectory_eq_ok_iff.mp changed
      have there' := (reach_withFiles_iff same).mpr there
      exact .inl ⟨_, rfl,
        changeDirectory_eq_ok_iff.mpr ⟨place, there', (searches place).trans search, rfl⟩⟩
  | error cause =>
      cases changed' : (machine.withFiles files).changeDirectory path with
      | ok next =>
          obtain ⟨place, there', search, _⟩ := changeDirectory_eq_ok_iff.mp changed'
          have there := (reach_withFiles_iff same).mp there'
          have entered := changeDirectory_eq_ok_iff.mpr
            ⟨place, there, (searches place).symm.trans search, rfl⟩
          simp [changed] at entered
      | error cause' => exact .inr ⟨cause, cause', rfl, rfl⟩

end Machine

/-! ### Built-in commands -/

/-- The same outcome, or both times a directory that cannot be entered, whatever reasons the system
has. -/
inductive SameOutcome : Except CommandError Flow → Except CommandError Flow → Prop where
  | same (outcome : Except CommandError Flow) : SameOutcome outcome outcome
  | unentered (path : String) (cause cause' : IoError) :
      SameOutcome (.error (.changeDirectory path cause)) (.error (.changeDirectory path cause'))

attribute [simp] SameOutcome.same

/-- A built-in command amounts to the same whatever files there are. -/
theorem Builtin.perform_withFiles (builtin : Builtin) {world : World} {files : FileSystem}
    (same : world.machine.files.SameFrame files) (arguments : List String) :
    let effect := builtin.perform world arguments
    let other := builtin.perform (world.withFiles files) arguments
    SameOutcome effect.outcome other.outcome ∧ other.world = effect.world.withFiles files ∧
      other.printed = effect.printed ∧ other.events = effect.events := by
  cases builtin with
  | exit => simp [perform]
  | path => simp [perform, World.withFiles]
  | pwd =>
      cases found : world.machine.workingDirectory with
      | ok path => simp [perform, World.printDirectory, found]
      | error cause => simp [perform, World.printDirectory, found]
  | cd =>
      simp only [perform, World.changeDirectory, World.home_withFiles, World.machine_withFiles]
      cases arguments.head?.map bytesOf <|> world.home with
      | none => simp
      | some target =>
          rcases Machine.changeDirectory_withFiles same target with
            ⟨next, changed, changed'⟩ | ⟨cause, cause', changed, changed'⟩
          · simp [changed, changed', World.withFiles]
          · simp [changed, changed', SameOutcome.unentered]

namespace Session

variable {session : Session} {name : String} {builtin : Builtin}

/-- Carrying out a built-in command is what it amounts to, and then printing. -/
theorem perform_builtin (called : Builtin.ofName? name = some builtin) (arguments : List String) :
    session.perform (name :: arguments) =
      let effect := builtin.perform session.world arguments
      let events := .dispatched builtin :: effect.events
      if effect.printed.isEmpty then
        ⟨effect.outcome, { session with world := effect.world }, events⟩
      else
        let write := session.out.write effect.printed
        ⟨if write.complete then effect.outcome else .error (.io .closed),
          { session with world := effect.world, out := session.out.written effect.printed },
          events ++ [.printed write]⟩ := by
  rw [perform, World.perform, called]

/-- Carrying out a built-in command comes to the same whatever files there are, also if what it
prints is cut short. -/
theorem perform_builtin_withFiles (called : Builtin.ofName? name = some builtin)
    {files : FileSystem} (same : session.world.machine.files.SameFrame files)
    (arguments : List String) :
    let performed := session.perform (name :: arguments)
    let other := (session.withFiles files).perform (name :: arguments)
    SameOutcome performed.result other.result ∧
      other.session = performed.session.withFiles files ∧ other.events = performed.events := by
  obtain ⟨outcome, world, printed, events⟩ := builtin.perform_withFiles same arguments
  simp only [perform_builtin called, world_withFiles, out_withFiles, printed, world, events]
  split
  · exact ⟨outcome, rfl, rfl⟩
  · cases (session.out.write (builtin.perform session.world arguments).printed).complete with
    | true => exact ⟨outcome, rfl, rfl⟩
    | false => exact ⟨.same _, rfl, rfl⟩

/-- All that happens in a built-in command: it is called, it may enter a directory, and it may
print. -/
theorem of_mem_perform_builtin (called : Builtin.ofName? name = some builtin)
    {arguments : List String} {event : Event}
    (member : event ∈ (session.perform (name :: arguments)).events) :
    event = .dispatched builtin ∨ (∃ place, event = .moved place) ∨
      ∃ write, event = .printed write := by
  have inside : event ∈ Event.dispatched builtin ::
      (builtin.perform session.world arguments).events →
        event = .dispatched builtin ∨ ∃ place, event = .moved place := by
    intro member
    rcases List.mem_cons.mp member with dispatched | member
    · exact .inl dispatched
    · exact .inr (World.moved_of_mem_builtin member)
  rw [perform_builtin called] at member
  dsimp only at member
  split at member
  · exact (inside member).imp_right .inl
  · rcases List.mem_append.mp member with member | printed
    · exact (inside member).imp_right .inl
    · exact .inr (.inr ⟨_, List.mem_singleton.mp printed⟩)

/-- A built-in command leaves all files alone. -/
theorem files_perform_builtin (called : Builtin.ofName? name = some builtin)
    (arguments : List String) :
    (session.perform (name :: arguments)).session.world.machine.files =
      session.world.machine.files := by
  have performs := session.world.perform_cases session.settings (name :: arguments)
  rw [world_perform]
  generalize session.world.perform session.settings (name :: arguments) = effect at performs
  cases performs with
  | replaced => rfl
  | moved => rfl
  | launched external => simp [called] at external
  | idle _ _ same => rw [same]

/-- A command that calls no built-in one offers nothing to the output stream and leaves it as it
is. -/
theorem offered_perform_external (session : Session) (external : Builtin.ofName? name = none)
    (arguments : List String) :
    offered .output (session.perform (name :: arguments)).events = [] ∧
      (session.perform (name :: arguments)).session.out = session.out := by
  rw [perform_external external]
  refine ⟨?_, rfl⟩
  apply List.flatMap_eq_nil_iff.mpr
  intro event member
  apply (Event.bytes_of_writes _ _).2
  exact Event.writes_of_ofSession (World.ofSession_runProgram _ _ _ _ event member)

/-- The first token is the very name of a built-in command. -/
def CallsBuiltin (tokens : List String) : Prop :=
  ∃ name ∈ ["exit", "pwd", "cd", "path"], tokens.head? = some name

instance (tokens : List String) : Decidable (CallsBuiltin tokens) :=
  inferInstanceAs (Decidable (∃ name ∈ ["exit", "pwd", "cd", "path"], tokens.head? = some name))

/-- Whether a command is built in is seen from its name alone. -/
theorem callsBuiltin_cons_iff {arguments : List String} :
    CallsBuiltin (name :: arguments) ↔ ∃ builtin, Builtin.ofName? name = some builtin := by
  constructor
  · rintro ⟨builtin, listed, first⟩
    obtain rfl := Option.some.inj first
    simp only [List.mem_cons, List.not_mem_nil, or_false] at listed
    rcases listed with rfl | rfl | rfl | rfl
    · exists .exit
    · exists .pwd
    · exists .cd
    · exists .path
  · rintro ⟨builtin, called⟩
    exists name
    rw [Builtin.ofName?_eq_some_iff.mp called]
    cases builtin with
    | exit => simp [Builtin.name]
    | pwd => simp [Builtin.name]
    | cd => simp [Builtin.name]
    | path => simp [Builtin.name]

/-- The exact first token decides what a command has to do with.  If it is the name of a built-in
command, no program is started and no file is touched, whatever follows it and whatever programs
have the same name; and the command comes to the same in any two file systems that have the same
directories and links.  Any other command leaves the session alone: it does not end, nothing is
offered to its output stream, and search path, home and working directory stay. -/
theorem dispatch_by_name (session : Session) (tokens : List String) :
    let performed := session.perform tokens
    (CallsBuiltin tokens →
      attempts performed.events = [] ∧
      (∀ program location, .started program location ∉ performed.events) ∧
      performed.session.world.machine.files = session.world.machine.files ∧
      ∀ files, session.world.machine.files.SameFrame files →
        let other := (session.withFiles files).perform tokens
        SameOutcome performed.result other.result ∧
          other.session = performed.session.withFiles files ∧
          other.events = performed.events) ∧
    (¬CallsBuiltin tokens →
      performed.result ≠ .ok .exit ∧
      offered .output performed.events = [] ∧ performed.session.out = session.out ∧
      session.world.Keeps performed.session.world) := by
  intro performed
  constructor
  · intro calls
    obtain ⟨name, arguments, rfl⟩ : ∃ name arguments, tokens = name :: arguments := by
      obtain ⟨name, _, first⟩ := calls
      exact ⟨name, List.head?_eq_some_iff.mp first⟩
    obtain ⟨builtin, called⟩ := callsBuiltin_cons_iff.mp calls
    refine ⟨?_, ?_, files_perform_builtin called arguments, ?_⟩
    · apply List.filterMap_eq_nil_iff.mpr
      intro event member
      rcases of_mem_perform_builtin called member with rfl | ⟨place, rfl⟩ | ⟨write, rfl⟩ <;> rfl
    · intro program location started
      simpa using of_mem_perform_builtin called started
    · intro files same
      exact perform_builtin_withFiles called same arguments
  · intro calls
    cases tokens with
    | nil =>
        rw [show performed = ⟨.ok .proceed, session, []⟩ from rfl]
        simp [offered, World.Keeps.refl]
    | cons name arguments =>
        have external : Builtin.ofName? name = none := by
          simpa [callsBuiltin_cons_iff, Option.eq_none_iff_forall_ne_some] using calls
        obtain ⟨silent, out⟩ := offered_perform_external session external arguments
        refine ⟨?_, silent, out, ?_⟩
        · rw [show performed = _ from perform_external external]
          exact World.outcome_runProgram_ne_exit _ _ _ _
        · have performs := session.world.perform_cases session.settings (name :: arguments)
          rw [world_perform]
          exact performs.keeps_of_external external

/-- A session in the root directory of a machine that has a program `/bin/cd` and a file `/x`. -/
def withProgramAndFile : Session where
  world.machine.files := ⟨[([bytesOf "bin"], .directory 0o755),
    ([bytesOf "bin", bytesOf "cd"], .file 0o755 (.program default)),
    ([bytesOf "x"], .file 0o644 (.text (bytesOf "kept\n")))]⟩

/-- Its directories without the program and the file. -/
def withoutFiles : FileSystem :=
  ⟨[([bytesOf "bin"], .directory 0o755)]⟩

/-- Once `x` is a file and once there is no `x`: it cannot be entered for two reasons, and
`/bin/cd` is not looked for.  No built-in command is called `Cd`. -/
theorem dispatch_by_name_shadows :
    (let performed := withProgramAndFile.perform ["cd", "x", ">", "r"]
    let other := (withProgramAndFile.withFiles withoutFiles).perform ["cd", "x", ">", "r"]
    attempts performed.events = [] ∧
      performed.session.world.machine.files = withProgramAndFile.world.machine.files ∧
      SameOutcome performed.result other.result ∧ other.events = performed.events) ∧
    (let performed := withProgramAndFile.perform ["Cd", "x"]
    performed.result ≠ .ok .exit ∧ offered .output performed.events = []) := by
  have same : withProgramAndFile.world.machine.files.SameFrame withoutFiles := by
    intro location
    simp only [withProgramAndFile, withoutFiles, FileSystem.get?, List.lookup_cons, List.lookup_nil]
    split
    · rfl
    · split
      · rfl
      · split <;> rfl
  constructor
  · obtain ⟨builtin, _⟩ := dispatch_by_name withProgramAndFile ["cd", "x", ">", "r"]
    obtain ⟨none, _, kept, alike⟩ := builtin (by decide)
    obtain ⟨outcome, _, events⟩ := alike withoutFiles same
    exact ⟨none, kept, outcome, events⟩
  · obtain ⟨_, other⟩ := dispatch_by_name withProgramAndFile ["Cd", "x"]
    obtain ⟨stays, silent, _⟩ := other (by decide)
    exact ⟨stays, silent⟩

end Session
end CommandShell
