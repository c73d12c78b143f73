/-
Module: CommandShell.Proofs.ProgramOutput
Purpose: Where the output of a program goes: each stream as a whole into the file that it was
  connected to last, or to the shell's own stream.
Trusted boundary: none
Main exports:
  Node.grown, Machine.targetMode, Machine.get?_overwrite_end, Launch.deliver_inherited,
  Launch.Fills, Launch.Fills.deliver, Launch.reach_deliver, Launch.Plan.run_of_no_setups,
  Launch.Plan.run_of_last_pair, Launch.Plan.run_delivers
-/
import CommandShell.Proofs.CarriedState
import CommandShell.Proofs.LaunchOrder

namespace CommandShell

/-- An empty file of this mode after bytes have been written to it.  To write nothing is not to
write. -/
def Node.grown (mode : Mode) (bytes : Bytes) : Node :=
  .file (if bytes = [] then mode else mode.afterWrite) (.text bytes)

namespace Machine

variable {machine : Machine} {location other : Location} {mode : Mode} {bytes : Bytes}
  {path : Path}

/-- Bytes that are written to the end of a file follow those that are there. -/
theorem get?_overwrite_end
    (holds : machine.files.get? location = some (.grown mode bytes)) (more : Bytes) :
    (machine.overwrite location bytes.length more).files.get? location =
      some (.grown mode (bytes ++ more)) := by
  cases more with
  | nil => rw [List.append_nil, ← holds]; rfl
  | cons byte more =>
      have nonempty : bytes ++ byte :: more ≠ [] := by simp
      -- The first byte of all takes the rights away, and no later one changes the mode.
      have taken : (if bytes = [] then mode else mode.afterWrite).afterWrite = mode.afterWrite := by
        split
        · rfl
        · exact Mode.afterWrite_afterWrite mode
      unfold overwrite
      rw [holds, Node.grown]
      dsimp only
      rw [FileSystem.get?_put, if_pos rfl, Node.written, Node.grown, if_neg nonempty, taken]
      simp [Content.bytes]

/-- A write into one file leaves the others. -/
theorem get?_overwrite_of_ne (apart : other ≠ location) (offset : Nat) (bytes : Bytes) :
    (machine.overwrite location offset bytes).files.get? other = machine.files.get? other := by
  unfold overwrite
  split
  case h_1 => exact (FileSystem.get?_put ..).trans (if_neg apart)
  case h_2 => rfl

/-- A path that leads to a file leads to it whatever is written anywhere. -/
theorem reach_overwrite {current : Mode} {content : Content}
    (reached : machine.reach path = .ok (.file location current content)) (written : Location)
    (offset : Nat) (bytes : Bytes) :
    ∃ current content, (machine.overwrite written offset bytes).reach path =
      .ok (.file location current content) := by
  unfold overwrite
  split
  case h_1 there =>
    by_cases here : location = written
    · subst here
      exact ⟨_, _, FileSystem.locate_put reached rfl⟩
    · exact ⟨current, content,
        (FileSystem.locate_put_elsewhere_iff (.inr ⟨_, _, there⟩) here _ _).mpr reached⟩
  case h_2 => exact ⟨current, content, reached⟩

/-- The mode of a target once it is open: a file that is there keeps its mode but for the rights
that it lends, and a new one gets the mode that is asked for. -/
def targetMode (machine : Machine) (mode : Mode) (location : Location) : Mode :=
  match machine.files.get? location with
  | some (.file old _) => old.afterWrite
  | _ => mode.masked machine.mask

/-- A target that is opened only once is empty afterwards. -/
theorem EmptiesOnly.get?_of_nodup {locations : List Location} {last : Machine}
    (empties : machine.EmptiesOnly mode locations last) (distinct : locations.Nodup)
    (member : location ∈ locations) :
    last.files.get? location = some (.grown (machine.targetMode mode location) []) := by
  have once : locations.count location = 1 := by
    rw [distinct.count, if_pos member]
  rcases empties.targets location member with ⟨free, left⟩ | ⟨old, content, there, _, left⟩
  · rw [left, if_pos once, targetMode, free]
    rfl
  · rw [left, targetMode, there]
    rfl

end Machine

theorem Behaviour.written_nil (status : Status) (stream : Stream) :
    Behaviour.written ⟨[], status⟩ stream = [] := rfl

/-- What a program writes to a stream is put together piece by piece. -/
theorem Behaviour.written_cons (written : Stream) (bytes : Bytes) (rest : List (Stream × Bytes))
    (status : Status) (stream : Stream) :
    Behaviour.written ⟨(written, bytes) :: rest, status⟩ stream =
      (if written = stream then bytes else []) ++ Behaviour.written ⟨rest, status⟩ stream := by
  unfold Behaviour.written
  by_cases same : written = stream
  · simp [same]
  · simp [same]

namespace Launch

/-- Without connections to files all that is written arrives at the streams of the shell, piece by
piece, and no file changes. -/
theorem deliver_inherited (machine : Machine) (offset : Stream → Nat)
    (writes : List (Stream × Bytes)) :
    deliver {} machine offset writes =
      ⟨machine, writes.map fun piece => .programWrote piece.1 piece.2⟩ := by
  induction writes generalizing offset with
  | nil => rfl
  | cons piece rest ih =>
      obtain ⟨stream, bytes⟩ := piece
      have shared : ({} : Wiring).file? stream = none := by cases stream <;> rfl
      rw [deliver, shared]
      dsimp only
      rw [ih]
      rfl

theorem arrived_programWrote (stream : Stream) (writes : List (Stream × Bytes))
    (status : Status) :
    arrived stream (writes.map fun piece => .programWrote piece.1 piece.2) =
      Behaviour.written ⟨writes, status⟩ stream := by
  induction writes with
  | nil => rfl
  | cons piece rest ih =>
      obtain ⟨written, bytes⟩ := piece
      rw [Behaviour.written_cons, ← ih, List.map_cons, arrived, List.flatMap_cons, ← arrived]
      simp [Event.shellBytes, Event.programBytes, eq_comm]

/-!
The files that the two streams are connected to grow side by side.  Each stream has an offset of its
own, which is at the end of its file as long as the files are different ones.
-/

section
variable {targets : Stream → OpenFile} {modes : Stream → Mode} {done : Stream → Bytes}
  {machine : Machine} {wiring : Wiring}

/-- The files for the two streams, made with these modes, hold what has been written so far. -/
def Fills (targets : Stream → OpenFile) (modes : Stream → Mode) (done : Stream → Bytes)
    (machine : Machine) : Prop :=
  ∀ stream, machine.files.get? (targets stream).location =
    some (.grown (modes stream) (done stream))

/-- What has been written so far after one more piece. -/
def extended (done : Stream → Bytes) (stream : Stream) (bytes : Bytes) : Stream → Bytes :=
  fun other => if other = stream then done stream ++ bytes else done other

/-- A piece that has been written is no more to be written: the whole stays the same. -/
theorem extended_append (done : Stream → Bytes) (written stream : Stream) (bytes : Bytes)
    (rest : List (Stream × Bytes)) (status : Status) :
    extended done written bytes stream ++ Behaviour.written ⟨rest, status⟩ stream =
      done stream ++ Behaviour.written ⟨(written, bytes) :: rest, status⟩ stream := by
  rw [Behaviour.written_cons, extended]
  by_cases same : stream = written
  · rw [if_pos same, if_pos same.symm, same, List.append_assoc]
  · rw [if_neg same, if_neg (Ne.symm same), List.nil_append]

/-- A write at the end of one file keeps both as full as they should be, as the files are different
ones. -/
theorem Fills.overwrite
    (apart : ∀ one other, one ≠ other → (targets one).location ≠ (targets other).location)
    (fills : Fills targets modes done machine) (stream : Stream) (bytes : Bytes) :
    Fills targets modes (extended done stream bytes)
      (machine.overwrite (targets stream).location (done stream).length bytes) := by
  intro other
  by_cases same : other = stream
  · subst same
    rw [extended, if_pos rfl]
    exact Machine.get?_overwrite_end (fills other) bytes
  · rw [extended, if_neg same, Machine.get?_overwrite_of_ne (apart other stream same)]
    exact fills other

/-- In the end each of the two files holds all that was written to its stream, and nothing else has
come of it. -/
theorem Fills.deliver (wired : ∀ stream, wiring.file? stream = some (targets stream))
    (apart : ∀ one other, one ≠ other → (targets one).location ≠ (targets other).location)
    (fills : Fills targets modes done machine) (writes : List (Stream × Bytes))
    (status : Status) :
    let delivery := deliver wiring machine (fun stream => (done stream).length) writes
    Fills targets modes (fun stream => done stream ++ Behaviour.written ⟨writes, status⟩ stream)
        delivery.machine ∧
      (∀ location, (∀ stream, location ≠ (targets stream).location) →
        delivery.machine.files.get? location = machine.files.get? location) ∧
      delivery.events = [] := by
  induction writes generalizing machine done with
  | nil =>
      refine ⟨?_, fun _ _ => rfl, rfl⟩
      simp only [Behaviour.written_nil, List.append_nil]
      exact fills
  | cons piece rest ih =>
      obtain ⟨written, bytes⟩ := piece
      -- After this piece, too, each offset is at the end of what has been written to its file.
      have offsets : (fun stream => if stream = written then (done written).length + bytes.length
          else (done stream).length) =
            fun stream => (extended done written bytes stream).length := by
        funext stream
        rw [extended]
        split
        · rw [List.length_append]
        · rfl
      rw [Launch.deliver, wired]
      dsimp only
      rw [offsets]
      obtain ⟨filled, kept, silent⟩ := ih (fills.overwrite apart written bytes)
      refine ⟨?_, ?_, silent⟩
      · simpa only [extended_append] using filled
      · intro location away
        rw [kept location away, Machine.get?_overwrite_of_ne (away written)]

/-- What a program writes does not change which files paths lead to. -/
theorem reach_deliver {path : Path} {location : Location} {current : Mode} {content : Content}
    (reached : machine.reach path = .ok (.file location current content)) (offset : Stream → Nat)
    (writes : List (Stream × Bytes)) :
    ∃ current content, (Launch.deliver wiring machine offset writes).machine.reach path =
      .ok (.file location current content) := by
  induction writes generalizing machine offset current content with
  | nil => exact ⟨current, content, reached⟩
  | cons piece rest ih =>
      obtain ⟨stream, bytes⟩ := piece
      rw [Launch.deliver]
      split
      case h_1 file _ =>
        obtain ⟨_, _, reached⟩ :=
          Machine.reach_overwrite reached file.location (offset stream) bytes
        exact ih reached _
      case h_2 => exact ih reached offset

end

/-- One file for each of the two streams. -/
def onePerStream (output error : OpenFile) : Stream → OpenFile
  | .output => output
  | .error => error

theorem location_onePerStream_ne {output error : OpenFile}
    (apart : output.location ≠ error.location) (one other : Stream) (different : one ≠ other) :
    (onePerStream output error one).location ≠ (onePerStream output error other).location := by
  cases one <;> cases other
  · exact absurd rfl different
  · exact apart
  · exact apart.symm
  · exact absurd rfl different

/-! ### The launch as a whole -/

section
variable {mode : Mode} {machine last : Machine}

/-- The events of a launch besides what the program writes bring nothing to the streams. -/
theorem arrived_launch (stream : Stream) (attempt : Attempt) (program : Path)
    (location : Location) (status : Status) (events : List Event) :
    arrived stream (.attempted attempt :: .started program location :: events ++
      [.ended program status]) = arrived stream events := by
  simp [arrived, Event.shellBytes, Event.programBytes]

/-- Without targets the files stay as they are, whether or not a program is started, and the streams
of the shell get all the output of one that is. -/
theorem Plan.run_of_no_setups {plan : Plan} (mode : Mode) (machine : Machine)
    (fresh : plan.setups = []) :
    let launched := plan.run mode machine
    launched.machine = machine ∧
      ∀ executable, plan.find machine (plan.opening mode machine).wiring = .ok executable →
        let behaviour := executable.program.run (plan.invocation machine executable)
        launched.result = .ok behaviour.status ∧
          ∀ stream, arrived stream launched.events = behaviour.written stream := by
  intro launched
  have opened : plan.opening mode machine = ⟨machine, {}, none⟩ := by
    rw [opening, fresh, openTargets]
  rw [opened]
  dsimp only
  cases found : plan.find machine {} with
  | ok executable =>
      have ended : launched = _ := run_eq_of_found opened found
      rw [deliver_inherited] at ended
      rw [ended]
      refine ⟨rfl, ?_⟩
      rintro _ ⟨⟩
      refine ⟨rfl, ?_⟩
      intro stream
      exact (arrived_launch ..).trans (arrived_programWrote ..)
  | error cause =>
      have inherited : plan.errorTarget? = none := by
        rw [errorTarget?, fresh]
        rfl
      have ended : launched = _ := run_of_inherited opened found inherited
      rw [ended]
      refine ⟨rfl, ?_⟩
      intro executable started
      cases started

/-- With targets that are different files the last two of them hold what the program has written,
and the other files are as they were when it was started. -/
theorem Plan.run_of_last_pair {plan : Plan} {output error : Path} {front : List Location}
    {outputAt errorAt : Location} {executable : Machine.Executable}
    (opens : machine.Opens mode (plan.setups.map Setup.path) (front ++ [outputAt, errorAt]) last)
    (inForce : (plan.opening mode machine).wiring =
      ⟨some ⟨output, outputAt⟩, some ⟨error, errorAt⟩⟩)
    (distinct : (front ++ [outputAt, errorAt]).Nodup)
    (found : plan.find last (plan.opening mode machine).wiring = .ok executable) :
    let launched := plan.run mode machine
    let behaviour := executable.program.run (plan.invocation last executable)
    launched.machine.files.get? outputAt = some
        (.grown (machine.targetMode mode outputAt) (behaviour.written .output)) ∧
      launched.machine.files.get? errorAt = some
        (.grown (machine.targetMode mode errorAt) (behaviour.written .error)) ∧
      (∀ location, location ≠ outputAt → location ≠ errorAt →
        launched.machine.files.get? location = last.files.get? location) ∧
      ∀ stream, arrived stream launched.events = [] := by
  intro launched behaviour
  let files := onePerStream ⟨output, outputAt⟩ ⟨error, errorAt⟩
  have two : outputAt ≠ errorAt := by
    have ends := (List.nodup_append.mp distinct).2.1
    simpa using ends
  have apart : ∀ one other, one ≠ other → (files one).location ≠ (files other).location :=
    location_onePerStream_ne two
  have wired : ∀ stream, (plan.opening mode machine).wiring.file? stream = some (files stream) := by
    rw [inForce]
    intro stream
    cases stream <;> rfl
  have started : Fills files (fun stream => machine.targetMode mode (files stream).location)
      (fun _ => []) last := by
    intro stream
    refine opens.emptiesOnly.get?_of_nodup distinct ?_
    cases stream <;> simp [files, onePerStream]
  have ended : launched = _ := run_eq_of_found (opening_eq_of_opens opens) found
  obtain ⟨filled, kept, silent⟩ := started.deliver wired apart behaviour.writes behaviour.status
  rw [ended]
  refine ⟨filled .output, filled .error, ?_, ?_⟩
  · intro location notOutput notError
    refine kept location ?_
    intro stream
    cases stream
    · exact notOutput
    · exact notError
  · intro stream
    refine (arrived_launch ..).trans ?_
    exact congrArg (arrived stream) silent

/-- Where the output of a program goes.  Without targets no file changes at all, and the streams of
the shell get the output.  If all targets are different files, then each of the last two holds in
the end what the program has written to its stream, those of the earlier pairs are empty, no other
file has changed, and nothing has arrived at the streams of the shell.  The paths still lead to the
targets, and what these held before makes no difference. -/
theorem Plan.run_delivers (mode : Mode) (machine : Machine) (program : Path)
    (arguments : List String) (calls : List (Option (Path × Path))) :
    let plan := Plan.redirectAll { program, arguments } calls
    let wiring := (plan.opening mode machine).wiring
    let launched := plan.run mode machine
    (pairs calls = [] →
      launched.machine = machine ∧
      ∀ executable, plan.find machine wiring = .ok executable →
        let behaviour := executable.program.run (plan.invocation machine executable)
        launched.result = .ok behaviour.status ∧
        ∀ stream, arrived stream launched.events = behaviour.written stream) ∧
    ∀ earlier output error locations last executable,
      pairs calls = earlier ++ [(output, error)] →
      machine.Opens mode (targets calls) locations last →
      locations.Nodup →
      plan.find last wiring = .ok executable →
        let behaviour := executable.program.run (plan.invocation last executable)
        launched.result = .ok behaviour.status ∧
        (∃ files, launched.machine = { machine with files }) ∧
        (∃ front outputAt errorAt, locations = front ++ [outputAt, errorAt] ∧
          front.length = 2 * earlier.length ∧
          launched.machine.files.get? outputAt = some
            (.grown (machine.targetMode mode outputAt) (behaviour.written .output)) ∧
          launched.machine.files.get? errorAt = some
            (.grown (machine.targetMode mode errorAt) (behaviour.written .error)) ∧
          ∀ location ∈ front, launched.machine.files.get? location = some
            (.grown (machine.targetMode mode location) [])) ∧
        (∀ location, location ∉ locations →
          launched.machine.files.get? location = machine.files.get? location) ∧
        (∀ (index : Nat) (path : Path) (location : Location),
          (targets calls)[index]? = some path → locations[index]? = some location →
            ∃ current content,
              launched.machine.reach path = .ok (.file location current content)) ∧
        ∀ stream, arrived stream launched.events = [] := by
  intro plan wiring launched
  have paths : plan.setups.map Setup.path = targets calls := path_setups_redirectAll rfl
  constructor
  · intro none
    refine run_of_no_setups mode machine ?_
    rw [setups_redirectAll, none]
    rfl
  · intro earlier output error locations last executable asked opens distinct found behaviour
    have opened : plan.opening mode machine = ⟨last, wiring, none⟩ :=
      opening_eq_of_opens (paths ▸ opens)
    have ended : launched = _ := run_eq_of_found opened found
    obtain ⟨front, outputAt, errorAt, rfl, length, inForce⟩ :=
      wiring_of_last_pair { program, arguments } rfl asked opens
    obtain ⟨toOutput, toError, kept, silent⟩ :=
      run_of_last_pair (paths ▸ opens) inForce distinct found
    refine ⟨(run_of_found opened found).1, run_changes_files plan mode machine,
      ⟨front, outputAt, errorAt, rfl, length, toOutput, toError, ?_⟩, ?_, ?_, silent⟩
    · intro location member
      have among : location ∈ front ++ [outputAt, errorAt] := List.mem_append_left _ member
      have away := (List.nodup_append.mp distinct).2.2 location member
      rw [kept location (away _ (by simp)) (away _ (by simp))]
      exact opens.emptiesOnly.get?_of_nodup distinct among
    · intro location away
      have untouched := opens.emptiesOnly.elsewhere location away
      have notOutput : location ≠ outputAt := fun same => away (by simp [same])
      have notError : location ≠ errorAt := fun same => away (by simp [same])
      rw [kept location notOutput notError, untouched]
    · intro index path location asked there
      obtain ⟨current, reached, _⟩ := opens.reach_of_getElem? asked there
      rw [ended]
      exact reach_deliver reached _ behaviour.writes

end

/-- A program that writes to both streams in turn, and a file with other content that would run with
the rights of its owner. -/
def withWriter : Machine where
  files :=
    ⟨[([bytesOf "run"], .file 0o755 (.program { run := fun _ =>
        ⟨[(.output, bytesOf "one"), (.error, bytesOf "two"), (.output, bytesOf "three")],
          .exited 3⟩ })),
      ([bytesOf "b.out"], .file 0o4755 (.text (bytesOf "stale content")))]⟩

/-- Two pairs of targets, one of which is a file with content. -/
theorem run_delivers_twice :
    let launched := ((Plan.mk (bytesOf "/run") [] []).redirectAll
      [some (bytesOf "a.out", bytesOf "a.err"), none,
        some (bytesOf "b.out", bytesOf "b.err")]).run 0o644 withWriter
    launched.result = .ok (.exited 3) ∧
      launched.machine.files.get? [bytesOf "b.out"] =
        some (.file 0o755 (.text (bytesOf "onethree"))) ∧
      launched.machine.files.get? [bytesOf "b.err"] = some (.file 0o644 (.text (bytesOf "two"))) ∧
      launched.machine.files.get? [bytesOf "a.err"] = some (.file 0o644 (.text [])) := by
  intro launched
  have delivers := Plan.run_delivers 0o644 withWriter (bytesOf "/run") []
    [some (bytesOf "a.out", bytesOf "a.err"), none, some (bytesOf "b.out", bytesOf "b.err")]
  obtain ⟨ended, _, ⟨front, outputAt, errorAt, split, length, toOutput, toError, emptied⟩, _⟩ :=
    delivers.2 [(bytesOf "a.out", bytesOf "a.err")] _ _ _ _ _ rfl
      (.more rfl (.more rfl (.more rfl (.more rfl .none)))) (by decide) rfl
  obtain ⟨rfl, ends⟩ : [[bytesOf "a.out"], [bytesOf "a.err"]] = front ∧
      [[bytesOf "b.out"], [bytesOf "b.err"]] = [outputAt, errorAt] :=
    List.append_inj split length.symm
  cases ends
  exact ⟨ended, toOutput, toError, emptied _ (by simp)⟩

/-- A target that a program writes to does not keep a mode that lends the owner's rights. -/
theorem lent_rights_taken :
    let launched := ((Plan.mk (bytesOf "/run") [] []).redirectAll
      [some (bytesOf "b.out", bytesOf "b.err")]).run 0o644 withWriter
    launched.result = .ok (.exited 3) ∧
      ¬ ∀ old content,
        withWriter.files.get? [bytesOf "b.out"] = some (.file old content) →
        ∃ written, launched.machine.files.get? [bytesOf "b.out"] = some (.file old written) := by
  intro launched
  have before : withWriter.files.get? [bytesOf "b.out"] =
      some (.file 0o4755 (.text (bytesOf "stale content"))) := rfl
  have after : launched.machine.files.get? [bytesOf "b.out"] =
      some (.file 0o755 (.text (bytesOf "onethree"))) := rfl
  refine ⟨rfl, ?_⟩
  intro kept
  obtain ⟨written, same⟩ := kept _ _ before
  have modes := after.symm.trans same
  simp at modes

end Launch
end CommandShell
