/-
Module: CommandShell.Proofs.LaunchOrder
Purpose: What comes of a launch with any number of targets, stage by stage: the targets are opened
  in order, then the program is started, and whatever fails ends the launch there.
Trusted boundary: none
Main exports:
  Launch.Plan.redirectAll, Launch.Plan.setups_redirectAll, Launch.Plan.run_of_stops,
  Launch.Plan.run_eq_of_found, Launch.Plan.run_of_found, Launch.Plan.run_of_inherited,
  Launch.Plan.run_of_reported, Launch.Plan.run_of_unreported, Launch.Plan.wiring_of_last_pair,
  Launch.Plan.run_in_order
-/
import CommandShell.Proofs.CommandCases
import CommandShell.Proofs.TargetSequence

namespace CommandShell.Launch

/-! ### Plans with any number of targets -/

/-- The plan after each of these calls has asked for a pair of targets, or for none. -/
def Plan.redirectAll (plan : Plan) (calls : List (Option (Path × Path))) : Plan :=
  calls.foldl Plan.redirect plan

/-- The pairs of targets that the calls have asked for, in order. -/
def pairs (calls : List (Option (Path × Path))) : List (Path × Path) :=
  calls.filterMap id

/-- The targets of the calls in the order in which they are opened. -/
def targets (calls : List (Option (Path × Path))) : List Path :=
  (pairs calls).flatMap fun pair => [pair.1, pair.2]

/-- The two streams of a pair of targets. -/
def Setup.both (pair : Path × Path) : List Setup :=
  [⟨.output, pair.1⟩, ⟨.error, pair.2⟩]

section
variable {calls : List (Option (Path × Path))} {plan : Plan}

/-- Asking for targets adds the connections of each pair and takes none away. -/
theorem Plan.setups_redirectAll (plan : Plan) (calls : List (Option (Path × Path))) :
    (plan.redirectAll calls).setups = plan.setups ++ (pairs calls).flatMap Setup.both := by
  induction calls generalizing plan with
  | nil => exact (List.append_nil _).symm
  | cons call calls ih =>
      cases call with
      | none => exact ih plan
      | some pair =>
          have first : (plan.redirect (some pair)).setups = plan.setups ++ Setup.both pair := rfl
          have more : pairs (some pair :: calls) = pair :: pairs calls := rfl
          rw [redirectAll, List.foldl_cons, ← redirectAll, ih, first, more, List.flatMap_cons,
            List.append_assoc]

@[simp] theorem Plan.program_redirectAll (plan : Plan) (calls : List (Option (Path × Path))) :
    (plan.redirectAll calls).program = plan.program := by
  induction calls generalizing plan with
  | nil => rfl
  | cons call calls ih =>
      rw [redirectAll, List.foldl_cons, ← redirectAll, ih]
      cases call <;> rfl

/-- The paths of the connections are those of the pairs. -/
theorem path_both (pairs : List (Path × Path)) :
    (pairs.flatMap Setup.both).map Setup.path = pairs.flatMap fun pair => [pair.1, pair.2] := by
  rw [List.map_flatMap]
  rfl

/-- Nothing but the calls says which targets a plan has. -/
theorem Plan.path_setups_redirectAll (fresh : plan.setups = []) :
    (plan.redirectAll calls).setups.map Setup.path = targets calls := by
  rw [setups_redirectAll, fresh, List.nil_append, path_both, targets]

/-- The report of a launch goes to the second target of all, if there is one. -/
theorem Plan.errorTarget?_redirectAll (fresh : plan.setups = []) :
    (plan.redirectAll calls).errorTarget? = (targets calls)[1]? := by
  rw [errorTarget?, setups_redirectAll, fresh, List.nil_append, targets]
  cases pairs calls with
  | nil => rfl
  | cons pair rest => rfl

/-- Targets come in pairs, so one of them means that there are two. -/
theorem exists_second_target (nonempty : targets calls ≠ []) :
    ∃ path, (targets calls)[1]? = some path := by
  unfold targets at nonempty ⊢
  cases asked : pairs calls with
  | nil =>
      rw [asked] at nonempty
      exact absurd rfl nonempty
  | cons pair rest => exact ⟨pair.2, rfl⟩

end

/-! ### Stages of a launch -/

section
variable {plan : Plan} {mode : Mode} {machine middle last : Machine} {locations : List Location}
  {cause : IoError} {wiring : Wiring}

/-- The first target that cannot be opened ends the launch. -/
theorem Plan.run_of_stops {path : Path}
    (stops : machine.Stops mode (plan.setups.map Setup.path) locations middle path cause) :
    plan.run mode machine = ⟨middle, .error (.redirect path cause), []⟩ := by
  unfold run
  rw [openTargets_of_stops stops]

theorem Plan.opening_of_opens
    (opens : machine.Opens mode (plan.setups.map Setup.path) locations last) :
    plan.opening mode machine = ⟨last, Wiring.connectAll {} plan.setups locations, none⟩ :=
  openTargets_of_opens opens {}

theorem Plan.opening_eq_of_opens
    (opens : machine.Opens mode (plan.setups.map Setup.path) locations last) :
    plan.opening mode machine = ⟨last, (plan.opening mode machine).wiring, none⟩ := by
  rw [opening_of_opens opens]

/-- Once its targets are open and its file is found, a program runs and what it writes is passed
on. -/
theorem Plan.run_eq_of_found {executable : Machine.Executable}
    (opened : plan.opening mode machine = ⟨last, wiring, none⟩)
    (found : plan.find last wiring = .ok executable) :
    let behaviour := executable.program.run (plan.invocation last executable)
    let delivery := deliver wiring last (fun _ => 0) behaviour.writes
    plan.run mode machine =
      ⟨delivery.machine, .ok behaviour.status,
        .attempted (plan.attempt wiring) :: .started plan.program executable.location ::
          delivery.events ++ [.ended plan.program behaviour.status]⟩ := by
  unfold run
  rw [← opening, opened]
  dsimp only
  rw [found]

/-- Such a launch has the status of the program, whatever that is. -/
theorem Plan.run_of_found {executable : Machine.Executable}
    (opened : plan.opening mode machine = ⟨last, wiring, none⟩)
    (found : plan.find last wiring = .ok executable) :
    (plan.run mode machine).result =
        .ok (executable.program.run (plan.invocation last executable)).status ∧
      .started plan.program executable.location ∈ (plan.run mode machine).events := by
  rw [run_eq_of_found opened found]
  exact ⟨rfl, by simp⟩

/-- A program that cannot be started is the failure of the launch where no target is asked for. -/
theorem Plan.run_of_inherited (opened : plan.opening mode machine = ⟨last, wiring, none⟩)
    (missed : plan.find last wiring = .error cause) (inherited : plan.errorTarget? = none) :
    plan.run mode machine =
      ⟨last, .error (.start plan.program cause), [.attempted (plan.attempt wiring)]⟩ := by
  unfold run
  rw [← opening, opened]
  dsimp only
  rw [missed, inherited]

/-- If a program cannot be started and the target for the report takes it, the launch counts as a
program that has ended. -/
theorem Plan.run_of_reported {path : Path} {told : Machine}
    (opened : plan.opening mode machine = ⟨last, wiring, none⟩)
    (missed : plan.find last wiring = .error cause) (asked : plan.errorTarget? = some path)
    (taken : last.append path diagnostic = .ok told) :
    plan.run mode machine =
      ⟨told, .ok notStarted,
        [.attempted (plan.attempt wiring), .diverted plan.program cause]⟩ := by
  unfold run
  rw [← opening, opened]
  dsimp only
  rw [missed, asked]
  dsimp only
  rw [taken]

/-- If the report cannot be made, its target is the failure of the launch. -/
theorem Plan.run_of_unreported {path : Path} {refusal : IoError}
    (opened : plan.opening mode machine = ⟨last, wiring, none⟩)
    (missed : plan.find last wiring = .error cause) (asked : plan.errorTarget? = some path)
    (refused : last.append path diagnostic = .error refusal) :
    plan.run mode machine =
      ⟨last, .error (.redirect path refusal),
        [.attempted (plan.attempt wiring), .diverted plan.program cause]⟩ := by
  unfold run
  rw [← opening, opened]
  dsimp only
  rw [missed, asked]
  dsimp only
  rw [refused]

/-- A program that cannot be started is not started. -/
theorem Plan.not_started_of_missed (opened : plan.opening mode machine = ⟨last, wiring, none⟩)
    (missed : plan.find last wiring = .error cause) (path : Path) (location : Location) :
    .started path location ∉ (plan.run mode machine).events := by
  cases asked : plan.errorTarget? with
  | none =>
      rw [run_of_inherited opened missed asked]
      simp
  | some target =>
      cases report : last.append target diagnostic with
      | ok told =>
          rw [run_of_reported opened missed asked report]
          simp
      | error refusal =>
          rw [run_of_unreported opened missed asked report]
          simp

end

/-!
Each pair of targets takes the place of the one before, so the streams are connected to the last
pair of all.
-/

section
variable {mode : Mode} {machine last : Machine} {locations : List Location}
  {calls : List (Option (Path × Path))} {earlier : List (Path × Path)} {output error : Path}

/-- Where targets are asked for there is a last pair. -/
theorem exists_last_pair (nonempty : targets calls ≠ []) :
    ∃ earlier output error, pairs calls = earlier ++ [(output, error)] := by
  unfold targets at nonempty
  rcases List.eq_nil_or_concat (pairs calls) with none | ⟨earlier, pair, ends⟩
  · rw [none] at nonempty
    exact absurd rfl nonempty
  · exact ⟨earlier, pair.1, pair.2, ends.trans List.concat_eq_append⟩

theorem targets_of_pairs_append (asked : pairs calls = earlier ++ [(output, error)]) :
    targets calls = (earlier.flatMap fun pair => [pair.1, pair.2]) ++ [output, error] := by
  rw [targets, asked, List.flatMap_append, List.flatMap_singleton]

theorem length_flatMap_pair (earlier : List (Path × Path)) :
    (earlier.flatMap fun pair => [pair.1, pair.2]).length = 2 * earlier.length := by
  induction earlier with
  | nil => rfl
  | cons pair earlier ih =>
      rw [List.flatMap_cons, List.length_append, ih, List.length_cons]
      simp only [List.length_cons, List.length_nil]
      omega

/-- The last two targets have two locations of their own at the end. -/
theorem exists_last_locations {before : List Path}
    (opens : machine.Opens mode (before ++ [output, error]) locations last) :
    ∃ front outputAt errorAt, locations = front ++ [outputAt, errorAt] ∧
      front.length = before.length := by
  have count : locations.length = before.length + 2 := by
    rw [opens.length_eq, List.length_append]
    rfl
  have two : (locations.drop before.length).length = 2 := by
    rw [List.length_drop, count]
    omega
  match ends : locations.drop before.length, two with
  | [outputAt, errorAt], _ =>
      refine ⟨locations.take before.length, outputAt, errorAt, ?_, ?_⟩
      · rw [← ends, List.take_append_drop]
      · rw [List.length_take, count]
        omega

/-- The streams of the program are connected to the two targets that were opened last. -/
theorem Plan.wiring_of_last_pair (plan : Plan) (fresh : plan.setups = [])
    (asked : pairs calls = earlier ++ [(output, error)])
    (opens : machine.Opens mode (targets calls) locations last) :
    ∃ front outputAt errorAt, locations = front ++ [outputAt, errorAt] ∧
      front.length = 2 * earlier.length ∧
      ((plan.redirectAll calls).opening mode machine).wiring =
        ⟨some ⟨output, outputAt⟩, some ⟨error, errorAt⟩⟩ := by
  have ends := targets_of_pairs_append asked
  obtain ⟨front, outputAt, errorAt, rfl, length⟩ := exists_last_locations (ends ▸ opens)
  refine ⟨front, outputAt, errorAt, rfl, ?_, ?_⟩
  · rw [length, length_flatMap_pair]
  · have aligned : front.length = (earlier.flatMap Setup.both).length := by
      rw [length, ← path_both, List.length_map]
    rw [← path_setups_redirectAll fresh] at opens
    rw [opening_of_opens opens, setups_redirectAll, fresh, List.nil_append, asked,
      List.flatMap_append, List.flatMap_singleton, Wiring.connectAll_append {} _ _ aligned]
    rfl

end

/-- A launch opens its targets in the order in which they were asked for, standard output first in
each pair.  The first one that cannot be opened ends it: the ones before are left empty, nothing
else has changed, and no program is started.  With all of them open the program decides: its end is
that of the launch if it can be started.  If it cannot, then the launch fails without targets, and
counts as a program with an exit code of its own if the first target for standard error can take
the report. -/
theorem Plan.run_in_order (mode : Mode) (machine : Machine) (program : Path)
    (arguments : List String) (calls : List (Option (Path × Path))) :
    let plan := Plan.redirectAll { program, arguments } calls
    let wiring := (plan.opening mode machine).wiring
    let launched := plan.run mode machine
    plan.setups = (pairs calls).flatMap (fun pair => [⟨.output, pair.1⟩, ⟨.error, pair.2⟩]) ∧
    ((∃ locations last, machine.Opens mode (targets calls) locations last) ∨
      ∃ locations middle path cause,
        machine.Stops mode (targets calls) locations middle path cause) ∧
    (∀ locations middle path cause,
      machine.Stops mode (targets calls) locations middle path cause →
        launched = ⟨middle, .error (.redirect path cause), []⟩ ∧
        machine.EmptiesOnly mode locations middle) ∧
    (∀ locations last, machine.Opens mode (targets calls) locations last →
      machine.EmptiesOnly mode locations last ∧
      (∀ executable, plan.find last wiring = .ok executable →
        launched.result =
            .ok (executable.program.run (plan.invocation last executable)).status ∧
          .started program executable.location ∈ launched.events) ∧
      (∀ cause, plan.find last wiring = .error cause →
        (∀ path location, .started path location ∉ launched.events) ∧
        (targets calls = [] → launched.result = .error (.start program cause)) ∧
        (targets calls ≠ [] → ∃ told, locations[1]? = some told ∧
          (¬ machine.SealsAt mode told → launched.result = .ok (.exited 1))))) := by
  intro plan wiring launched
  have paths : plan.setups.map Setup.path = targets calls := path_setups_redirectAll rfl
  have report : plan.errorTarget? = (targets calls)[1]? := errorTarget?_redirectAll rfl
  have named : plan.program = program := program_redirectAll _ calls
  refine ⟨setups_redirectAll _ calls, machine.opens_or_stops mode (targets calls), ?_, ?_⟩
  · intro locations middle path cause stops
    have empties : machine.EmptiesOnly mode locations middle := by
      obtain ⟨before, after, _, opens⟩ := stops.opened
      exact opens.emptiesOnly
    rw [← paths] at stops
    exact ⟨run_of_stops stops, empties⟩
  · intro locations last opens
    have opened : plan.opening mode machine = ⟨last, wiring, none⟩ :=
      opening_eq_of_opens (paths ▸ opens)
    refine ⟨opens.emptiesOnly, ?_, ?_⟩
    · intro executable found
      rw [← named]
      exact run_of_found opened found
    · intro cause missed
      refine ⟨not_started_of_missed opened missed, ?_, ?_⟩
      · intro none
        rw [none] at report
        have ended : launched = _ := run_of_inherited opened missed report
        rw [ended, named]
      · intro nonempty
        obtain ⟨path, second⟩ := exists_second_target nonempty
        obtain ⟨told, there⟩ := opens.exists_getElem? second
        refine ⟨told, there, ?_⟩
        intro unsealed
        obtain ⟨current, appended⟩ :=
          (opens.append_of_getElem? second there diagnostic).2 unsealed
        have ended : launched = _ :=
          run_of_reported opened missed (report.trans second) appended
        rw [ended]
        rfl

/-- A launch on a machine without files, which asks for one file twice and then for one in a
directory that is not there. -/
theorem run_in_order_repeated :
    let calls := [some (bytesOf "a.out", bytesOf "a.err"), none,
      some (bytesOf "a.out", bytesOf "gone/b.err")]
    ∃ middle, ((Plan.mk (bytesOf "/run") [] []).redirectAll calls).run 0o644 {} =
        ⟨middle, .error (.redirect (bytesOf "gone/b.err") (.system .missing)), []⟩ ∧
      Machine.EmptiesOnly 0o644 {} [[bytesOf "a.out"], [bytesOf "a.err"], [bytesOf "a.out"]]
        middle := by
  intro calls
  have stops : ∃ middle, Machine.Stops {} 0o644 (targets calls)
      [[bytesOf "a.out"], [bytesOf "a.err"], [bytesOf "a.out"]] middle
      (bytesOf "gone/b.err") (.system .missing) :=
    ⟨_, ⟨[bytesOf "a.out", bytesOf "a.err", bytesOf "a.out"], [], rfl,
      .more rfl (.more rfl (.more rfl .none))⟩, rfl⟩
  obtain ⟨middle, stops⟩ := stops
  exact ⟨middle, (Plan.run_in_order 0o644 {} (bytesOf "/run") [] calls).2.2.1 _ _ _ _ stops⟩

/-- A machine with one file, whose content would run with the rights of its owner. -/
def withLentRights : Machine where
  files := ⟨[([bytesOf "a.out"], .file 0o4755 (.text (bytesOf "old")))]⟩

/-- A target that is truncated does not keep a mode that lends the owner's rights. -/
theorem lent_rights_not_kept :
    let plan := (Plan.mk (bytesOf "/run") [] []).redirectAll
      [some (bytesOf "a.out", bytesOf "gone/b.err")]
    let launched := plan.run 0o644 withLentRights
    launched.result = .error (.redirect (bytesOf "gone/b.err") (.system .missing)) ∧
      ¬ ∀ old content,
        withLentRights.files.get? [bytesOf "a.out"] = some (.file old content) →
        launched.machine.files.get? [bytesOf "a.out"] = some (.file old (.text [])) := by
  intro plan launched
  have before : withLentRights.files.get? [bytesOf "a.out"] =
      some (.file 0o4755 (.text (bytesOf "old"))) := rfl
  have after : launched.machine.files.get? [bytesOf "a.out"] =
      some (.file 0o755 (.text [])) := rfl
  refine ⟨rfl, ?_⟩
  intro kept
  have same := after.symm.trans (kept _ _ before)
  simp at same

end CommandShell.Launch
