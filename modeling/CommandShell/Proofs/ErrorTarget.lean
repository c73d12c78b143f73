/-
Module: CommandShell.Proofs.ErrorTarget
Purpose: Which file the report of a program that cannot be started goes to, and when it is the file
  that the program's standard error was connected to.
Trusted boundary: none
Main exports:
  Launch.Plan.error_opening, Launch.Plan.ReportsToErrorStream, Launch.Plan.reportsToErrorStream_iff
-/
import CommandShell.Proofs.LaunchOrder

namespace CommandShell.Launch

variable {mode : Mode} {machine last : Machine} {calls : List (Option (Path × Path))}
  {locations : List Location}

/-- Standard error is connected to the target that was opened last.  The report goes to the first
target for standard error. -/
theorem Plan.error_opening (plan : Plan) (fresh : plan.setups = []) (nonempty : targets calls ≠ [])
    (opens : machine.Opens mode (targets calls) locations last) :
    ∃ path location, locations.getLast? = some location ∧
      ((plan.redirectAll calls).opening mode machine).wiring.error = some ⟨path, location⟩ := by
  obtain ⟨earlier, output, error, asked⟩ := exists_last_pair nonempty
  obtain ⟨front, outputAt, errorAt, rfl, _, inForce⟩ := wiring_of_last_pair plan fresh asked opens
  refine ⟨error, errorAt, ?_, ?_⟩
  · rw [List.getLast?_append]
    rfl
  · rw [inForce]

/-- The report of a launch is where it belongs: it is all that the file holds to which standard
error has been connected, no other file has changed since the targets were opened, nothing has
arrived at the streams of the shell, and the target that the plan names for reports leads to that
file. -/
def Plan.ReportsToErrorStream (plan : Plan) (mode : Mode) (machine : Machine) : Prop :=
  ∃ file, (plan.opening mode machine).wiring.error = some file ∧
    (∃ current, (plan.run mode machine).machine.files.get? file.location =
      some (.file current (.text diagnostic))) ∧
    (∀ location, location ≠ file.location →
      (plan.run mode machine).machine.files.get? location =
        (plan.opening mode machine).machine.files.get? location) ∧
    (∀ stream, arrived stream (plan.run mode machine).events = []) ∧
    ∃ target current content, plan.errorTarget? = some target ∧
      (plan.run mode machine).machine.reach target = .ok (.file file.location current content)

theorem diagnostic_ne_nil : diagnostic ≠ [] := by decide

/-- An empty file does not hold the report. -/
theorem text_nil_ne_diagnostic {current other : Mode} {node : Option Node}
    (empty : node = some (.file current (.text []))) :
    node ≠ some (.file other (.text diagnostic)) := by
  rintro rfl
  rw [Option.some.injEq, Node.file.injEq, Content.text.injEq] at empty
  exact diagnostic_ne_nil empty.2

/-- If a program cannot be started after its targets have been opened, nothing arrives at the
streams of the shell, and the only file that can change is the first target for standard error,
which is the one that the plan names.  It gets the report, unless the launch has sealed it.  So the
report is where it belongs exactly if this target is the same file as the last one, which standard
error was connected to, and is not sealed. -/
theorem Plan.reportsToErrorStream_iff (mode : Mode) (machine : Machine) (program : Path)
    (arguments : List String) (calls : List (Option (Path × Path)))
    {locations : List Location} {last : Machine} {cause : IoError}
    (redirected : targets calls ≠ [])
    (opens : machine.Opens mode (targets calls) locations last)
    (missed : (Plan.redirectAll { program, arguments } calls).find last
      ((Plan.redirectAll { program, arguments } calls).opening mode machine).wiring =
        .error cause) :
    let plan := Plan.redirectAll { program, arguments } calls
    let launched := plan.run mode machine
    ∃ first inForce, locations[1]? = some first ∧ locations.getLast? = some inForce ∧
      plan.errorTarget? = (targets calls)[1]? ∧
      (∃ path, (plan.opening mode machine).wiring.error = some ⟨path, inForce⟩) ∧
      (∀ stream, arrived stream launched.events = []) ∧
      (machine.SealsAt mode first → launched.machine = last) ∧
      (¬ machine.SealsAt mode first → ∃ current, launched.machine =
        { last with files := last.files.put first (.written current diagnostic) }) ∧
      (plan.ReportsToErrorStream mode machine ↔
        first = inForce ∧ ¬ machine.SealsAt mode first) := by
  intro plan launched
  have paths : plan.setups.map Setup.path = targets calls := path_setups_redirectAll rfl
  have asked : plan.errorTarget? = (targets calls)[1]? := errorTarget?_redirectAll rfl
  obtain ⟨path, second⟩ := exists_second_target redirected
  obtain ⟨first, there⟩ := opens.exists_getElem? second
  obtain ⟨lastPath, inForce, ends, force⟩ :=
    error_opening { program, arguments } rfl redirected opens
  have opened : plan.opening mode machine =
      ⟨last, (plan.opening mode machine).wiring, none⟩ :=
    opening_eq_of_opens (paths ▸ opens)
  have appended := opens.append_of_getElem? second there diagnostic
  have named := asked.trans second
  have silent : ∀ stream, arrived stream launched.events = [] := by
    intro stream
    cases report : last.append path diagnostic with
    | ok told =>
        have ended : launched = _ := run_of_reported opened missed named report
        rw [ended]
        rfl
    | error refusal =>
        have ended : launched = _ := run_of_unreported opened missed named report
        rw [ended]
        rfl
  have kept : machine.SealsAt mode first → launched.machine = last := by
    intro seals
    have ended : launched = _ := run_of_unreported opened missed named (appended.1 seals)
    rw [ended]
  have told : ¬ machine.SealsAt mode first → ∃ current, launched.machine =
      { last with files := last.files.put first (.written current diagnostic) } := by
    intro unsealed
    obtain ⟨current, taken⟩ := appended.2 unsealed
    have ended : launched = _ := run_of_reported opened missed named taken
    exact ⟨current, by rw [ended]⟩
  refine ⟨first, inForce, there, ends, asked, ⟨lastPath, force⟩, silent, kept, told, ?_⟩
  constructor
  · -- Every target was empty before, so one that holds the report is the one that it was written to.
    rintro ⟨file, connected, ⟨current, holds⟩, _⟩
    obtain rfl : file = ⟨lastPath, inForce⟩ := Option.some.inj (connected.symm.trans force)
    have among : inForce ∈ locations := List.mem_of_getLast? ends
    obtain ⟨left, empty, _⟩ := opens.emptiesOnly.get?_of_mem among
    by_cases seals : machine.SealsAt mode first
    · rw [kept seals] at holds
      exact absurd holds (text_nil_ne_diagnostic empty)
    · refine ⟨?_, seals⟩
      obtain ⟨_, after⟩ := told seals
      by_cases same : inForce = first
      · exact same.symm
      · rw [after, FileSystem.get?_put, if_neg same] at holds
        exact absurd holds (text_nil_ne_diagnostic empty)
  · rintro ⟨rfl, unsealed⟩
    obtain ⟨current, after⟩ := told unsealed
    obtain ⟨_, reached, _⟩ := opens.reach_of_getElem? second there
    refine ⟨⟨lastPath, first⟩, force, ?_, ?_, silent, path, ?_⟩
    · refine ⟨current.afterWrite, ?_⟩
      rw [after, FileSystem.get?_put, if_pos rfl]
      rfl
    · intro location apart
      rw [after, opened, FileSystem.get?_put, if_neg apart]
    · refine ⟨current.afterWrite, .text diagnostic, named, ?_⟩
      rw [after]
      exact FileSystem.locate_put reached rfl

/-- A machine with one file, which may not be run. -/
def withPlainFile : Machine where
  files := ⟨[([bytesOf "plain"], .file 0o644 (.text (bytesOf "text")))]⟩

/-- Two pairs of targets that share the one for standard error. -/
theorem reportsToErrorStream_shared :
    let calls := [some (bytesOf "a.out", bytesOf "r.err"), none,
      some (bytesOf "b.out", bytesOf "r.err")]
    ((Plan.mk (bytesOf "/plain") [] []).redirectAll calls).ReportsToErrorStream 0o644
      withPlainFile := by
  intro calls
  have decided := Plan.reportsToErrorStream_iff 0o644 withPlainFile (bytesOf "/plain") [] calls
    (List.cons_ne_nil _ _) (.more rfl (.more rfl (.more rfl (.more rfl .none)))) rfl
  obtain ⟨first, inForce, there, ends, _, _, _, _, _, reports⟩ := decided
  cases there
  cases ends
  refine reports.mpr ⟨rfl, ?_⟩
  intro sealed
  exact absurd sealed.2 (by decide)

/-- With two pairs of targets the report goes to the first target for standard error, while standard
error is connected to the second. -/
theorem report_not_in_force :
    let plan := (Plan.mk (bytesOf "/plain") [] []).redirectAll
      [some (bytesOf "a.out", bytesOf "a.err"), some (bytesOf "b.out", bytesOf "b.err")]
    let opening := plan.opening 0o644 withPlainFile
    let launched := plan.run 0o644 withPlainFile
    opening.failure = none ∧
      plan.find opening.machine opening.wiring = .error (.system .denied) ∧
      opening.wiring.error = some ⟨bytesOf "b.err", [bytesOf "b.err"]⟩ ∧
      launched.machine.files.get? [bytesOf "a.err"] = some (.file 0o644 (.text diagnostic)) ∧
      launched.machine.files.get? [bytesOf "b.err"] = some (.file 0o644 (.text [])) ∧
      ¬ plan.ReportsToErrorStream 0o644 withPlainFile := by
  intro plan opening launched
  have inForce : opening.wiring.error = some ⟨bytesOf "b.err", [bytesOf "b.err"]⟩ := rfl
  have empty : launched.machine.files.get? [bytesOf "b.err"] =
      some (.file 0o644 (.text [])) := rfl
  refine ⟨rfl, rfl, inForce, rfl, empty, ?_⟩
  rintro ⟨file, connected, ⟨current, holds⟩, _⟩
  obtain rfl := Option.some.inj (inForce.symm.trans connected)
  exact text_nil_ne_diagnostic empty holds

end CommandShell.Launch
