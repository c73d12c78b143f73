/-
Module: CommandShell.Proofs.BeforeLaunch
Purpose: What becomes of a command that is refused or not found, before any file is opened.
Trusted boundary: none
Main exports:
  Redirection.Rules.parse_error_of_not_accepts, Step.Touches, Session.perform_of_refused,
  Session.perform_of_unresolved, Session.perform_of_prepares, Session.perform_before_launch
-/
import CommandShell.Proofs.StartedProgram

namespace CommandShell

/-!
A command for a program is read, then its name is looked up, and only then targets are opened.  As
the first two change nothing, a command that fails in them leaves the session exactly as it was.
-/

/-- What the grammar does not accept is refused, with a reason that the tokens alone decide. -/
theorem Redirection.Rules.parse_error_of_not_accepts {rules : Redirection.Rules}
    {tokens : List String} (refused : ∀ parsed, ¬ rules.Accepts tokens parsed) :
    ∃ error, rules.parse tokens = .error error := by
  cases read : rules.parse tokens with
  | error error => exact ⟨error, rfl⟩
  | ok parsed => exact absurd (parse_eq_ok_iff.mp read) (refused parsed)

/-- A part of a session does something to the session or to the machine: the session is another
one after it, or it did more than look for candidates. -/
def Step.Touches {α : Type} (step : Step α) (session : Session) : Prop :=
  step.session ≠ session ∨ ∃ event ∈ step.events, ∀ candidate, event ≠ .probed candidate

/-- Looking for candidates touches nothing. -/
theorem Step.not_touches {α : Type} (result : α) (session : Session) (candidates : List String) :
    ¬ Step.Touches ⟨result, session, candidates.map Event.probed⟩ session := by
  intro touches
  rcases touches with changed | ⟨event, member, other⟩
  · exact changed rfl
  · obtain ⟨candidate, _, rfl⟩ := List.mem_map.mp member
    exact other candidate rfl

namespace Session

variable {session : Session} {name program : String} {rest : List String}
  {parsed : Redirection.Parsed}

/-- A command that the grammar refuses leaves the session as it is, and nothing happens. -/
theorem perform_of_refused {error : ClauseError} (external : Builtin.ofName? name = none)
    (refused : session.settings.redirection.parse (name :: rest) = .error error) :
    session.perform (name :: rest) = ⟨.error (.clause error), session, []⟩ := by
  rw [perform_external external, World.runProgram, refused]

/-- A command without a program leaves the session as it is; all that happens is the search. -/
theorem perform_of_unresolved {error : ResolveError} (external : Builtin.ofName? name = none)
    (accepted : session.settings.redirection.Accepts (name :: rest) parsed)
    (unresolved : (session.world.resolution session.settings name).result = .error error) :
    session.perform (name :: rest) =
      ⟨.error (.resolve error), session,
        (session.world.resolution session.settings name).probed.map Event.probed⟩ := by
  have read := Redirection.Rules.parse_eq_ok_iff.mpr accepted
  have cases := session.world.runProgram_cases session.settings name rest
  rw [perform_external external]
  generalize session.world.runProgram session.settings (name :: rest) = effect at cases
  cases cases with
  | refused refused => cases read.symm.trans refused
  | @unresolved _ error' _ unresolved' =>
      cases unresolved.symm.trans unresolved'
      rfl
  | launched _ resolved => cases unresolved.symm.trans resolved

/-- A command that is accepted and found is launched, on the machine as it was. -/
theorem perform_of_prepares
    (prepared : session.world.Prepares session.settings name rest parsed program) :
    (session.perform (name :: rest)).session.world.machine =
      ((parsed.plan program).run session.settings.targetMode session.world.machine).machine := by
  have read := Redirection.Rules.parse_eq_ok_iff.mpr prepared.accepted
  have cases := session.world.runProgram_cases session.settings name rest
  rw [perform_external prepared.external]
  generalize session.world.runProgram session.settings (name :: rest) = effect at cases
  cases cases with
  | refused refused => cases read.symm.trans refused
  | unresolved _ unresolved => cases prepared.resolved.symm.trans unresolved
  | launched accepted resolved =>
      cases read.symm.trans accepted
      cases prepared.resolved.symm.trans resolved
      unfold World.afterLaunch
      dsimp only
      split <;> rfl

/-- Tokens for a program that the grammar refuses fail whatever the search path and the files are,
and tokens whose name does not resolve fail after the candidates have been looked at.  Both leave the
session as it is, its files and its output stream included.  So what else comes of the tokens comes
of a launch, and for that both the reading and the search have succeeded. -/
theorem perform_before_launch (session : Session) {name : String} (rest : List String)
    (external : Builtin.ofName? name = none) :
    ((∀ parsed, ¬ session.settings.redirection.Accepts (name :: rest) parsed) →
      ∃ error, ∀ world : World, { session with world }.perform (name :: rest) =
        ⟨.error (.clause error), { session with world }, []⟩) ∧
    (∀ parsed error, session.settings.redirection.Accepts (name :: rest) parsed →
      (session.world.resolution session.settings name).result = .error error →
      session.perform (name :: rest) =
        ⟨.error (.resolve error), session,
          (session.world.resolution session.settings name).probed.map Event.probed⟩) ∧
    ((session.perform (name :: rest)).Touches session ∨
        (∃ error, (session.perform (name :: rest)).result = .error (.launch error)) ∨
        (∃ flow, (session.perform (name :: rest)).result = .ok flow) →
      ∃ parsed program, session.world.Prepares session.settings name rest parsed program ∧
        (session.perform (name :: rest)).session.world.machine =
          ((parsed.plan program).run session.settings.targetMode
            session.world.machine).machine) := by
  refine ⟨?_, fun parsed error => perform_of_unresolved external, ?_⟩
  · intro refused
    obtain ⟨error, read⟩ := Redirection.Rules.parse_error_of_not_accepts refused
    exact ⟨error, fun world => perform_of_refused external read⟩
  · intro more
    by_cases accepted : ∃ parsed, session.settings.redirection.Accepts (name :: rest) parsed
    · obtain ⟨parsed, accepted⟩ := accepted
      cases resolved : (session.world.resolution session.settings name).result with
      | ok program =>
          have prepared : session.world.Prepares session.settings name rest parsed program :=
            ⟨external, accepted, resolved⟩
          exact ⟨parsed, program, prepared, perform_of_prepares prepared⟩
      | error error =>
          rw [perform_of_unresolved external accepted resolved] at more
          rcases more with touches | ⟨_, none⟩ | ⟨_, none⟩
          · exact absurd touches (Step.not_touches _ session _)
          · cases none
          · cases none
    · obtain ⟨error, read⟩ :=
        Redirection.Rules.parse_error_of_not_accepts (not_exists.mp accepted)
      rw [perform_of_refused external read] at more
      rcases more with touches | ⟨_, none⟩ | ⟨_, none⟩
      · exact absurd touches (Step.not_touches _ session [])
      · cases none
      · cases none

/-- A session in the root directory of a machine with one file, which may be read by its owner
only. -/
def withOneFile : Session where
  world.machine.files := ⟨[([bytesOf "r.out"], .file 0o600 (.text (bytesOf "kept\n")))]⟩

/-- A command that is not found would have gone to a file that is there; one more that is not even
read. -/
theorem perform_before_launch_kept :
    Builtin.ofName? "nosuch" = none ∧
      (withOneFile.world.resolution withOneFile.settings "nosuch").result =
        .error (.notFound "nosuch") ∧
      withOneFile.perform ["nosuch", ">", "r"] =
        ⟨.error (.resolve (.notFound "nosuch")), withOneFile, [.probed "/bin/nosuch"]⟩ ∧
      ∃ error, withOneFile.perform ["nosuch", ">"] = ⟨.error (.clause error), withOneFile, []⟩ := by
  have external : Builtin.ofName? "nosuch" = none := by decide
  have accepted : withOneFile.settings.redirection.Accepts ["nosuch", ">", "r"]
      ⟨["nosuch"], some ⟨"r.out", "r.err"⟩⟩ := Redirection.Rules.parse_eq_ok_iff.mp rfl
  have refused : ∀ parsed,
      ¬ withOneFile.settings.redirection.Accepts ["nosuch", ">"] parsed := by
    intro parsed accepts
    cases Redirection.Rules.parse_eq_ok_iff.mpr accepts
  refine ⟨external, rfl, ?_, ?_⟩
  · exact (perform_before_launch withOneFile [">", "r"] external).2.1 _ _ accepted rfl
  · obtain ⟨error, same⟩ := (perform_before_launch withOneFile [">"] external).1 refused
    exact ⟨error, same withOneFile.world⟩

end Session
end CommandShell
