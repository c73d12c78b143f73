/-
Module: CommandShell.Proofs.ExitCode
Purpose: The exit code of the shell as a command, and what has been done when it is given.
Trusted boundary: none
Main exports:
  LineSource.Sound, Reader.sound, Session.result_run_of_sound, Script.Unloadable,
  Script.load_eq_error_iff, CommandLine.opening, CommandLine.runSession_of_leaves,
  CommandLine.exit_code
-/
import CommandShell.Proofs.ExitLine
import CommandShell.Proofs.OutputStream
import CommandShell.Proofs.Resemblance

namespace CommandShell

/-- However often it is asked, the source does not answer with a failure. -/
def LineSource.Sound {σ : Type} [LineSource σ] (source : σ) : Prop :=
  ∀ count cause, .failed cause ∉ readings count source

namespace LineSource.Sound

variable {σ : Type} [LineSource σ] {source : σ}

/-- A sound source does not fail when it is asked. -/
theorem next (sound : Sound source) (cause : ShellError) :
    (LineSource.next source).1 ≠ .failed cause := by
  intro failed
  apply sound 1 cause
  simp [readings, failed]

/-- A sound source is sound after it has been asked. -/
theorem rest (sound : Sound source) : Sound (LineSource.next source).2 := by
  intro count cause member
  apply sound (count + 1) cause
  simp [readings, member]

end LineSource.Sound

/-- The failure that a cut stops at is one of the stream. -/
theorem failure_mem_of_cut {items : List Item} {cause : IoError}
    (stopped : (cut items).stop = .failed cause) : .failure cause ∈ items := by
  induction items with
  | nil => simp [cut] at stopped
  | cons item items ih =>
      cases item with
      | failure other => simp_all [cut]
      | byte value =>
          rw [cut] at stopped
          split at stopped
          · simp at stopped
          · simpa using ih stopped

/-- What is left after a cut is an end of the stream. -/
theorem rest_cut_suffix (items : List Item) : (cut items).rest <:+ items := by
  induction items with
  | nil => simp [cut]
  | cons item items ih =>
      cases item with
      | failure cause => simp [cut]
      | byte value =>
          rw [cut]
          split
          · simp
          · exact ih.trans (List.suffix_cons _ _)

/-- The answers of the reference are no failures if the stream has none. -/
theorem LineStream.sound {limit : Nat} {items : List Item}
    (sound : ∀ cause, .failure cause ∉ items) : LineSource.Sound (LineStream.mk limit items) := by
  intro count cause member
  induction count generalizing items with
  | zero => simp [LineSource.readings] at member
  | succ count ih =>
      rw [LineSource.readings] at member
      rcases List.mem_cons.mp member with answered | later
      · have answered : (cut items).answer limit = .failed cause := answered.symm
        unfold Cut.answer at answered
        split at answered
        case h_1 => split at answered <;> cases answered
        case h_2 => split at answered <;> cases answered
        case h_3 failed stopped => exact sound _ (failure_mem_of_cut stopped)
      · apply ih _ later
        intro other left
        exact sound other ((rest_cut_suffix items).subset left)

/-- A reader fails only if what it reads from does. -/
theorem Reader.sound {limit : Nat} (positive : 1 ≤ limit) {supply : Supply}
    (sound : ∀ cause, .failed cause ∉ supply.refills) :
    LineSource.Sound (Reader.mk limit supply) := by
  have flat : ∀ cause, .failure cause ∉ supply.stream := by
    intro cause member
    simp only [Supply.stream, List.mem_append, List.mem_map, List.mem_flatMap, reduceCtorEq,
      and_false, exists_false, false_or] at member
    obtain ⟨refill, member, inside⟩ := member
    cases refill with
    | chunk bytes => simp [Refill.items] at inside
    | interrupted => simp [Refill.items] at inside
    | failed other =>
        obtain rfl : cause = other := by simpa [Refill.items] using inside
        exact sound cause member
  intro count
  rw [lineStream_simulation.readings_eq ⟨positive, rfl⟩]
  exact LineStream.sound flat count

namespace Session

variable {session : Session}

/-- A session that ends with an answer ends well, unless the source failed. -/
theorem result_answer_of_sound {reading : Reading} {result : Except ShellError Unit}
    (sound : ∀ cause, reading ≠ .failed cause)
    (ended : (session.answer reading).result = some result) : result = .ok () := by
  cases reading with
  | line text =>
      unfold answer at ended
      dsimp only at ended
      split at ended <;> simp_all
  | overflow => simp [answer] at ended
  | interrupted => simp [answer] at ended
  | finished => simpa [answer] using ended.symm
  | failed cause => exact absurd rfl (sound cause)

/-- A session ends well if its output stream takes everything and its source does not fail. -/
theorem result_run_of_sound {σ : Type} [LineSource σ] (takes : session.out = {}) {source : σ}
    (sound : LineSource.Sound source) : (session.run source).result = .ok () := by
  revert takes sound
  apply run_induction (motive := fun session source step =>
    session.out = {} → LineSource.Sound source → step.result = .ok ())
  · intro session source result turned ended takes sound
    have ended : (session.turn _ _).result = some result := ended
    have prompted : (session.showPrompt (LineSource.showsPrompt source)).result = .ok () := by
      simp [showPrompt_of_takes takes]
    rw [turn_of_prompted prompted] at ended
    exact result_answer_of_sound sound.next ended
  · intro session source later turned more ih takes sound
    have once := arrives_turn takes (LineSource.showsPrompt source) (LineSource.next source).1
    exact ih once.out sound.rest

/-- Startup lines leave an output stream that takes everything. -/
theorem out_sourceLines (takes : session.out = {}) (lines : List String) :
    (session.sourceLines lines).session.out = {} := by
  have left := (session.accounts_sourceLines lines).sink .output
  simpa [sink, takes, Sink.written] using left

/-- Startup lines and then a sound source: the session ends well. -/
theorem result_play_of_sound {σ : Type} [LineSource σ] (takes : session.out = {})
    (lines : List String) {source : σ} (sound : LineSource.Sound source) :
    (session.play lines source).result = .ok () := by
  unfold play
  dsimp only
  split
  · rfl
  · exact result_run_of_sound (out_sourceLines takes lines) sound

@[simp] theorem reads_sourceLines (session : Session) (lines : List String) :
    reads (session.sourceLines lines).events = [] := by
  induction lines generalizing session with
  | nil => rfl
  | cons line rest ih =>
      rw [sourceLines]
      dsimp only
      split
      · simp
      · simp [ih]

end Session

/-! ### Startup scripts -/

namespace Script

variable {machine : Machine} {asked rc : Option Path}

/-- The script that is chosen: the one that is asked for, or else that of the home directory, if it
is there. -/
def chosen (machine : Machine) (asked rc : Option Path) : Option Path :=
  asked <|> rc.filter machine.reaches

/-- The script that is asked for is not there, or the script that is chosen cannot be read as
text. -/
def Unloadable (machine : Machine) (asked rc : Option Path) : Prop :=
  (∃ path, asked = some path ∧ machine.reaches path = false) ∨
    ∃ path, chosen machine asked rc = some path ∧
      ∀ text : String, machine.read path ≠ .ok (bytesOf text)

/-- A file that holds a text is read as the commands in that text. -/
theorem read_of_text {path : Path} {text : String}
    (holds : machine.read path = .ok (bytesOf text)) :
    read machine path = .ok (commands text.toList) := by
  have decoded : Text.decode? (bytesOf text) = some text.toList :=
    Text.decode?_eq_some_iff.mpr rfl
  simp [read, holds, decoded]

/-- Exactly the files that hold text can be read as scripts. -/
theorem read_eq_error_iff {path : Path} :
    (∃ error, read machine path = .error error) ↔
      ∀ text : String, machine.read path ≠ .ok (bytesOf text) := by
  constructor
  · rintro ⟨error, failed⟩ text holds
    simp [read_of_text holds] at failed
  · intro unreadable
    cases holds : machine.read path with
    | error cause => simp [read, holds]
    | ok bytes =>
        cases decoded : Text.decode? bytes with
        | none => simp [read, holds, decoded]
        | some content =>
            apply absurd _ (unreadable (String.ofList content))
            simpa [holds, bytesOf] using Text.decode?_eq_some_iff.mp decoded

/-- Loading fails for these two reasons and for no other. -/
theorem load_eq_error_iff :
    (∃ error, load machine asked rc = .error error) ↔ Unloadable machine asked rc := by
  have mapped : ∀ path, (∃ error, (read machine path).map some = .error error) ↔
      ∀ text : String, machine.read path ≠ .ok (bytesOf text) := by
    intro path
    rw [← read_eq_error_iff]
    cases read machine path with
    | error => simp [Except.map]
    | ok => simp [Except.map]
  unfold load Unloadable chosen
  cases asked with
  | some path =>
      cases there : machine.reaches path with
      | true => simpa [there] using mapped path
      | false => simp [there]
  | none =>
      cases rc with
      | none => simp
      | some path =>
          cases there : machine.reaches path with
          | true => simpa [there, Option.filter] using mapped path
          | false => simp [there]

end Script

/-- The startup script of the home directory, wherever that is. -/
def Environment.rc (environment : Environment) : Option Path :=
  (Script.homeDirectory environment.home environment.accountHome).map Script.rcPath

/-! ### How the shell as a command goes -/

namespace CommandLine

/-- The session that options start. -/
def opening (environment : Environment) (options : Options) : Session :=
  Session.start (Settings.ofOptions options) environment.machine environment.home {} {}

section

variable {arguments : List String} {options : Options}

/-- Refused arguments: code 2, and nothing is read or executed. -/
theorem run_of_refused {error : OptionError}
    (parsed : ({} : Options).parse arguments = (options, .error error))
    (environment : Environment) (input : Supply) :
    run environment arguments input =
      { code := 2
        output := bytesOf Options.helpText
        error := bytesOf ("whoosh: " ++ (ShellError.options error.message).message ++ "\n")
        machine := environment.machine } := by
  simp [run, parsed]

/-- Help or version is printed instead of a session. -/
theorem run_of_informs (parsed : ({} : Options).parse arguments = (options, .ok ()))
    (informs : options.help = true ∨ options.version = true)
    (environment : Environment) (input : Supply) :
    run environment arguments input =
      { code := 0
        output := bytesOf (if options.help then Options.helpText else versionText)
        machine := environment.machine } := by
  cases help : options.help with
  | true => simp [run, parsed, help]
  | false =>
      have version : options.version = true := by simpa [help] using informs
      simp [run, parsed, help, version]

variable {environment : Environment}

/-- Without its script the shell reports why and does not start a session. -/
theorem run_of_unloadable (parsed : ({} : Options).parse arguments = (options, .ok ()))
    (works : ¬(options.help = true ∨ options.version = true)) {error : ScriptError}
    (failed : Script.load environment.machine (Settings.ofOptions options).script
      environment.rc = .error error) (input : Supply) :
    run environment arguments input =
      finish options.debug ⟨.error (.script error), opening environment options, []⟩ := by
  unfold Environment.rc at failed
  simp_all [run, opening]

/-- Otherwise there is a session: the script, if there is one, and then the input. -/
theorem run_of_loaded (parsed : ({} : Options).parse arguments = (options, .ok ()))
    (works : ¬(options.help = true ∨ options.version = true)) {script : Option (List String)}
    (loaded : Script.load environment.machine (Settings.ofOptions options).script
      environment.rc = .ok script) (input : Supply) :
    run environment arguments input =
      finish options.debug (runSession (opening environment options) script input) := by
  unfold Environment.rc at loaded
  simp_all [run, opening]

end

/-- A session on a source that does not fail ends with code 0, whatever its lines do. -/
theorem code_of_sound (environment : Environment) (options : Options)
    (script : Option (List String)) {input : Supply}
    (sound : ∀ cause, .failed cause ∉ input.refills) :
    (finish options.debug (runSession (opening environment options) script input)).code = 0 := by
  have positive : 1 ≤ (opening environment options).settings.lineLimit := by
    simp [opening, Session.start, Settings.ofOptions]
  have ended : (runSession (opening environment options) script input).result = .ok () := by
    rw [runSession_eq_play]
    apply Session.result_play_of_sound
    · rfl
    · exact Reader.sound positive sound
  simp [finish, ended]

/-- A script that cannot be loaded is told to the user, and that is all. -/
theorem finish_of_unloadable (environment : Environment) (options : Options)
    (error : ScriptError) :
    let exit := finish options.debug ⟨.error (.script error), opening environment options, []⟩
    exit.code = 1 ∧ exit.output = [] ∧ (options.debug = false → exit.error = diagnostic) ∧
      exit.machine = environment.machine := by
  refine ⟨rfl, rfl, ?_, rfl⟩
  intro quiet
  simp [finish, quiet, standardError, arrived, Session.report, Event.shellBytes,
    Event.programBytes, opening, Session.start, Sink.write]

/-- A startup script that leaves the session is all that is done: standard input is not read, and
nobody is prompted. -/
theorem runSession_of_leaves {script : Option (List String)} {before after : List String}
    {line : String} (lines : script.getD [] = before ++ line :: after)
    (stay : ∀ earlier ∈ before, ¬Leaves earlier) (leaves : Leaves line) (session : Session)
    (input : Supply) :
    let ran := runSession session script input
    executed ran.events = before ++ [line] ∧ reads ran.events = [] ∧
      (∀ write, .prompted write ∉ ran.events) ∧
      ∀ other, runSession session script other = ran := by
  have left : (session.sourceLines (script.getD [])).result = .exit := by
    apply (session.result_sourceLines_exit_iff _).mpr
    exists line
    simp [lines, leaves]
  have sourced : ∀ input, runSession session script input =
      { session.sourceLines (script.getD []) with result := .ok () } := by
    intro input
    simp [runSession, left]
  have these := (Session.sourceLines_of_leaves stay leaves after session).2
  rw [← lines] at these
  simp [sourced, these, Session.not_prompted_sourceLines]

/-- The exit code tells how far the command got, if its input does not fail.  Arguments that are
refused come before a call for help or for the version, and both before the startup script: in
these cases the rest of the environment and the input make no difference.  A script that cannot be
loaded is told to the user, and nothing else is done.  A session ends well whatever its lines do,
and a script that leaves it is the last thing that is executed. -/
theorem exit_code (environment : Environment) (arguments : List String)
    (input : Supply) (sound : ∀ cause, .failed cause ∉ input.refills) :
    let exit := run environment arguments input
    let options := (({} : Options).parse arguments).1
    let refused := ∃ error, (({} : Options).parse arguments).2 = .error error
    let informs := options.help = true ∨ options.version = true
    let unloadable := Script.Unloadable environment.machine
      (Settings.ofOptions options).script environment.rc
    (exit.code = 2 ↔ refused) ∧
    (exit.code = 1 ↔ ¬refused ∧ ¬informs ∧ unloadable) ∧
    (exit.code = 0 ↔ ¬refused ∧ (informs ∨ ¬unloadable)) ∧
    (refused ∨ informs → ∀ (elsewhere : Environment) (other : Supply),
      run elsewhere arguments other = { exit with machine := elsewhere.machine }) ∧
    (¬refused → ¬informs → unloadable →
      exit.output = [] ∧ (options.debug = false → exit.error = diagnostic) ∧
        exit.machine = environment.machine ∧
        ∀ other, run environment arguments other = exit) ∧
    (¬refused → ¬informs → ∀ script,
      Script.load environment.machine (Settings.ofOptions options).script environment.rc =
        .ok script →
      let ran := runSession (opening environment options) script input
      exit = finish options.debug ran ∧
        ∀ before line after, script.getD [] = before ++ line :: after →
          (∀ earlier ∈ before, ¬Leaves earlier) → Leaves line →
          executed ran.events = before ++ [line] ∧ reads ran.events = [] ∧
            (∀ write, .prompted write ∉ ran.events) ∧
            ∀ other, run environment arguments other = exit) := by
  dsimp only
  obtain ⟨options, result, parsed⟩ :
    ∃ options result, ({} : Options).parse arguments = (options, result) := ⟨_, _, rfl⟩
  rw [parsed]
  cases result with
  | error error => simp [run_of_refused parsed]
  | ok value =>
      by_cases informs : options.help = true ∨ options.version = true
      · simp [run_of_informs parsed informs, informs]
      · cases loads : Script.load environment.machine (Settings.ofOptions options).script
            environment.rc with
        | error error =>
            have unloadable := Script.load_eq_error_iff.mp ⟨error, loads⟩
            obtain ⟨code, output, told, machine⟩ := finish_of_unloadable environment options error
            simpa [run_of_unloadable parsed informs loads, informs, unloadable, code, output,
              machine] using told
        | ok script =>
            have loadable : ¬Script.Unloadable environment.machine
                (Settings.ofOptions options).script environment.rc := by
              rw [← Script.load_eq_error_iff]
              simp [loads]
            have code := code_of_sound environment options script sound
            simp only [run_of_loaded parsed informs loads, code, informs, loadable]
            refine ⟨by simp, by simp, by simp, by simp, by simp, ?_⟩
            rintro - - script ⟨⟩
            refine ⟨rfl, ?_⟩
            intro before line after lines stay leaves
            obtain ⟨these, unread, unprompted, same⟩ :=
              runSession_of_leaves lines stay leaves (opening environment options) input
            exact ⟨these, unread, unprompted, fun other => by rw [same]⟩

/-- A machine with a script that fails, leaves the session and goes on. -/
def withScript : Environment where
  machine.files := ⟨[([bytesOf "script"], .file 0o644 (.text (bytesOf "cd x\nexit\npwd\n")))]⟩
  home := none
  accountHome := none

/-- An unknown option after a call for help, a script that is not there, and the script, on an
input that is interrupted. -/
theorem exit_code_script_leaves :
    let input : Supply := ⟨bytesOf "pw", [.interrupted, .chunk (bytesOf "d\n")]⟩
    (run withScript ["-h", "-x"] input).code = 2 ∧
      run { withScript with machine := {} } ["-h", "-x"] {} =
        { run withScript ["-h", "-x"] input with machine := {} } ∧
      (run withScript ["-c", "/none"] input).code = 1 ∧
      (run withScript ["-c", "/none"] input).error = diagnostic ∧
      (run withScript ["-c", "/script"] input).code = 0 ∧
      (run withScript ["-c", "/script"] {}) = run withScript ["-c", "/script"] input := by
  intro input
  have sound : ∀ cause, .failed cause ∉ input.refills := by simp [input]
  refine ⟨?_, ?_, ?_, ?_, ?_, ?_⟩
  · obtain ⟨two, _⟩ := exit_code withScript ["-h", "-x"] input sound
    exact two.mpr ⟨.unknown "-x", rfl⟩
  · obtain ⟨_, _, _, early, _⟩ := exit_code withScript ["-h", "-x"] input sound
    exact early (.inl ⟨.unknown "-x", rfl⟩) _ _
  · obtain ⟨_, one, _⟩ := exit_code withScript ["-c", "/none"] input sound
    exact one.mpr ⟨nofun, by decide, .inl ⟨bytesOf "/none", rfl, by decide⟩⟩
  · obtain ⟨_, _, _, _, fatal, _⟩ := exit_code withScript ["-c", "/none"] input sound
    exact (fatal nofun (by decide) (.inl ⟨bytesOf "/none", rfl, by decide⟩)).2.1 rfl
  · obtain ⟨_, _, zero, _⟩ := exit_code withScript ["-c", "/script"] input sound
    have loaded : ¬Script.Unloadable withScript.machine (some (bytesOf "/script")) none := by
      rintro (⟨path, ⟨⟩, missing⟩ | ⟨path, ⟨⟩, unreadable⟩)
      · simp [show withScript.machine.reaches (bytesOf "/script") = true by decide] at missing
      · exact unreadable "cd x\nexit\npwd\n" rfl
    exact zero.mpr ⟨nofun, .inr loaded⟩
  · obtain ⟨_, _, _, _, _, session⟩ := exit_code withScript ["-c", "/script"] input sound
    obtain ⟨_, leaves⟩ := session nofun (by decide) (some ["cd x", "exit", "pwd"]) rfl
    exact (leaves ["cd x"] "exit" ["pwd"] rfl (by decide) (by decide)).2.2.2 {}

end CommandLine
end CommandShell
