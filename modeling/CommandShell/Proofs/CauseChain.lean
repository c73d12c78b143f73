/-
Module: CommandShell.Proofs.CauseChain
Purpose: The text of a failure ends with the text of whatever is at the root of it.
Trusted boundary: none
Main exports:
  EndsIn, Failure, Failure.text, Failure.source?, Failure.endsIn_source, Failure.causes,
  Failure.map_text_causes, Failure.pairwise_causes, Failure.exists_root,
  ShellError.message_ends_in_root
-/
import CommandShell.Event

namespace CommandShell

/-- The text is some other text and then the ending. -/
def EndsIn (text ending : String) : Prop :=
  ∃ before, text = before ++ ending

theorem EndsIn.append (before ending : String) : EndsIn (before ++ ending) ending :=
  ⟨before, rfl⟩

theorem EndsIn.refl (text : String) : EndsIn text text :=
  ⟨"", by simp⟩

theorem EndsIn.trans {text middle ending : String} (outer : EndsIn text middle)
    (inner : EndsIn middle ending) : EndsIn text ending := by
  obtain ⟨before, rfl⟩ := outer
  obtain ⟨between, rfl⟩ := inner
  exact ⟨before ++ between, by rw [String.append_assoc]⟩

/-!
Failures of different parts are behind each other, so they are brought together here.  A failure
that only passes another one on has the text of the other, and behind it is what is behind the
other.
-/

/-- A failure of any part of the shell. -/
inductive Failure where
  | io (error : IoError)
  | clause (error : ClauseError)
  | resolve (error : ResolveError)
  | launch (error : LaunchError)
  | readline (error : ReadlineError)
  | script (error : ScriptError)
  | command (error : CommandError)
  | shell (error : ShellError)

/-- The failure that made the program not run. -/
def LaunchError.source? (error : LaunchError) : Option Failure :=
  some (.io error.cause)

/-- The failure behind that of the line editor. -/
def ReadlineError.source? : ReadlineError → Option Failure
  | .finished => none
  | .interrupted => none
  | .io cause => some (.io cause)

/-- The failure behind that of loading a script. -/
def ScriptError.source? : ScriptError → Option Failure
  | .notFound _ => none
  | .io cause => some (.io cause)

/-- The failure behind that of a command.  That a name is not resolved or a program not launched is
passed on. -/
def CommandError.source? : CommandError → Option Failure
  | .noHome => none
  | .changeDirectory _ cause => some (.io cause)
  | .currentDirectory cause => some (.io cause)
  | .clause error => some (.clause error)
  | .resolve _ => none
  | .launch error => error.source?
  | .io cause => some (.io cause)

/-- The failure behind that of the shell.  That a command failed is passed on. -/
def ShellError.source? : ShellError → Option Failure
  | .readline error => some (.readline error)
  | .io cause => some (.io cause)
  | .overflow _ => none
  | .command error => error.source?
  | .script error => some (.script error)
  | .options _ => none

namespace Failure

def text : Failure → String
  | .io error => error.message
  | .clause error => error.message
  | .resolve error => error.message
  | .launch error => error.message
  | .readline error => error.message
  | .script error => error.message
  | .command error => error.message
  | .shell error => error.message

/-- The failure right behind this one. -/
def source? : Failure → Option Failure
  | .io _ => none
  | .clause _ => none
  | .resolve _ => none
  | .launch error => error.source?
  | .readline error => error.source?
  | .script error => error.source?
  | .command error => error.source?
  | .shell error => error.source?

/-- The texts that are told of the failure. -/
def chain : Failure → List String
  | .io error => error.chain
  | .clause error => error.chain
  | .resolve error => error.chain
  | .launch error => error.chain
  | .readline error => error.chain
  | .script error => error.chain
  | .command error => error.chain
  | .shell error => error.chain

/-- There are no more failures than this behind it. -/
def depth : Failure → Nat
  | .io _ => 0
  | .clause _ => 0
  | .resolve _ => 0
  | .launch _ => 1
  | .readline _ => 1
  | .script _ => 1
  | .command _ => 2
  | .shell _ => 3

/-- What it means for the texts that another failure is right behind this one. -/
structure Behind (failure cause : Failure) : Prop where
  endsIn : EndsIn failure.text cause.text
  chain : failure.chain = failure.text :: cause.chain
  shallower : cause.depth < failure.depth

end Failure

section

variable {cause : Failure}

theorem LaunchError.behind {error : LaunchError} (source : error.source? = some cause) :
    (Failure.launch error).Behind cause := by
  obtain rfl := Option.some.inj source
  refine ⟨?_, rfl, Nat.zero_lt_one⟩
  cases error with
  | redirect path io => exact .append _ io.message
  | start program io => exact .append _ io.message
  | wait program io => exact .append _ io.message

theorem ReadlineError.behind {error : ReadlineError} (source : error.source? = some cause) :
    (Failure.readline error).Behind cause := by
  cases error with
  | finished => cases source
  | interrupted => cases source
  | io io =>
      obtain rfl := Option.some.inj source
      exact ⟨.refl io.message, rfl, Nat.zero_lt_one⟩

theorem ScriptError.behind {error : ScriptError} (source : error.source? = some cause) :
    (Failure.script error).Behind cause := by
  cases error with
  | notFound path => cases source
  | io io =>
      obtain rfl := Option.some.inj source
      exact ⟨.append _ io.message, rfl, Nat.zero_lt_one⟩

/-- What is behind a failure to launch is behind the failure of the command too, and the texts are
the same. -/
theorem CommandError.behind {error : CommandError} (source : error.source? = some cause) :
    (Failure.command error).Behind cause := by
  cases error with
  | noHome => cases source
  | changeDirectory path io =>
      obtain rfl := Option.some.inj source
      exact ⟨.append _ io.message, rfl, Nat.zero_lt_two⟩
  | currentDirectory io =>
      obtain rfl := Option.some.inj source
      exact ⟨.append _ io.message, rfl, Nat.zero_lt_two⟩
  | clause error =>
      obtain rfl := Option.some.inj source
      exact ⟨.append _ error.message, rfl, Nat.zero_lt_two⟩
  | resolve error => cases source
  | launch error =>
      obtain ⟨endsIn, chain, shallower⟩ := LaunchError.behind source
      exact ⟨endsIn, chain, Nat.lt_succ_of_lt shallower⟩
  | io io =>
      obtain rfl := Option.some.inj source
      exact ⟨.append _ io.message, rfl, Nat.zero_lt_two⟩

/-- Only its own text is told of a failed command that nothing is behind. -/
theorem CommandError.chain_of_root {error : CommandError} (root : error.source? = none) :
    error.chain = [error.message] := by
  cases error with
  | noHome => rfl
  | changeDirectory path io => cases root
  | currentDirectory io => cases root
  | clause error => cases root
  | resolve error => rfl
  | launch error => cases root
  | io io => cases root

/-- The shell only passes on that a command failed, so what is behind it is behind the command. -/
theorem ShellError.behind {error : ShellError} (source : error.source? = some cause) :
    (Failure.shell error).Behind cause := by
  cases error with
  | readline error =>
      obtain rfl := Option.some.inj source
      exact ⟨.append _ error.message, rfl, by simp [Failure.depth]⟩
  | io io =>
      obtain rfl := Option.some.inj source
      exact ⟨.append _ io.message, rfl, by simp [Failure.depth]⟩
  | overflow limit => cases source
  | command error =>
      obtain ⟨endsIn, chain, shallower⟩ := CommandError.behind source
      exact ⟨endsIn, chain, Nat.lt_succ_of_lt shallower⟩
  | script error =>
      obtain rfl := Option.some.inj source
      exact ⟨.append _ error.message, rfl, by simp [Failure.depth]⟩
  | options reason => cases source

end

namespace Failure

variable {failure cause : Failure}

/-- Whatever is right behind a failure, its text is the end of the text of the failure. -/
theorem behind_of_source? (source : failure.source? = some cause) : failure.Behind cause := by
  cases failure with
  | io error => cases source
  | clause error => cases source
  | resolve error => cases source
  | launch error => exact LaunchError.behind source
  | readline error => exact ReadlineError.behind source
  | script error => exact ScriptError.behind source
  | command error => exact CommandError.behind source
  | shell error => exact ShellError.behind source

/-- With nothing behind a failure, no more than its own text is told of it. -/
theorem chain_of_root (root : failure.source? = none) : failure.chain = [failure.text] := by
  cases failure with
  | io error => rfl
  | clause error => rfl
  | resolve error => rfl
  | launch error => cases root
  | readline error =>
      cases error with
      | finished => rfl
      | interrupted => rfl
      | io io => cases root
  | script error =>
      cases error with
      | notFound path => rfl
      | io io => cases root
  | command error => exact CommandError.chain_of_root root
  | shell error =>
      cases error with
      | readline error => cases root
      | io io => cases root
      | overflow limit => rfl
      | command error => exact CommandError.chain_of_root root
      | script error => cases root
      | options reason => rfl

/-- The failure and all those behind it, down to its root. -/
def causes (failure : Failure) : List Failure :=
  match _ : failure.source? with
  | none => [failure]
  | some cause => failure :: cause.causes
termination_by failure.depth
decreasing_by exact (behind_of_source? ‹_›).shallower

/-- A failure and those behind it have the texts that are told of it. -/
theorem map_text_causes (failure : Failure) : failure.causes.map text = failure.chain := by
  fun_induction causes failure with
  | case1 failure root => rw [chain_of_root root, List.map_singleton]
  | case2 failure cause source ih =>
      rw [(behind_of_source? source).chain, List.map_cons, ih]

/-- The text of a failure ends with the text of each failure behind it, however far behind. -/
theorem endsIn_of_mem_causes (failure : Failure) :
    ∀ other ∈ failure.causes, EndsIn failure.text other.text := by
  fun_induction causes failure with
  | case1 failure root =>
      intro other member
      obtain rfl := List.mem_singleton.mp member
      exact .refl other.text
  | case2 failure cause source ih =>
      intro other member
      rcases List.mem_cons.mp member with rfl | later
      · exact .refl other.text
      · exact (behind_of_source? source).endsIn.trans (ih other later)

/-- And so it is from each of them on. -/
theorem pairwise_causes (failure : Failure) :
    failure.causes.Pairwise fun outer inner => EndsIn outer.text inner.text := by
  fun_induction causes failure with
  | case1 failure root => exact List.pairwise_singleton ..
  | case2 failure cause source ih =>
      refine List.pairwise_cons.mpr ⟨?_, ih⟩
      intro other later
      exact (behind_of_source? source).endsIn.trans (endsIn_of_mem_causes cause other later)

/-- The last of them is the root: nothing is behind it. -/
theorem exists_root (failure : Failure) :
    ∃ root, failure.causes.getLast? = some root ∧ root.source? = none := by
  fun_induction causes failure with
  | case1 failure root => exact ⟨failure, rfl, root⟩
  | case2 failure cause source ih =>
      obtain ⟨root, last, done⟩ := ih
      refine ⟨root, ?_, done⟩
      rw [List.getLast?_cons, last, Option.getD_some]

end Failure

/-- What is told of a failure always carries its whole cause.  Whatever failed in the shell, going
from one failure to the one right behind it comes to an end at a root, and gives the texts that are
told.  The text of each failure ends with the texts of all those behind it, so both the text of the
failure of the shell and the line of the log about its report end with the text of the root. -/
theorem ShellError.message_ends_in_root (error : ShellError) :
    let causes := (Failure.shell error).causes
    causes.map Failure.text = error.chain ∧
      causes.Pairwise (fun outer inner => EndsIn outer.text inner.text) ∧
      ∃ root, causes.getLast? = some root ∧ root.source? = none ∧
        EndsIn error.message root.text ∧
        ∀ write, ∃ line, (Event.reported error write).logText? = some line ∧
          EndsIn line root.text := by
  intro causes
  obtain ⟨root, last, done⟩ := (Failure.shell error).exists_root
  have ends : EndsIn error.message root.text :=
    (Failure.shell error).endsIn_of_mem_causes root (List.mem_of_getLast? last)
  refine ⟨Failure.map_text_causes _, Failure.pairwise_causes _, root, last, done, ends, ?_⟩
  intro write
  exact ⟨_, rfl, (EndsIn.append _ error.message).trans ends⟩

end CommandShell
