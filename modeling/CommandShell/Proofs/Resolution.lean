/-
Module: CommandShell.Proofs.Resolution
Purpose: Where the search for a command ends, for every search path, limit and state of the files.
Trusted boundary: none
Main exports:
  Machine.Holds, SearchPath.separator, SearchPath.PassedBy, SearchPath.Ends,
  SearchPath.result_resolve_iff, SearchPath.resolve_exact
-/
import CommandShell.Proofs.Candidates

namespace CommandShell

/-- There is something at the path: links are followed, and what they lead to is a file or a
directory. -/
def Machine.Holds (machine : Machine) (path : Path) : Prop :=
  (∃ place, machine.reach path = .ok (.directory place)) ∨
    ∃ location mode content, machine.reach path = .ok (.file location mode content)

/-- The machine reaches a path if and only if something is there that the path leads to. -/
theorem Machine.reaches_iff {machine : Machine} {path : Path} :
    machine.reaches path = true ↔ machine.Holds path := by
  unfold reaches Holds
  cases machine.reach path with
  | error error => simp
  | ok found => cases found <;> simp

namespace SearchPath

/-- What stands between a directory and a name in it.  A slash that the directory ends in will do,
and the empty directory takes none. -/
def separator (directory : String) : String :=
  if directory = "" ∨ directory.toList.getLast? = some '/' then "" else "/"

/-- A candidate is the directory, the separator it needs, and the name. -/
theorem candidate_eq (directory name : String) :
    candidate directory name = directory ++ separator directory ++ name := by
  have ends : (directory.isEmpty || directory.toList.getLast? == some '/') = true ↔
      directory = "" ∨ directory.toList.getLast? = some '/' := by
    rw [Bool.or_eq_true_iff, String.isEmpty_iff, beq_iff_eq]
  unfold candidate separator
  by_cases closed : directory = "" ∨ directory.toList.getLast? = some '/'
  · rw [if_pos (ends.mpr closed), if_pos closed, String.append_empty]
  · rw [if_neg (fun holds => closed (ends.mp holds)), if_neg closed]

/-!
A search passes a directory by if the candidate there is short enough and not there.  So it passes
some directories by and then stops at one, for one of two reasons, or it passes all of them by.
-/

variable {machine : Machine} {limit : Nat} {name : String} {directories before rest : SearchPath}
  {directory : String}

/-- The search goes past these directories. -/
def PassedBy (machine : Machine) (limit : Nat) (name : String) (directories : SearchPath) : Prop :=
  ∀ directory ∈ directories, (candidate directory name).utf8ByteSize ≤ limit ∧
    ¬ machine.Holds (bytesOf (candidate directory name))

/-- What a search can end with. -/
inductive Ends (machine : Machine) (limit : Nat) (name : String) :
    SearchPath → Except ResolveError String → Prop where
  | found {before after : SearchPath} {directory : String}
      (passed : PassedBy machine limit name before)
      (fits : (candidate directory name).utf8ByteSize ≤ limit)
      (here : machine.Holds (bytesOf (candidate directory name))) :
      Ends machine limit name (before ++ directory :: after) (.ok (candidate directory name))
  | tooLong {before after : SearchPath} {directory : String}
      (passed : PassedBy machine limit name before)
      (long : limit < (candidate directory name).utf8ByteSize) :
      Ends machine limit name (before ++ directory :: after)
        (.error (.tooLong (candidate directory name)))
  | notFound {directories : SearchPath} (passed : PassedBy machine limit name directories) :
      Ends machine limit name directories (.error (.notFound name))

theorem PassedBy.cons (fits : (candidate directory name).utf8ByteSize ≤ limit)
    (absent : ¬ machine.Holds (bytesOf (candidate directory name)))
    (passed : PassedBy machine limit name rest) :
    PassedBy machine limit name (directory :: rest) := by
  intro one among
  rcases List.mem_cons.mp among with rfl | later
  · exact ⟨fits, absent⟩
  · exact passed one later

theorem passedBy_nil : PassedBy machine limit name [] := by
  intro directory among
  cases among

/-- A directory at the front that the search goes past does not change how it ends. -/
theorem Ends.cons {result : Except ResolveError String}
    (fits : (candidate directory name).utf8ByteSize ≤ limit)
    (absent : ¬ machine.Holds (bytesOf (candidate directory name)))
    (ends : Ends machine limit name rest result) :
    Ends machine limit name (directory :: rest) result := by
  cases ends with
  | found passed fits' here => exact .found (passed.cons fits absent) fits' here
  | tooLong passed long => exact .tooLong (passed.cons fits absent) long
  | notFound passed => exact .notFound (passed.cons fits absent)

/-- A candidate that is too long ends the search before anything is looked at. -/
theorem resolve_cons_of_long (long : limit < (candidate directory name).utf8ByteSize) :
    resolve machine limit name (directory :: rest) =
      ⟨.error (.tooLong (candidate directory name)), []⟩ := by
  rw [resolve]
  exact if_pos long

/-- A candidate that is there ends the search. -/
theorem resolve_cons_of_holds (fits : (candidate directory name).utf8ByteSize ≤ limit)
    (here : machine.Holds (bytesOf (candidate directory name))) :
    resolve machine limit name (directory :: rest) =
      ⟨.ok (candidate directory name), [candidate directory name]⟩ := by
  rw [resolve]
  exact (if_neg (Nat.not_lt.mpr fits)).trans (if_pos (Machine.reaches_iff.mpr here))

/-- A candidate that is not there is looked at, and the search goes on with the rest. -/
theorem resolve_cons_of_absent (fits : (candidate directory name).utf8ByteSize ≤ limit)
    (absent : ¬ machine.Holds (bytesOf (candidate directory name))) :
    resolve machine limit name (directory :: rest) =
      ⟨(resolve machine limit name rest).result,
        candidate directory name :: (resolve machine limit name rest).probed⟩ := by
  rw [resolve]
  exact (if_neg (Nat.not_lt.mpr fits)).trans
    (if_neg (fun reached => absent (Machine.reaches_iff.mp reached)))

/-- Directories that the search goes past are looked at in order and add nothing else. -/
theorem resolve_append_of_passedBy (passed : PassedBy machine limit name before) :
    resolve machine limit name (before ++ rest) =
      ⟨(resolve machine limit name rest).result,
        candidates before name ++ (resolve machine limit name rest).probed⟩ := by
  induction before with
  | nil => rfl
  | cons directory before ih =>
      obtain ⟨fits, absent⟩ := passed directory List.mem_cons_self
      have later := ih fun one among => passed one (List.mem_cons_of_mem directory among)
      rw [List.cons_append, resolve_cons_of_absent fits absent, later]
      rfl

/-- Every search ends in one of these ways. -/
theorem ends_resolve (machine : Machine) (limit : Nat) (name : String)
    (directories : SearchPath) :
    Ends machine limit name directories (resolve machine limit name directories).result := by
  induction directories with
  | nil => exact .notFound passedBy_nil
  | cons directory rest ih =>
      by_cases fits : (candidate directory name).utf8ByteSize ≤ limit
      · by_cases here : machine.Holds (bytesOf (candidate directory name))
        · rw [resolve_cons_of_holds fits here]
          exact .found passedBy_nil fits here
        · rw [resolve_cons_of_absent fits here]
          exact ih.cons fits here
      · have long := Nat.lt_of_not_le fits
        rw [resolve_cons_of_long long]
        exact .tooLong passedBy_nil long

/-- The search ends in the one way that the directories allow. -/
theorem result_resolve_iff {result : Except ResolveError String} :
    (resolve machine limit name directories).result = result ↔
      Ends machine limit name directories result := by
  constructor
  · rintro rfl
    exact ends_resolve machine limit name directories
  · intro ends
    cases ends with
    | found passed fits here =>
        rw [resolve_append_of_passedBy passed, resolve_cons_of_holds fits here]
    | tooLong passed long =>
        rw [resolve_append_of_passedBy passed, resolve_cons_of_long long]
    | notFound passed =>
        rw [← List.append_nil directories, resolve_append_of_passedBy passed]
        rfl

/-- A search ends at the first directory whose candidate is there or is too long, and finds the
candidate in the one case and tells its length in the other.  With no such directory the name is not
found.  The directories after the one where the search ends do not matter. -/
theorem resolve_exact (machine : Machine) (limit : Nat) (name : String)
    (directories : SearchPath) :
    let path (directory : String) : String := directory ++ separator directory ++ name
    let passedBy (before : SearchPath) : Prop := ∀ directory ∈ before,
      (path directory).utf8ByteSize ≤ limit ∧ ¬ machine.Holds (bytesOf (path directory))
    (∀ program, (resolve machine limit name directories).result = .ok program ↔
      ∃ before directory after, directories = before ++ directory :: after ∧
        program = path directory ∧ machine.Holds (bytesOf program) ∧
        program.utf8ByteSize ≤ limit ∧ passedBy before) ∧
    (∀ long, (resolve machine limit name directories).result = .error (.tooLong long) ↔
      ∃ before directory after, directories = before ++ directory :: after ∧
        long = path directory ∧ limit < long.utf8ByteSize ∧ passedBy before) ∧
    (∀ missing, (resolve machine limit name directories).result = .error (.notFound missing) ↔
      missing = name ∧ passedBy directories) ∧
    (∀ before directory after later, directories = before ++ directory :: after →
      passedBy before →
      machine.Holds (bytesOf (path directory)) ∨ limit < (path directory).utf8ByteSize →
      resolve machine limit name (before ++ directory :: later) =
        resolve machine limit name directories) ∧
    (resolve machine limit name []).result = .error (.notFound name) := by
  simp only [← candidate_eq]
  refine ⟨?_, ?_, ?_, ?_, rfl⟩
  · intro program
    rw [result_resolve_iff]
    constructor
    · intro ends
      cases ends with
      | found passed fits here => exact ⟨_, _, _, rfl, rfl, here, fits, passed⟩
    · rintro ⟨before, directory, after, rfl, rfl, here, fits, passed⟩
      exact .found passed fits here
  · intro long
    rw [result_resolve_iff]
    constructor
    · intro ends
      cases ends with
      | tooLong passed long => exact ⟨_, _, _, rfl, rfl, long, passed⟩
    · rintro ⟨before, directory, after, rfl, rfl, long, passed⟩
      exact .tooLong passed long
  · intro missing
    rw [result_resolve_iff]
    constructor
    · intro ends
      cases ends with
      | notFound passed => exact ⟨rfl, passed⟩
    · rintro ⟨rfl, passed⟩
      exact .notFound passed
  · rintro before directory after later rfl passed stops
    rw [resolve_append_of_passedBy passed, resolve_append_of_passedBy passed]
    by_cases long : limit < (candidate directory name).utf8ByteSize
    · rw [resolve_cons_of_long long, resolve_cons_of_long long]
    · have fits := Nat.le_of_not_lt long
      have here := stops.resolve_right long
      rw [resolve_cons_of_holds fits here, resolve_cons_of_holds fits here]

end SearchPath
end CommandShell
