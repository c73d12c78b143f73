/-
Module: CommandShell.Proofs.Candidates
Purpose: Which of its candidates a command resolves to.
Trusted boundary: none
Main exports:
  SearchPath.firstCandidate?, SearchPath.firstCandidate?_of_resolve,
  SearchPath.slash_mem_firstCandidate?
-/
import CommandShell.SearchPath

namespace CommandShell

theorem bytesOf_append (one other : String) :
    bytesOf (one ++ other) = bytesOf one ++ bytesOf other := by
  rw [bytesOf, String.toList_append, Text.encode, List.flatMap_append]
  rfl

namespace SearchPath

/-- The paths where the directories would hold the command, in their order. -/
def candidates (directories : SearchPath) (name : String) : List String :=
  directories.map fun directory => candidate directory name

/-- The first candidate that is there, whatever the length of any of them. -/
def firstCandidate? (machine : Machine) (directories : SearchPath) (name : String) :
    Option String :=
  (candidates directories name).find? fun path => machine.reaches (bytesOf path)

/-- What a resolution finds is the first candidate that is there. -/
theorem firstCandidate?_of_resolve {machine : Machine} {limit : Nat} {name program : String}
    {directories : SearchPath}
    (found : (resolve machine limit name directories).result = .ok program) :
    firstCandidate? machine directories name = some program := by
  induction directories with
  | nil => cases found
  | cons directory rest ih =>
      rw [resolve] at found
      dsimp only at found
      rw [firstCandidate?, candidates, List.map_cons]
      split at found
      case isTrue => cases found
      case isFalse =>
        split at found
        case isTrue here =>
          cases found
          exact List.find?_cons_of_pos here
        case isFalse absent =>
          rw [List.find?_cons_of_neg (p := fun path => machine.reaches (bytesOf path)) absent]
          exact ih found

theorem slash_mem_bytesOf {text : String} (member : '/' ∈ text.toList) :
    Path.slash ∈ bytesOf text :=
  List.mem_flatMap.mpr ⟨'/', member, List.mem_singleton.mpr rfl⟩

/-- Only the empty directory gives a candidate without a slash of the search path's own. -/
theorem slash_mem_candidate {directory name : String} (named : directory ≠ "") :
    Path.slash ∈ bytesOf (candidate directory name) := by
  unfold candidate
  split
  case isTrue ends =>
    rcases Bool.or_eq_true_iff.mp ends with empty | slash
    · exact absurd (String.isEmpty_iff.mp empty) named
    · rw [bytesOf_append]
      apply List.mem_append_left
      exact slash_mem_bytesOf (List.mem_of_getLast? (eq_of_beq slash))
  case isFalse =>
    rw [bytesOf_append, bytesOf_append]
    apply List.mem_append_left
    apply List.mem_append_right
    exact slash_mem_bytesOf (List.mem_singleton.mpr rfl)

/-- With no empty directory in the search path, no command resolves to a path without a slash. -/
theorem slash_mem_firstCandidate? {machine : Machine} {directories : SearchPath}
    {name program : String} (named : "" ∉ directories)
    (found : firstCandidate? machine directories name = some program) :
    Path.slash ∈ bytesOf program := by
  have member : program ∈ candidates directories name := List.mem_of_find?_eq_some found
  obtain ⟨directory, among, rfl⟩ := List.mem_map.mp member
  apply slash_mem_candidate
  rintro rfl
  exact named among

end SearchPath
end CommandShell
