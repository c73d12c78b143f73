/-
Module: CommandShell.Proofs.TargetSequence
Purpose: Any number of targets opened one after the other: what they leave of the files, which files
  their paths lead to afterwards, and what the streams of a program are connected to.
Trusted boundary: none
Main exports:
  Machine.Opens, Machine.Stops, Machine.EmptiesOnly, Machine.opens_or_stops,
  Machine.Opens.emptiesOnly, Machine.SealsAt, Machine.Opens.reach_of_getElem?,
  Machine.Opens.append_of_getElem?, Launch.Wiring.connectAll, Launch.Wiring.connectAll_append,
  Launch.openTargets_of_opens, Launch.openTargets_of_stops
-/
import CommandShell.Launch
import CommandShell.Proofs.OpenedTarget

namespace CommandShell
namespace Machine

/-- Targets are opened in this order, each on the files that the ones before have left.  The answer
is where they are, and the machine after them. -/
inductive Opens (mode : Mode) : Machine → List Path → List Location → Machine → Prop where
  | none {machine : Machine} : machine.Opens mode [] [] machine
  | more {machine next last : Machine} {path : Path} {location : Location} {rest : List Path}
      {locations : List Location}
      (first : machine.openTarget mode path = .ok (location, next))
      (later : next.Opens mode rest locations last) :
      machine.Opens mode (path :: rest) (location :: locations) last

/-- Some of the targets are opened, and the next one is refused. -/
structure Stops (machine : Machine) (mode : Mode) (paths : List Path)
    (locations : List Location) (middle : Machine) (path : Path) (cause : IoError) : Prop where
  opened : ∃ before after, paths = before ++ path :: after ∧
    machine.Opens mode before locations middle
  refused : middle.openTarget mode path = .error cause

variable {mode : Mode} {machine middle next last : Machine} {paths : List Path}
  {locations : List Location} {path : Path} {location : Location}

/-- If the targets after the first stop at one of them, so do all the targets. -/
theorem Stops.cons {cause : IoError} {refused : Path}
    (first : machine.openTarget mode path = .ok (location, next))
    (stops : next.Stops mode paths locations middle refused cause) :
    machine.Stops mode (path :: paths) (location :: locations) middle refused cause := by
  obtain ⟨before, after, rfl, opens⟩ := stops.opened
  exact ⟨⟨path :: before, after, rfl, .more first opens⟩, stops.refused⟩

/-- Either all targets are opened, or there is a first one that is not. -/
theorem opens_or_stops (machine : Machine) (mode : Mode) (paths : List Path) :
    (∃ locations last, machine.Opens mode paths locations last) ∨
      ∃ locations middle path cause, machine.Stops mode paths locations middle path cause := by
  induction paths generalizing machine with
  | nil => exact .inl ⟨[], machine, .none⟩
  | cons path rest ih =>
      cases opened : machine.openTarget mode path with
      | error cause => exact .inr ⟨[], machine, path, cause, ⟨[], rest, rfl, .none⟩, opened⟩
      | ok made =>
          obtain ⟨location, next⟩ := made
          rcases ih next with ⟨locations, last, later⟩ | ⟨locations, middle, refused, cause, stops⟩
          · exact .inl ⟨location :: locations, last, .more opened later⟩
          · exact .inr ⟨location :: locations, middle, refused, cause, stops.cons opened⟩

/-- There is one location for each target that has been opened. -/
theorem Opens.length_eq (opens : machine.Opens mode paths locations last) :
    locations.length = paths.length := by
  induction opens with
  | none => rfl
  | more first later ih => rw [List.length_cons, List.length_cons, ih]

theorem Opens.exists_getElem? (opens : machine.Opens mode paths locations last) {index : Nat}
    (asked : paths[index]? = some path) : ∃ location, locations[index]? = some location := by
  have bound : index < locations.length := by
    rw [opens.length_eq]
    exact (List.getElem?_eq_some_iff.mp asked).1
  exact ⟨_, List.getElem?_eq_getElem bound⟩

/-! ### What is left of the files -/

/-- What an opened target was before and is afterwards.  One that was not there has been made with
the mode asked for.  One that was there was a file that may be written, has lost what it held, and
keeps its mode but for the rights that it lent; so does one that has been made when it is opened
once more. -/
def Emptied (mode : Mode) (machine : Machine) (locations : List Location) (last : Machine)
    (location : Location) : Prop :=
  (machine.files.get? location = none ∧
    last.files.get? location = some
      (.file
        (if locations.count location = 1 then mode.masked machine.mask
          else (mode.masked machine.mask).afterWrite)
        (.text []))) ∨
  ∃ old content, machine.files.get? location = some (.file old content) ∧
    old.has Mode.write = true ∧
    last.files.get? location = some (.file old.afterWrite (.text []))

/-- All that becomes of a machine while targets are opened at these locations: the targets are empty
files afterwards, and nothing else has changed. -/
structure EmptiesOnly (mode : Mode) (machine : Machine) (locations : List Location)
    (last : Machine) : Prop where
  targets : ∀ location ∈ locations, machine.Emptied mode locations last location
  elsewhere : ∀ location, location ∉ locations →
    last.files.get? location = machine.files.get? location
  rest : ∃ files, last = { machine with files }

/-- Opening a target leaves every other file. -/
theorem get?_openTarget_of_ne {other : Location}
    (opened : machine.openTarget mode path = .ok (location, next)) (apart : other ≠ location) :
    next.files.get? other = machine.files.get? other := by
  obtain ⟨_, current, rfl⟩ := put_of_openTarget opened
  exact (FileSystem.get?_put ..).trans (if_neg apart)

/-- What one opening does to its target. -/
theorem get?_openTarget_self (opened : machine.openTarget mode path = .ok (location, next)) :
    (machine.files.get? location = none ∧
      next.files.get? location = some (.file (mode.masked machine.mask) (.text []))) ∨
    ∃ old content, machine.files.get? location = some (.file old content) ∧
      old.has Mode.write = true ∧
      next.files.get? location = some (.file old.afterWrite (.text [])) := by
  cases opened_of_openTarget opened with
  | made free =>
      refine .inl ⟨FileSystem.shown_of_locate free, ?_⟩
      exact (FileSystem.get?_put ..).trans (if_pos rfl)
  | @emptied _ old content there writable =>
      refine .inr ⟨old, content, FileSystem.shown_of_locate there, writable, ?_⟩
      exact (FileSystem.get?_put ..).trans (if_pos rfl)

/-- A target that is opened and then, among others, perhaps opened again. -/
theorem Emptied.cons_self (first : machine.openTarget mode path = .ok (location, next))
    (later : next.EmptiesOnly mode locations last) :
    machine.Emptied mode (location :: locations) last location := by
  have mask := mask_openTarget first
  have now := get?_openTarget_self first
  -- A file that is made here keeps the mode that it is made with only if it is not opened again.
  by_cases again : location ∈ locations
  · have several : (location :: locations).count location ≠ 1 := by
      have more := List.count_pos_iff.mpr again
      rw [List.count_cons_self]
      omega
    rcases later.targets location again with ⟨free, _⟩ | ⟨current, content, there, _, left⟩
    · rcases now with ⟨_, made⟩ | ⟨_, _, _, _, emptied⟩
      · cases made.symm.trans free
      · cases emptied.symm.trans free
    · rcases now with ⟨free, made⟩ | ⟨old, before, was, writable, emptied⟩
      · cases made.symm.trans there
        exact .inl ⟨free, by rw [if_neg several, left]⟩
      · cases emptied.symm.trans there
        exact .inr ⟨old, before, was, writable, by rw [left, Mode.afterWrite_afterWrite]⟩
  · have once : (location :: locations).count location = 1 := by
      rw [List.count_cons_self, List.count_eq_zero.mpr again]
    have kept := later.elsewhere location again
    rcases now with ⟨free, made⟩ | ⟨old, before, was, writable, emptied⟩
    · exact .inl ⟨free, by rw [if_pos once, kept, made]⟩
    · exact .inr ⟨old, before, was, writable, kept.trans emptied⟩

/-- A target that is opened after another one. -/
theorem Emptied.cons_of_ne {other : Location}
    (first : machine.openTarget mode path = .ok (location, next)) (apart : other ≠ location)
    (later : next.Emptied mode locations last other) :
    machine.Emptied mode (location :: locations) last other := by
  have before := get?_openTarget_of_ne first apart
  have mask := mask_openTarget first
  unfold Emptied at later ⊢
  rwa [before, mask, ← List.count_cons_of_ne (Ne.symm apart)] at later

/-- Opening any number of targets empties them and does nothing else, by induction on the
targets. -/
theorem Opens.emptiesOnly (opens : machine.Opens mode paths locations last) :
    machine.EmptiesOnly mode locations last := by
  induction opens with
  | @none machine =>
      refine ⟨?_, fun _ _ => rfl, machine.files, rfl⟩
      intro location member
      cases member
  | @more machine next last path location rest locations first later ih =>
      refine ⟨?_, ?_, ?_⟩
      · intro other member
        by_cases here : other = location
        · subst here
          exact .cons_self first ih
        · have among := (List.mem_cons.mp member).resolve_left here
          exact (ih.targets other among).cons_of_ne first here
      · intro other away
        have apart := List.ne_of_not_mem_cons away
        rw [ih.elsewhere other (List.not_mem_of_not_mem_cons away),
          get?_openTarget_of_ne first apart]
      · obtain ⟨files, rfl⟩ := ih.rest
        obtain ⟨_, current, rfl⟩ := put_of_openTarget first
        exact ⟨files, rfl⟩

/-- A target at this location is made by the launch, and with a mode that does not let it be opened
for writing again. -/
def SealsAt (machine : Machine) (mode : Mode) (location : Location) : Prop :=
  machine.files.get? location = none ∧ (mode.masked machine.mask).has Mode.write = false

/-- Every target is an empty file in the end, and only a sealed one may not be written. -/
theorem EmptiesOnly.get?_of_mem (empties : machine.EmptiesOnly mode locations last)
    (member : location ∈ locations) :
    ∃ current, last.files.get? location = some (.file current (.text [])) ∧
      (current.has Mode.write = false ↔ machine.SealsAt mode location) := by
  rcases empties.targets location member with ⟨free, left⟩ | ⟨old, content, was, writable, left⟩
  · refine ⟨_, left, ?_⟩
    have same : (if locations.count location = 1 then mode.masked machine.mask
        else (mode.masked machine.mask).afterWrite).has Mode.write =
          (mode.masked machine.mask).has Mode.write := by
      split
      · rfl
      · exact Mode.has_write_afterWrite _
    rw [same]
    exact ⟨fun sealed => ⟨free, sealed⟩, And.right⟩
  · refine ⟨_, left, ?_⟩
    rw [Mode.has_write_afterWrite, writable]
    constructor
    · intro sealed
      cases sealed
    · intro sealed
      cases was.symm.trans sealed.1

/-- A path that leads to a file leads to that file whatever targets are opened. -/
theorem Opens.reach_kept (opens : machine.Opens mode paths locations last) {current : Mode}
    {content : Content} (reached : machine.reach path = .ok (.file location current content)) :
    ∃ current content, last.reach path = .ok (.file location current content) := by
  induction opens generalizing current content with
  | none => exact ⟨current, content, reached⟩
  | more first later ih =>
      obtain ⟨_, _, reached⟩ := reach_after_openTarget first reached
      exact ih reached

/-- Each path still leads to the file that was opened by it once all of them have been. -/
theorem Opens.leads_of_getElem? (opens : machine.Opens mode paths locations last) {index : Nat}
    (asked : paths[index]? = some path) (opened : locations[index]? = some location) :
    ∃ current content, last.reach path = .ok (.file location current content) := by
  induction opens generalizing index with
  | none => cases asked
  | more first later ih =>
      cases index with
      | zero =>
          cases asked
          cases opened
          obtain ⟨_, reached, _⟩ := reach_openTarget first
          exact later.reach_kept reached
      | succ index => exact ih asked opened

/-- After all targets are open, the path of each one leads to it. -/
theorem Opens.reach_of_getElem? (opens : machine.Opens mode paths locations last) {index : Nat}
    (asked : paths[index]? = some path) (opened : locations[index]? = some location) :
    ∃ current, last.reach path = .ok (.file location current (.text [])) ∧
      last.files.get? location = some (.file current (.text [])) ∧
      (current.has Mode.write = false ↔ machine.SealsAt mode location) := by
  obtain ⟨current, content, reached⟩ := opens.leads_of_getElem? asked opened
  obtain ⟨left, there, sealed⟩ :=
    opens.emptiesOnly.get?_of_mem (List.mem_of_getElem? opened)
  cases there.symm.trans (FileSystem.shown_of_locate reached)
  exact ⟨current, reached, there, sealed⟩

/-- What is appended to a target after all are open is all that is in it then.  Only a sealed target
refuses. -/
theorem Opens.append_of_getElem? (opens : machine.Opens mode paths locations last) {index : Nat}
    (asked : paths[index]? = some path) (opened : locations[index]? = some location)
    (bytes : Bytes) :
    (machine.SealsAt mode location → last.append path bytes = .error (.system .denied)) ∧
    (¬ machine.SealsAt mode location → ∃ current, last.append path bytes =
      .ok { last with files := last.files.put location (.written current bytes) }) := by
  obtain ⟨current, reached, _, sealed⟩ := opens.reach_of_getElem? asked opened
  rw [append, reached]
  constructor
  · intro seals
    exact if_neg (Bool.eq_false_iff.mp (sealed.mpr seals))
  · intro unsealed
    have writable : current.has Mode.write = true := by
      rw [← Bool.not_eq_false]
      exact fun closed => unsealed (sealed.mp closed)
    exact ⟨current, if_pos writable⟩

end Machine

namespace Launch

/-- The connections to targets at these locations, made one after the other. -/
def Wiring.connectAll (wiring : Wiring) : List Setup → List Location → Wiring
  | setup :: rest, location :: locations =>
      (wiring.connect setup.stream ⟨setup.path, location⟩).connectAll rest locations
  | _, _ => wiring

variable {mode : Mode} {machine middle last : Machine} {setups : List Setup}
  {locations : List Location}

/-- Connections that come later are made to what the earlier ones leave. -/
theorem Wiring.connectAll_append (wiring : Wiring) (more : List Setup) (others : List Location)
    (aligned : locations.length = setups.length) :
    wiring.connectAll (setups ++ more) (locations ++ others) =
      (wiring.connectAll setups locations).connectAll more others := by
  induction setups generalizing wiring locations with
  | nil =>
      obtain rfl := List.length_eq_zero_iff.mp aligned
      rfl
  | cons setup rest ih =>
      cases locations with
      | nil => cases aligned
      | cons first locations => exact ih _ (Nat.succ.inj aligned)

/-- Where all targets can be opened every stream is connected to its target. -/
theorem openTargets_of_opens
    (opens : machine.Opens mode (setups.map Setup.path) locations last) (wiring : Wiring) :
    openTargets mode machine wiring setups = ⟨last, wiring.connectAll setups locations, none⟩ := by
  induction setups generalizing machine wiring locations with
  | nil => cases opens; rfl
  | cons setup rest ih =>
      cases opens with
      | more first later =>
          rw [openTargets, first]
          exact ih later _

/-- Where one is refused the streams before it are connected, and the refusal is kept. -/
theorem openTargets_of_stops {path : Path} {cause : IoError}
    (stops : machine.Stops mode (setups.map Setup.path) locations middle path cause)
    (wiring : Wiring) :
    openTargets mode machine wiring setups =
      ⟨middle, wiring.connectAll (setups.take locations.length) locations, some (path, cause)⟩ := by
  obtain ⟨⟨before, after, split, opens⟩, refused⟩ := stops
  induction opens generalizing setups wiring with
  | none =>
      cases setups with
      | nil => cases split
      | cons setup rest =>
          cases split
          rw [openTargets, refused]
          rfl
  | more first later ih =>
      cases setups with
      | nil => cases split
      | cons setup rest =>
          obtain ⟨rfl, tails⟩ := List.cons.inj split
          rw [openTargets, first]
          exact ih _ refused tails

end Launch
end CommandShell
