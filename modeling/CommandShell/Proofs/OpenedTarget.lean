/-
Module: CommandShell.Proofs.OpenedTarget
Purpose: A file that has just been opened, reached by its path once more.
Trusted boundary: none
Main exports:
  Found.Shown, FileSystem.Ends, FileSystem.shown_of_locate, FileSystem.Ends.sameFrame_put,
  FileSystem.locate_put, FileSystem.locate_put_elsewhere_iff, Mode.has_write_afterWrite,
  Machine.Makes, Machine.Opened, Machine.put_of_openTarget, Machine.reach_openTarget,
  Machine.append_openTarget, Machine.reach_after_openTarget
-/
import CommandShell.Machine
import CommandShell.Proofs.FollowedPath

namespace CommandShell

/-- What has been found is what the files show there. -/
def Found.Shown (files : FileSystem) : Found → Prop
  | .directory _ => True
  | .file location mode content => files.get? location = some (.file mode content)
  | .vacant parent name => files.get? (parent ++ [name]) = none

namespace FileSystem

variable {files : FileSystem} {location other : Location} {mode : Mode} {content : Content}

/-- A location that a walk does not go through: nothing is there, or a file. -/
def Ends (files : FileSystem) (location : Location) : Prop :=
  files.get? location = none ∨ ∃ mode content, files.get? location = some (.file mode content)

/-- What a walk stops at is no directory and no link. -/
theorem ends_of_shown {found : Found} (shown : found.Shown files)
    (leads : found.target? = some location) : files.Ends location := by
  cases found with
  | directory => cases leads
  | file there mode content => cases leads; exact .inr ⟨mode, content, shown⟩
  | vacant parent name => cases leads; exact .inl shown

/-- A walk finds what is there, if what follows the links sees to that. -/
theorem shown_of_descend {purpose : Purpose}
    {follow : Place → Path → List Path.Step → Bool → Except SystemError Found}
    (followed : ∀ place target rest slash found, follow place target rest slash = .ok found →
      found.Shown files)
    {slash : Bool} {place : Place} {steps : List Path.Step} {found : Found}
    (walked : files.descend purpose follow slash place steps = .ok found) :
    found.Shown files := by
  rw [descend_eq_ok_iff] at walked
  induction walked with
  | arrived => trivial
  | stay search later ih => exact ih
  | up search later ih => exact ih
  | directory looks there later ih => exact ih
  | link looks there walked => exact followed _ _ _ _ _ walked
  | file looks there last => exact there
  | vacant looks free last => exact free

/-- What a walk over several links stops at is what the files show there. -/
theorem shown_of_walk {purpose : Purpose} {links : Nat} {slash : Bool} {place : Place}
    {steps : List Path.Step} {found : Found}
    (walked : files.walk purpose links slash place steps = .ok found) : found.Shown files := by
  induction links generalizing slash place steps found with
  | zero =>
      refine shown_of_descend ?_ walked
      intro place target rest slash found none
      cases none
  | succ links ih =>
      refine shown_of_descend ?_ walked
      intro place target rest slash found walked
      exact ih walked

/-- What a path leads to is what the files show there. -/
theorem shown_of_locate {purpose : Purpose} {place : Place} {path : Path} {found : Found}
    (located : files.locate purpose place path = .ok found) : found.Shown files :=
  shown_of_walk (locate_eq_ok_iff.mp located).2

/-- A file that is put where no walk goes through leaves the directories and links. -/
theorem Ends.sameFrame_put (ends : files.Ends location) (mode : Mode) (content : Content) :
    files.SameFrame (files.put location (.file mode content)) := by
  intro one
  rw [get?_put]
  split
  case isTrue here =>
    subst here
    rcases ends with free | ⟨mode, content, there⟩
    · rw [free]
      rfl
    · rw [there]
      rfl
  case isFalse => rfl

/-- A file that is put where a path leads is the one that the path leads to. -/
theorem locate_put {purpose : Purpose} {place : Place} {path : Path} {found : Found}
    (located : files.locate purpose place path = .ok found)
    (leads : found.target? = some location) :
    (files.put location (.file mode content)).locate .reach place path =
      .ok (.file location mode content) := by
  have ends : files.Ends location := ends_of_shown (shown_of_locate located) leads
  refine locate_of_sameFrame (ends.sameFrame_put mode content) located (.file leads ?_)
  rw [get?_put, if_pos rfl]

/-- A file that is put elsewhere, where no walk goes through, is not in the way of a path that leads
to a file, and not missed when it is taken away again. -/
theorem locate_put_elsewhere_iff (ends : files.Ends other) (elsewhere : location ≠ other)
    (mode' : Mode) (content' : Content) {place : Place} {path : Path} :
    (files.put other (.file mode' content')).locate .reach place path =
        .ok (.file location mode content) ↔
      files.locate .reach place path = .ok (.file location mode content) := by
  have same := ends.sameFrame_put mode' content'
  have kept : (files.put other (.file mode' content')).get? location = files.get? location := by
    rw [get?_put, if_neg elsewhere]
  constructor
  · intro located
    exact locate_of_sameFrame same.symm located
      (.file rfl (kept.symm.trans (shown_of_locate located)))
  · intro located
    exact locate_of_sameFrame same located (.file rfl (kept.trans (shown_of_locate located)))

end FileSystem

namespace Mode

/-- To be written takes from a file only the rights that it lent. -/
theorem has_afterWrite (mode : Mode) {bit : Mode} (owner : ~~~lendsOwner &&& bit = bit)
    (group : ~~~lendsGroup &&& bit = bit) : mode.afterWrite.has bit = mode.has bit := by
  unfold afterWrite has
  dsimp only
  split
  · rw [UInt32.and_assoc, UInt32.and_assoc, group, owner]
  · rw [UInt32.and_assoc, owner]

/-- Opening a file for writing leaves the right to write it. -/
theorem has_write_afterWrite (mode : Mode) : mode.afterWrite.has write = mode.has write :=
  mode.has_afterWrite (by decide) (by decide)

/-- What a file has lost by being written it does not lose once more. -/
@[simp] theorem afterWrite_afterWrite (mode : Mode) :
    mode.afterWrite.afterWrite = mode.afterWrite := by
  have same : mode.afterWrite.has groupExecute = mode.has groupExecute :=
    mode.has_afterWrite (by decide) (by decide)
  have again (kept lent : Mode) : kept &&& ~~~lent &&& ~~~lent = kept &&& ~~~lent := by
    rw [UInt32.and_assoc, UInt32.and_self]
  rw [afterWrite, same]
  unfold afterWrite
  dsimp only
  split
  · rw [UInt32.and_assoc (mode &&& ~~~lendsOwner), UInt32.and_comm (~~~lendsGroup),
      ← UInt32.and_assoc, again, again]
  · rw [again]

end Mode

namespace Machine

/-- The path is free: a file that is opened there has to be made. -/
def Makes (machine : Machine) (path : Path) : Prop :=
  ∃ parent name,
    machine.files.locate .create machine.directory path = .ok (.vacant parent name)

/-- What it can come to that a target is opened: it is made in a directory that may be written, or it
is a file that may be written and loses what it held. -/
inductive Opened (machine : Machine) (mode : Mode) (path : Path) : Location → Machine → Prop where
  | made {parent : Location} {name : Name}
      (free : machine.files.locate .create machine.directory path = .ok (.vacant parent name))
      (writable : machine.files.grants parent Mode.write = true) :
      machine.Opened mode path (parent ++ [name])
        { machine with
          files := machine.files.put (parent ++ [name])
            (.file (mode.masked machine.mask) (.text [])) }
  | emptied {location : Location} {old : Mode} {content : Content}
      (there : machine.files.locate .create machine.directory path =
        .ok (.file location old content))
      (writable : old.has Mode.write = true) :
      machine.Opened mode path location
        { machine with files := machine.files.put location (.written old []) }

variable {machine next : Machine} {mode : Mode} {path other : Path} {location : Location}

/-- Opening a target does all this and nothing else. -/
theorem opened_of_openTarget (opened : machine.openTarget mode path = .ok (location, next)) :
    machine.Opened mode path location next := by
  unfold openTarget at opened
  split at opened
  case h_1 => cases opened
  case h_2 there =>
    split at opened
    case isTrue writable => cases opened; exact .emptied there writable
    case isFalse => cases opened
  case h_3 free =>
    split at opened
    case isTrue writable => cases opened; exact .made free writable
    case isFalse => cases opened
  case h_4 => cases opened

/-- To open a target puts a file at one location, where no walk goes through. -/
theorem put_of_openTarget (opened : machine.openTarget mode path = .ok (location, next)) :
    machine.files.Ends location ∧ ∃ current,
      next = { machine with files := machine.files.put location (.file current (.text [])) } := by
  cases opened_of_openTarget opened with
  | made free writable => exact ⟨.inl (FileSystem.shown_of_locate free), _, rfl⟩
  | emptied there writable => exact ⟨.inr ⟨_, _, FileSystem.shown_of_locate there⟩, _, rfl⟩

/-- A target that has been opened is an empty file which its path leads to.  Only if the file was
made just now it may lack the right to be written. -/
theorem reach_openTarget (opened : machine.openTarget mode path = .ok (location, next)) :
    ∃ current, next.reach path = .ok (.file location current (.text [])) ∧
      (current.has Mode.write = false ↔
        machine.Makes path ∧ (mode.masked machine.mask).has Mode.write = false) := by
  cases opened_of_openTarget opened with
  | @made parent name free _ =>
      refine ⟨mode.masked machine.mask, FileSystem.locate_put free rfl, ?_⟩
      exact ⟨fun sealed => ⟨⟨parent, name, free⟩, sealed⟩, And.right⟩
  | @emptied _ old content there writable =>
      refine ⟨old.afterWrite, FileSystem.locate_put there rfl, ?_⟩
      rw [Mode.has_write_afterWrite, writable]
      constructor
      · intro sealed
        cases sealed
      · intro made
        obtain ⟨⟨_, _, free⟩, _⟩ := made
        rw [there] at free
        cases free

/-- A target that has been opened can be opened once more to be appended to, unless it was made
just now and with a mode that does not let it be written. -/
theorem append_openTarget (opened : machine.openTarget mode path = .ok (location, next))
    (bytes : Bytes) :
    (∃ refusal, next.append path bytes = .error refusal) ↔
      machine.Makes path ∧ (mode.masked machine.mask).has Mode.write = false := by
  obtain ⟨current, reached, sealed⟩ := reach_openTarget opened
  rw [← sealed, append, reached]
  dsimp only
  cases current.has Mode.write with
  | false => exact ⟨fun _ => rfl, fun _ => ⟨_, rfl⟩⟩
  | true =>
      constructor
      · intro refused
        obtain ⟨refusal, none⟩ := refused
        cases none
      · intro none
        cases none

/-- Opening a target leaves the mask. -/
theorem mask_openTarget (opened : machine.openTarget mode path = .ok (location, next)) :
    next.mask = machine.mask := by
  obtain ⟨_, _, rfl⟩ := put_of_openTarget opened
  rfl

/-- A file that a path leads to is still where the path leads to, whatever target is opened. -/
theorem reach_after_openTarget {current : Mode} {content : Content} {target : Location}
    (opened : machine.openTarget mode other = .ok (target, next))
    (reached : machine.reach path = .ok (.file location current content)) :
    ∃ current content, next.reach path = .ok (.file location current content) := by
  obtain ⟨ends, made, rfl⟩ := put_of_openTarget opened
  by_cases here : location = target
  · subst here
    exact ⟨made, .text [], FileSystem.locate_put reached rfl⟩
  · exact ⟨current, content,
      (FileSystem.locate_put_elsewhere_iff ends here made (.text [])).mpr reached⟩

end Machine
end CommandShell
