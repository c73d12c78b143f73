/-
Module: CommandShell.Proofs.FollowedPath
Purpose: What it takes that a path leads somewhere, step by step, and that it leads to the same
  place whatever files there are.
Trusted boundary: none
Main exports:
  FileSystem.LooksUp, FileSystem.Descends, FileSystem.descend_eq_ok_iff, FileSystem.Followable,
  FileSystem.locate_eq_ok_iff, FileSystem.SameFrame, FileSystem.Becomes,
  FileSystem.locate_of_sameFrame
-/
import CommandShell.FileSystem.Walk

namespace CommandShell
namespace FileSystem

/-!
`descend` gives the first reason that a path leads nowhere.  Where it does lead somewhere there has
been no such reason at any step, and in what order they are looked for does not matter any more.
`Descends` has one rule for each kind of step.
-/

/-- A name is looked up in a directory: it may be searched and is still there, the name is not too
long, and it is not the name of a file to be made with a slash after it. -/
structure LooksUp (files : FileSystem) (purpose : Purpose) (slash : Bool) (place : Place)
    (name : Name) (rest : List Path.Step) : Prop where
  search : files.searchable place = true
  creates : (rest.isEmpty && slash && purpose == .create) = false
  present : place.lost = 0
  short : name.length ≤ longestName

/-- Steps that lead from a directory to what is found. -/
inductive Descends (files : FileSystem) (purpose : Purpose)
    (follow : Place → Path → List Path.Step → Bool → Except SystemError Found) (slash : Bool) :
    Place → List Path.Step → Found → Prop where
  | arrived {place : Place} : Descends files purpose follow slash place [] (.directory place)
  | stay {place : Place} {rest : List Path.Step} {found : Found}
      (search : files.searchable place = true)
      (later : Descends files purpose follow slash place rest found) :
      Descends files purpose follow slash place (.stay :: rest) found
  | up {place : Place} {rest : List Path.Step} {found : Found}
      (search : files.searchable place = true)
      (later : Descends files purpose follow slash place.up rest found) :
      Descends files purpose follow slash place (.up :: rest) found
  | directory {place : Place} {name : Name} {rest : List Path.Step} {found : Found} {mode : Mode}
      (looks : files.LooksUp purpose slash place name rest)
      (there : files.get? (place.location ++ [name]) = some (.directory mode))
      (later : Descends files purpose follow slash ⟨place.location ++ [name], 0⟩ rest found) :
      Descends files purpose follow slash place (.enter name :: rest) found
  | link {place : Place} {name : Name} {rest : List Path.Step} {found : Found} {target : Path}
      (looks : files.LooksUp purpose slash place name rest)
      (there : files.get? (place.location ++ [name]) = some (.link target))
      (followed : follow place target rest slash = .ok found) :
      Descends files purpose follow slash place (.enter name :: rest) found
  /-- Only the last name may be a file's. -/
  | file {place : Place} {name : Name} {rest : List Path.Step} {mode : Mode} {content : Content}
      (looks : files.LooksUp purpose slash place name rest)
      (there : files.get? (place.location ++ [name]) = some (.file mode content))
      (last : (rest.isEmpty && !slash) = true) :
      Descends files purpose follow slash place (.enter name :: rest)
        (.file (place.location ++ [name]) mode content)
  /-- Only the last name may be free. -/
  | vacant {place : Place} {name : Name} {rest : List Path.Step}
      (looks : files.LooksUp purpose slash place name rest)
      (free : files.get? (place.location ++ [name]) = none)
      (last : (rest.isEmpty && !slash) = true) :
      Descends files purpose follow slash place (.enter name :: rest)
        (.vacant place.location name)

variable {files : FileSystem} {purpose : Purpose}
  {follow : Place → Path → List Path.Step → Bool → Except SystemError Found} {slash : Bool}
  {place : Place} {steps : List Path.Step} {found : Found}

theorem LooksUp.not_long {name : Name} {rest : List Path.Step}
    (looks : files.LooksUp purpose slash place name rest) : ¬ longestName < name.length :=
  Nat.not_lt_of_le looks.short

/-- What a walk ends in is reached by the rules. -/
theorem descends_of_descend (walked : files.descend purpose follow slash place steps = .ok found) :
    files.Descends purpose follow slash place steps found := by
  induction steps generalizing place with
  | nil => cases walked; exact .arrived
  | cons step rest ih =>
      unfold descend at walked
      split at walked
      case isTrue => cases walked
      case isFalse searched =>
      have search : files.searchable place = true := by simpa using searched
      cases step with
      | stay => exact .stay search (ih walked)
      | up => exact .up search (ih walked)
      | enter name =>
          dsimp only at walked
          split at walked
          case isTrue => cases walked
          case isFalse creates =>
          split at walked
          case isTrue => cases walked
          case isFalse present =>
          split at walked
          case isTrue => cases walked
          case isFalse short =>
          have looks : files.LooksUp purpose slash place name rest :=
            ⟨search, Bool.eq_false_iff.mpr creates, Decidable.of_not_not present,
              Nat.le_of_not_lt short⟩
          split at walked
          case h_1 free =>
            split at walked
            case isTrue last => cases walked; exact .vacant looks free last
            case isFalse => cases walked
          case h_2 there => exact .directory looks there (ih walked)
          case h_3 there =>
            split at walked
            case isTrue last => cases walked; exact .file looks there last
            case isFalse => cases walked
          case h_4 there => exact .link looks there walked

/-- Steps come to something exactly if each of them can be taken. -/
theorem descend_eq_ok_iff :
    files.descend purpose follow slash place steps = .ok found ↔
      files.Descends purpose follow slash place steps found := by
  constructor
  · exact descends_of_descend
  · intro descends
    induction descends with
    | arrived => rfl
    | stay search later ih => simp [descend, search, ih]
    | up search later ih => simp [descend, search, ih]
    | directory looks there later ih =>
        simp [descend, looks.search, looks.creates, looks.present, looks.not_long, there, ih]
    | link looks there followed =>
        simp [descend, looks.search, looks.creates, looks.present, looks.not_long, there, followed]
    | file looks there last =>
        simp only [descend, looks.search, looks.creates, looks.present, looks.not_long, there, last]
        rfl
    | vacant looks free last =>
        simp only [descend, looks.search, looks.creates, looks.present, looks.not_long, free, last]
        rfl

/-- A path that is followed at all: it is neither empty nor too long, and without the byte that ends
paths. -/
structure Followable (path : Path) : Prop where
  clean : path.contains 0 = false
  nonempty : path.isEmpty = false
  short : path.length ≤ longestPath

/-- A path leads somewhere if and only if it can be followed at all and the walk over its steps
arrives. -/
theorem locate_eq_ok_iff {path : Path} :
    files.locate purpose place path = .ok found ↔
      Followable path ∧
        files.walk purpose linkBudget path.endsInSlash (origin place path) path.steps =
          .ok found := by
  unfold locate
  constructor
  · intro located
    split at located
    case isTrue => cases located
    case isFalse clean =>
    split at located
    case isTrue => cases located
    case isFalse nonempty =>
    split at located
    case isTrue => cases located
    case isFalse short =>
    split at located
    case h_1 walked =>
      cases located
      exact ⟨⟨Bool.eq_false_iff.mpr clean, Bool.eq_false_iff.mpr nonempty,
        Nat.le_of_not_lt short⟩, walked⟩
    case h_2 => cases located
  · intro ⟨⟨clean, nonempty, short⟩, walked⟩
    rw [clean, nonempty, if_neg (by simp), if_neg (by simp), if_neg (Nat.not_lt_of_le short), walked]

end FileSystem

/-!
A walk meets files at its last name only.  So it goes the same way on all files that have the same
directories and links, and what it finds in the end is what they have at that place.
-/

/-- Where a file is, or would be made, that is to be opened. -/
def Found.target? : Found → Option Location
  | .directory _ => none
  | .file location _ _ => some location
  | .vacant parent name => some (parent ++ [name])

/-- The node, unless it is a file. -/
def Node.frame? : Node → Option Node
  | .file .. => none
  | node => some node

/-- The same directories and links are in the same places.  Which files there are besides, their
content and their modes, may be as different as can be. -/
def FileSystem.SameFrame (one other : FileSystem) : Prop :=
  ∀ location, (one.get? location).bind Node.frame? = (other.get? location).bind Node.frame?

namespace FileSystem

variable {one other : FileSystem} {purpose : Purpose} {slash : Bool} {place : Place}
  {steps : List Path.Step} {found found' : Found}

theorem SameFrame.symm (same : one.SameFrame other) : other.SameFrame one :=
  fun location => (same location).symm

/-- What is no file in one of them is in the other. -/
theorem SameFrame.get?_eq (same : one.SameFrame other) {location : Location} {node : Node}
    (frame : node.frame? = some node) (there : one.get? location = some node) :
    other.get? location = some node := by
  have both := same location
  rw [there, Option.bind_some, frame] at both
  obtain ⟨found, there', framed⟩ := Option.bind_eq_some_iff.mp both.symm
  cases found with
  | file => simp [Node.frame?] at framed
  | directory => simpa [← Option.some.inj framed] using there'
  | link => simpa [← Option.some.inj framed] using there'

/-- Only a directory refuses a right. -/
theorem grants_eq_false_iff {files : FileSystem} {location : Location} {right : Mode} :
    files.grants location right = false ↔
      ∃ mode, files.get? location = some (.directory mode) ∧ mode.has right = false := by
  unfold grants
  split
  case h_1 mode there =>
    constructor
    · exact fun refused => ⟨mode, there, refused⟩
    · rintro ⟨other, there', refused⟩
      cases there.symm.trans there'
      exact refused
  case h_2 none =>
    constructor
    · intro granted
      cases granted
    · rintro ⟨mode, there, _⟩
      exact absurd there (none mode)

/-- The same directories may be searched. -/
theorem SameFrame.searchable_eq (same : one.SameFrame other) (place : Place) :
    other.searchable place = one.searchable place := by
  have refuses {one other : FileSystem} (same : one.SameFrame other)
      (refused : one.grants place.location Mode.execute = false) :
      other.grants place.location Mode.execute = false := by
    obtain ⟨mode, there, without⟩ := grants_eq_false_iff.mp refused
    exact grants_eq_false_iff.mpr ⟨mode, same.get?_eq rfl there, without⟩
  unfold searchable
  cases granted : one.grants place.location Mode.execute with
  | false => rw [refuses same granted]
  | true =>
      cases granted' : other.grants place.location Mode.execute with
      | true => rfl
      | false => cases granted.symm.trans (refuses same.symm granted')

/-- A name that can be looked up to make a file can be looked up on the other files as well, to
reach what it names. -/
theorem LooksUp.of_sameFrame (same : one.SameFrame other) {name : Name} {rest : List Path.Step}
    (looks : one.LooksUp purpose slash place name rest) :
    other.LooksUp .reach slash place name rest where
  search := (same.searchable_eq place).trans looks.search
  creates := by simp
  present := looks.present
  short := looks.short

/-- What has been found, as it is on these files: the same directory, or the file that they have
where a file has been found or a place for one. -/
inductive Becomes (files : FileSystem) : Found → Found → Prop where
  | directory {place : Place} : Becomes files (.directory place) (.directory place)
  | file {found : Found} {location : Location} {mode : Mode} {content : Content}
      (leads : found.target? = some location)
      (there : files.get? location = some (.file mode content)) :
      Becomes files found (.file location mode content)

/-- The same steps come to the same on other files, if the links among them do. -/
theorem descend_of_sameFrame (same : one.SameFrame other)
    {follow follow' : Place → Path → List Path.Step → Bool → Except SystemError Found}
    (followed : ∀ place target rest slash found, follow place target rest slash = .ok found →
      other.Becomes found found' → follow' place target rest slash = .ok found')
    (walked : one.descend purpose follow slash place steps = .ok found)
    (becomes : other.Becomes found found') :
    other.descend .reach follow' slash place steps = .ok found' := by
  rw [descend_eq_ok_iff] at walked ⊢
  induction walked with
  | arrived =>
      cases becomes with
      | directory => exact .arrived
      | file leads => cases leads
  | stay search later ih => exact .stay ((same.searchable_eq _).trans search) (ih becomes)
  | up search later ih => exact .up ((same.searchable_eq _).trans search) (ih becomes)
  | directory looks there later ih =>
      exact .directory (looks.of_sameFrame same) (same.get?_eq rfl there) (ih becomes)
  | link looks there walked =>
      exact .link (looks.of_sameFrame same) (same.get?_eq rfl there)
        (followed _ _ _ _ _ walked becomes)
  -- At the last name the other files need not have what was found, but they do have a file there.
  | file looks there last =>
      cases becomes with
      | file leads here =>
          cases leads
          exact .file (looks.of_sameFrame same) here last
  | vacant looks free last =>
      cases becomes with
      | file leads here =>
          cases leads
          exact .file (looks.of_sameFrame same) here last

/-- So does a walk over several links, by induction on the links. -/
theorem walk_of_sameFrame (same : one.SameFrame other) {links : Nat}
    (walked : one.walk purpose links slash place steps = .ok found)
    (becomes : other.Becomes found found') :
    other.walk .reach links slash place steps = .ok found' := by
  induction links generalizing slash place steps found with
  | zero =>
      refine descend_of_sameFrame same ?_ walked becomes
      intro place target rest slash found none
      cases none
  | succ links ih =>
      refine descend_of_sameFrame same ?_ walked becomes
      intro place target rest slash found walked becomes
      exact ih walked becomes

/-- So a path leads to the same directory whatever files there are, and to whatever file is where
it leads. -/
theorem locate_of_sameFrame (same : one.SameFrame other) {path : Path}
    (located : one.locate purpose place path = .ok found) (becomes : other.Becomes found found') :
    other.locate .reach place path = .ok found' := by
  rw [locate_eq_ok_iff] at located ⊢
  exact located.imp_right fun walked => walk_of_sameFrame same walked becomes

end FileSystem
end CommandShell
