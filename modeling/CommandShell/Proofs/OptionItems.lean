/-
Module: CommandShell.Proofs.OptionItems
Purpose: Which arguments are read as options, what they set, and where the reading of others stops.
Trusted boundary: none
Main exports:
  Spelling, OptionName.spelled, OptionName.ofArgument?_eq_some_iff, Options.Item, Options.written,
  Options.Stuck, Options.written_or_stuck, Options.prefix_of_stuck, Options.Sets,
  Options.sets_iff, Options.parse_written_append, Options.parse_by_items
-/
import CommandShell.Options

namespace CommandShell

/-- The two forms in which an option can be given. -/
inductive Spelling where
  | short
  | long
deriving Repr, DecidableEq, Inhabited

namespace OptionName

def spelled (option : OptionName) : Spelling → String
  | .short => option.short
  | .long => option.long

/-- No two options have a form in common. -/
theorem ofArgument?_spelled (option : OptionName) (spelling : Spelling) :
    ofArgument? (option.spelled spelling) = some option := by
  cases option <;> cases spelling <;> decide

theorem spelled_inj {option : OptionName} {one other : Spelling}
    (same : option.spelled one = option.spelled other) : one = other := by
  revert same
  cases option <;> cases one <;> cases other <;> decide

/-- No two options are spelled alike. -/
theorem eq_of_spelled_eq {one other : OptionName} {first second : Spelling}
    (same : one.spelled first = other.spelled second) : one = other := by
  have found := ofArgument?_spelled one first
  rw [same, ofArgument?_spelled] at found
  exact (Option.some.inj found).symm

/-- An argument is taken for an option if and only if it is a spelling of that option. -/
theorem ofArgument?_eq_some_iff {argument : String} {option : OptionName} :
    ofArgument? argument = some option ↔ ∃ spelling, argument = option.spelled spelling := by
  constructor
  · intro found
    have spells := List.find?_some found
    simp only [Bool.or_eq_true, beq_iff_eq] at spells
    rcases spells with short | long
    · exact ⟨.short, short⟩
    · exact ⟨.long, long⟩
  · rintro ⟨spelling, rfl⟩
    exact ofArgument?_spelled option spelling

/-- An argument is taken for no option if and only if it is no spelling of any. -/
theorem ofArgument?_eq_none_iff {argument : String} :
    ofArgument? argument = none ↔
      ∀ (option : OptionName) (spelling : Spelling), argument ≠ option.spelled spelling := by
  constructor
  · rintro none option spelling rfl
    rw [ofArgument?_spelled] at none
    cases none
  · intro apart
    rw [Option.eq_none_iff_forall_ne_some]
    intro option found
    obtain ⟨spelling, same⟩ := ofArgument?_eq_some_iff.mp found
    exact apart option spelling same

/-- Only the startup script has a value. -/
theorem eq_config_of_takesValue {option : OptionName} (valued : option.takesValue = true) :
    option = .config := by
  cases option with
  | config => rfl
  | _ => cases valued

end OptionName

namespace Options

/-- One thing that arguments can ask for. -/
inductive Item where
  | switch (option : OptionName) (plain : option.takesValue = false) (spelling : Spelling)
  | config (spelling : Spelling) (value : String)

namespace Item

/-- The arguments that an item is given by.  Any argument can be a value. -/
def written : Item → List String
  | .switch option _ spelling => [option.spelled spelling]
  | .config spelling value => [OptionName.config.spelled spelling, value]

def option : Item → OptionName
  | .switch option _ _ => option
  | .config _ _ => .config

/-- The startup script that an item names. -/
def script? : Item → Option String
  | .switch .. => none
  | .config _ value => some value

/-- What an item does to the options. -/
def apply (options : Options) : Item → Options
  | .switch option _ _ => options.turnOn option
  | .config _ value => { options with config := some value }

end Item

/-- The arguments that items are given by, one item after the other. -/
def written (items : List Item) : List String :=
  items.flatMap Item.written

/-- What items do to the options, one after the other. -/
def asked (options : Options) (items : List Item) : Options :=
  items.foldl Item.apply options

section
variable {one other item : Item} {items others : List Item} {rest more : List String}
  {error : OptionError}

theorem written_cons_append (item : Item) (items : List Item) (rest : List String) :
    written (item :: items) ++ rest = item.written ++ (written items ++ rest) := by
  rw [written, List.flatMap_cons, List.append_assoc, ← written]

/-- Arguments tell the item that they start with. -/
theorem Item.written_append_inj (same : one.written ++ rest = other.written ++ more) :
    one = other ∧ rest = more := by
  cases one with
  | switch name plain =>
      cases other with
      | switch =>
          obtain ⟨head, tails⟩ := List.cons.inj same
          obtain rfl := OptionName.eq_of_spelled_eq head
          obtain rfl := OptionName.spelled_inj head
          exact ⟨rfl, tails⟩
      | config =>
          obtain rfl := OptionName.eq_of_spelled_eq (List.cons.inj same).1
          cases plain
  | config =>
      cases other with
      | switch name plain =>
          obtain rfl := OptionName.eq_of_spelled_eq (List.cons.inj same).1
          cases plain
      | config =>
          obtain ⟨head, tails⟩ := List.cons.inj same
          obtain rfl := OptionName.spelled_inj head
          obtain ⟨rfl, later⟩ := List.cons.inj tails
          exact ⟨rfl, later⟩

/-!
A value is never taken for an option, so arguments can be cut into items in one way only, and two
sequences of items that the same arguments start with agree as far as the shorter one goes.
-/

/-- Why these arguments do not start with an item: the first one is no option, or it is the option
that has a value, and there is none. -/
inductive Stuck : List String → OptionError → Prop where
  | unknown {argument : String} {rest : List String}
      (strange : ∀ (option : OptionName) (spelling : Spelling),
        argument ≠ option.spelled spelling) :
      Stuck (argument :: rest) (.unknown argument)
  | missingValue (spelling : Spelling) :
      Stuck [OptionName.config.spelled spelling]
        (.missingValue (OptionName.config.spelled spelling))

/-- Where no item can be read, none has been written. -/
theorem Stuck.ne_written_append (stuck : Stuck rest error) : rest ≠ item.written ++ more := by
  intro same
  cases stuck with
  | unknown strange =>
      cases item with
      | switch => exact strange _ _ (List.cons.inj same).1
      | config => exact strange _ _ (List.cons.inj same).1
  | missingValue =>
      cases item with
      | switch name plain =>
          obtain rfl := OptionName.eq_of_spelled_eq (List.cons.inj same).1
          cases plain
      | config => cases (List.cons.inj same).2

/-- Arguments are a sequence of items, or they are one up to a place where no item can be read. -/
theorem written_or_stuck (arguments : List String) :
    (∃ items, arguments = written items) ∨
      ∃ items rest error, arguments = written items ++ rest ∧ Stuck rest error := by
  -- Arguments are taken one or two at a time, as they are when they are read.
  induction (default : Options), arguments using Options.parse.induct with
  | case1 => exact .inl ⟨[], rfl⟩
  | case2 _ argument rest none =>
      exact .inr ⟨[], _, _, rfl, .unknown (OptionName.ofArgument?_eq_none_iff.mp none)⟩
  | case3 _ argument option found valued =>
      obtain rfl := OptionName.eq_config_of_takesValue valued
      obtain ⟨spelling, rfl⟩ := OptionName.ofArgument?_eq_some_iff.mp found
      exact .inr ⟨[], _, _, rfl, .missingValue spelling⟩
  | case4 _ argument option found valued value rest ih =>
      obtain rfl := OptionName.eq_config_of_takesValue valued
      obtain ⟨spelling, rfl⟩ := OptionName.ofArgument?_eq_some_iff.mp found
      rcases ih with ⟨items, rfl⟩ | ⟨items, rest, error, rfl, stuck⟩
      · exact .inl ⟨.config spelling value :: items, rfl⟩
      · exact .inr ⟨.config spelling value :: items, rest, error, rfl, stuck⟩
  | case5 _ argument rest option found plain ih =>
      have plain := Bool.eq_false_iff.mpr plain
      obtain ⟨spelling, rfl⟩ := OptionName.ofArgument?_eq_some_iff.mp found
      rcases ih with ⟨items, rfl⟩ | ⟨items, rest, error, rfl, stuck⟩
      · exact .inl ⟨.switch option plain spelling :: items, rfl⟩
      · exact .inr ⟨.switch option plain spelling :: items, rest, error, rfl, stuck⟩

/-- The items before that place are as many as the arguments can start with. -/
theorem prefix_of_stuck (stuck : Stuck rest error)
    (same : written others ++ more = written items ++ rest) : others <+: items := by
  induction others generalizing items with
  | nil => exact List.nil_prefix
  | cons first others ih =>
      rw [written_cons_append] at same
      cases items with
      | nil => exact absurd same.symm stuck.ne_written_append
      | cons second items =>
          rw [written_cons_append] at same
          obtain ⟨rfl, later⟩ := Item.written_append_inj same
          exact (List.prefix_cons_inj first).mpr (ih later)

end

def isSet (options : Options) (option : OptionName) : Bool :=
  (options.value? option).isSome

/-- The options after items, told from the options before: the startup script is the one that is
named last, and a switch is on that was on or is asked for. -/
structure Sets (before : Options) (items : List Item) (after : Options) : Prop where
  script : after.config = ((items.filterMap Item.script?).getLast?).or before.config
  switches : ∀ option : OptionName, option.takesValue = false →
    (after.isSet option = true ↔
      before.isSet option = true ∨ ∃ item ∈ items, item.option = option)

section
variable {options before after other : Options} {item : Item} {items : List Item}
  {option : OptionName}

theorem isSome_value (on : Bool) : (if on then some "true" else none).isSome = on := by
  cases on <;> rfl

/-- To turn on one switch is to leave the others as they are. -/
theorem isSet_turnOn (plain : option.takesValue = false) (switch : OptionName) :
    (options.turnOn switch).isSet option = true ↔
      options.isSet option = true ∨ switch = option := by
  cases option with
  | config => cases plain
  | debug | help | quiet | version =>
      -- The values go first: they decide on fields of the options, which must not change below
      -- them.
      cases switch <;> simp only [isSet, value?, isSome_value] <;> simp [turnOn]

/-- An item turns on its own option and no other. -/
theorem isSet_apply (plain : option.takesValue = false) (item : Item) :
    (item.apply options).isSet option = true ↔
      options.isSet option = true ∨ item.option = option := by
  cases item with
  | switch name => exact isSet_turnOn plain name
  | config spelling value =>
      cases option with
      | config => cases plain
      | debug | help | quiet | version =>
          simp only [isSet, value?, isSome_value]
          simp [Item.apply, Item.option]

/-- An item names the startup script, or leaves the one that was named before. -/
theorem config_apply (item : Item) :
    (item.apply options).config = item.script?.or options.config := by
  cases item with
  | switch name => cases name <;> rfl
  | config => rfl

/-- Item by item the options become what all the items together say. -/
theorem sets_asked (before : Options) (items : List Item) :
    before.Sets items (before.asked items) := by
  induction items generalizing before with
  | nil => exact ⟨rfl, fun option plain => by simp [asked]⟩
  | cons item items ih =>
      have later : (item.apply before).Sets items (before.asked (item :: items)) := ih _
      constructor
      · rw [later.script, config_apply]
        cases item with
        | switch => rfl
        | config spelling value =>
            have more : (Item.config spelling value :: items).filterMap Item.script? =
                value :: items.filterMap Item.script? := rfl
            rw [more, List.getLast?_cons]
            cases (items.filterMap Item.script?).getLast? <;> rfl
      · intro option plain
        rw [later.switches option plain, isSet_apply plain]
        simp only [List.mem_cons, exists_eq_or_imp, or_assoc]

/-- What items set is all that becomes of the options. -/
theorem Sets.unique (one : before.Sets items after) (two : before.Sets items other) :
    after = other := by
  have same (option : OptionName) (plain : option.takesValue = false) :
      after.isSet option = other.isSet option := by
    rw [Bool.eq_iff_iff, one.switches option plain, two.switches option plain]
  have debug := same .debug rfl
  have help := same .help rfl
  have quiet := same .quiet rfl
  have version := same .version rfl
  simp only [isSet, value?, isSome_value] at debug help quiet version
  have config := one.script.trans two.script.symm
  calc after = ⟨after.config, after.debug, after.help, after.quiet, after.version⟩ := rfl
    _ = ⟨other.config, other.debug, other.help, other.quiet, other.version⟩ := by
        rw [config, debug, help, quiet, version]
    _ = other := rfl

/-- There is exactly one way the options can be after items: what these do to them one by one. -/
theorem sets_iff : before.Sets items after ↔ before.asked items = after := by
  constructor
  · exact (sets_asked before items).unique
  · rintro rfl
    exact sets_asked before items

/-! ### Reading -/

/-- The option that has a value takes the next argument for it, whatever that looks like. -/
theorem parse_config (options : Options) (spelling : Spelling) (value : String)
    (rest : List String) :
    options.parse (OptionName.config.spelled spelling :: value :: rest) =
      parse { options with config := some value } rest := by
  rw [parse, OptionName.ofArgument?_spelled]
  rfl

/-- Every other option is a switch. -/
theorem parse_switch (options : Options) (plain : option.takesValue = false)
    (spelling : Spelling) (rest : List String) :
    options.parse (option.spelled spelling :: rest) = (options.turnOn option).parse rest := by
  rw [parse.eq_def]
  dsimp only
  rw [OptionName.ofArgument?_spelled]
  dsimp only
  rw [plain]
  rfl

/-- After items the reading goes on as if it started there, with what the items have set. -/
theorem parse_written_append (options : Options) (items : List Item) (rest : List String) :
    options.parse (written items ++ rest) = (options.asked items).parse rest := by
  induction items generalizing options with
  | nil => rfl
  | cons item items ih =>
      rw [written_cons_append, asked, List.foldl_cons, ← asked, ← ih]
      cases item with
      | switch name plain spelling => exact parse_switch options plain spelling _
      | config spelling value => exact parse_config options spelling value _

/-- Items are read to their end. -/
theorem parse_written (options : Options) (items : List Item) :
    options.parse (written items) = (options.asked items, .ok ()) := by
  rw [← List.append_nil (written items), parse_written_append]
  rfl

/-- Where no item can be read the options stay as they are. -/
theorem parse_of_stuck {rest : List String} {error : OptionError} (stuck : Stuck rest error)
    (options : Options) : options.parse rest = (options, .error error) := by
  cases stuck with
  | unknown strange =>
      unfold parse
      rw [OptionName.ofArgument?_eq_none_iff.mpr strange]
  | missingValue spelling =>
      rw [parse, OptionName.ofArgument?_spelled]
      rfl

theorem parse_written_stuck {rest : List String} {error : OptionError} (stuck : Stuck rest error)
    (options : Options) (items : List Item) :
    options.parse (written items ++ rest) = (options.asked items, .error error) := by
  rw [parse_written_append, parse_of_stuck stuck]

/-- Arguments are read without failure if and only if they are items from end to end. -/
theorem result_parse_ok_iff {arguments : List String} :
    (options.parse arguments).2 = .ok () ↔ ∃ items, arguments = written items := by
  constructor
  · intro read
    rcases written_or_stuck arguments with whole | ⟨items, rest, error, rfl, stuck⟩
    · exact whole
    · rw [parse_written_stuck stuck] at read
      cases read
  · rintro ⟨items, rfl⟩
    rw [parse_written]

/-- Reading fails where the items end, and for the reason there. -/
theorem result_parse_error_iff {arguments : List String} {error : OptionError} :
    (options.parse arguments).2 = .error error ↔
      ∃ items rest, arguments = written items ++ rest ∧ Stuck rest error := by
  constructor
  · intro refused
    rcases written_or_stuck arguments with ⟨items, rfl⟩ | ⟨items, rest, other, rfl, stuck⟩
    · rw [parse_written] at refused
      cases refused
    · rw [parse_written_stuck stuck] at refused
      cases refused
      exact ⟨items, rest, rfl, stuck⟩
  · rintro ⟨items, rest, rfl, stuck⟩
    rw [parse_written_stuck stuck]

end

/-- Arguments are read to the end exactly if they are a sequence of items, and then all the items
together say what is set.  Other arguments are refused for what follows the longest sequence of
items that they start with, and what is set is what these items say.  Arguments after some that
were read are read as if they were alone. -/
theorem parse_by_items (options : Options) (arguments : List String) :
    let parsed := options.parse arguments
    (parsed.2 = .ok () ↔ ∃ items, arguments = written items) ∧
    (∀ items after, arguments = written items →
      (parsed = (after, .ok ()) ↔ options.Sets items after)) ∧
    (∀ error, parsed.2 = .error error ↔
      ∃ items rest, arguments = written items ++ rest ∧ Stuck rest error) ∧
    (∀ items rest error, arguments = written items ++ rest → Stuck rest error →
      (∀ after, parsed = (after, .error error) ↔ options.Sets items after) ∧
      ∀ others more, arguments = written others ++ more → others <+: items) ∧
    (parsed.2 = .ok () →
      ∀ more, options.parse (arguments ++ more) = parsed.1.parse more) := by
  intro parsed
  refine ⟨result_parse_ok_iff, ?_, fun error => result_parse_error_iff, ?_, ?_⟩
  · rintro items after rfl
    have read : parsed = (options.asked items, .ok ()) := options.parse_written items
    rw [read, Prod.mk.injEq, sets_iff]
    exact ⟨And.left, fun same => ⟨same, rfl⟩⟩
  · rintro items rest error rfl stuck
    have refused : parsed = (options.asked items, .error error) :=
      parse_written_stuck stuck options items
    constructor
    · intro after
      rw [refused, Prod.mk.injEq, sets_iff]
      exact ⟨And.left, fun same => ⟨same, rfl⟩⟩
    · intro others more same
      exact prefix_of_stuck stuck same.symm
  · intro read more
    obtain ⟨items, rfl⟩ := result_parse_ok_iff.mp read
    have first : parsed = (options.asked items, .ok ()) := options.parse_written items
    rw [parse_written_append, first]

/-- Two switches, a value that looks like an option, and then an option without a value. -/
theorem parse_by_items_missing :
    let items : List Item :=
      [.switch .quiet rfl .short, .config .long "-d", .switch .help rfl .long]
    let arguments := ["-q", "--config", "-d", "--help", "-c"]
    let parsed := parse {} arguments
    arguments = written items ++ ["-c"] ∧ Stuck ["-c"] (.missingValue "-c") ∧
      parsed = ({ config := some "-d", quiet := true, help := true }, .error (.missingValue "-c")) ∧
      ∀ others more, arguments = written others ++ more → others <+: items := by
  intro items arguments parsed
  have exact := parse_by_items {} arguments
  have stuck : Stuck ["-c"] (.missingValue "-c") := .missingValue .short
  obtain ⟨values, longest⟩ := exact.2.2.2.1 items ["-c"] _ rfl stuck
  refine ⟨rfl, stuck, ?_, longest⟩
  exact (values _).mpr (sets_iff.mpr rfl)

end Options
end CommandShell
