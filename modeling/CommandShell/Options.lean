/-
Module: CommandShell.Options
Purpose: The options of the command line.
Trusted boundary: none
Main exports:
  OptionName, Options, OptionError, Options.parse, Options.help, Settings.ofOptions
-/
import CommandShell.Settings

namespace CommandShell

/-- The options, in the order of the help text. -/
inductive OptionName where
  | config
  | debug
  | help
  | quiet
  | version
deriving Repr, DecidableEq, Inhabited

namespace OptionName

def all : List OptionName := [.config, .debug, .help, .quiet, .version]

def name : OptionName → String
  | .config => "config"
  | .debug => "debug"
  | .help => "help"
  | .quiet => "quiet"
  | .version => "version"

def short : OptionName → String
  | .config => "-c"
  | .debug => "-d"
  | .help => "-h"
  | .quiet => "-q"
  | .version => "-v"

def long : OptionName → String
  | .config => "--config"
  | .debug => "--debug"
  | .help => "--help"
  | .quiet => "--quiet"
  | .version => "--version"

def description : OptionName → String
  | .config => "Run commands from FILE before reading input"
  | .debug => "Enable debug logging"
  | .help => "Print this help message"
  | .quiet => "Do not print the prompt"
  | .version => "Show version information"

/-- Whether the option is followed by a value; the others are switches. -/
def takesValue : OptionName → Bool
  | .config => true
  | _ => false

/-- The option with this name. -/
def ofName? (name : String) : Option OptionName :=
  all.find? fun option => option.name == name

/-- The option that an argument spells, in its short or its long form. -/
def ofArgument? (argument : String) : Option OptionName :=
  all.find? fun option => argument == option.short || argument == option.long

end OptionName

/-- Why arguments are refused. -/
inductive OptionError where
  | unknown (argument : String)
  | missingValue (argument : String)
deriving Repr, DecidableEq, Inhabited

def OptionError.message : OptionError → String
  | .unknown argument => s!"unknown option {argument}"
  | .missingValue argument => s!"Flag {argument} requires a value"

/-- What the arguments have asked for: a startup script, and the switches that are on. -/
structure Options where
  config : Option String := none
  debug : Bool := false
  help : Bool := false
  quiet : Bool := false
  version : Bool := false
deriving Repr, DecidableEq, Inhabited

namespace Options

/-- Turn a switch on.  The startup script is no switch. -/
def turnOn (options : Options) : OptionName → Options
  | .config => options
  | .debug => { options with debug := true }
  | .help => { options with help := true }
  | .quiet => { options with quiet := true }
  | .version => { options with version := true }

/-- The value of an option that is set; that of a switch is `true`. -/
def value? (options : Options) : OptionName → Option String
  | .config => options.config
  | .debug => if options.debug then some "true" else none
  | .help => if options.help then some "true" else none
  | .quiet => if options.quiet then some "true" else none
  | .version => if options.version then some "true" else none

/-- Read arguments on top of what is set already.  The first one that is no option, or lacks its
value, ends it; what came before it stays set. -/
def parse (options : Options) : List String → Options × Except OptionError Unit
  | [] => (options, .ok ())
  | argument :: rest =>
      match OptionName.ofArgument? argument with
      | none => (options, .error (.unknown argument))
      | some option =>
          if option.takesValue then
            match rest with
            | [] => (options, .error (.missingValue argument))
            | value :: rest => parse { options with config := some value } rest
          else
            parse (options.turnOn option) rest

/-- The column that descriptions start at, counted from the long form. -/
def helpWidth : Nat := 15

/-- The text with spaces after it up to a width. -/
def padded (width : Nat) (text : String) : String :=
  text ++ String.ofList (List.replicate (width - text.length) ' ')

def helpLine (option : OptionName) : String :=
  let long := if option.takesValue then option.long ++ " FILE" else option.long
  "  " ++ option.short ++ ", " ++ padded helpWidth long ++ " " ++ option.description ++ "\n"

def helpText : String :=
  "Usage: whoosh [OPTIONS]\n\nOptions:\n" ++ String.join (OptionName.all.map helpLine)

end Options

/-- The settings that options ask for. -/
def Settings.ofOptions (options : Options) : Settings :=
  { quiet := options.quiet, script := options.config.map bytesOf }

end CommandShell
