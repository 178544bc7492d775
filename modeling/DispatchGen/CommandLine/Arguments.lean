import DispatchGen.Source.Artifact
import DispatchGen.Storage.Path

/-!
# Command line arguments

`Request.parse` reads the arguments from left to right and stops at the first that ends the reading:
a mistake, or a wish for help or for the version. Each option may be given once on its level, before
the command or behind it. An option's value stands behind `=`, directly behind a short option's
letter, or in the next argument, which then must not look like an option itself.
-/

namespace DispatchGen.CommandLine

/-- The commands. -/
inductive Verb where
  | catalog
  | check
  | dispatch
  | keys
  | stubs
  | all
deriving DecidableEq, Repr

namespace Verb

def name : Verb → String
  | catalog => "catalog"
  | check => "check"
  | dispatch => "dispatch"
  | keys => "keys"
  | stubs => "stubs"
  | all => "all"

/-- Every command, in the order it is listed. -/
def list : List Verb :=
  [catalog, check, dispatch, keys, stubs, all]

def ofName? (text : String) : Option Verb :=
  list.find? (·.name == text)

/-- What the command does, in a line. -/
def summary : Verb → String
  | catalog => "Print the built-in catalog as TOML"
  | check => "Validate a catalog and print a summary"
  | dispatch => "Generate the dispatch routine"
  | keys => "List every dispatch key with its opcode, type and handler"
  | stubs => "Generate handler stubs"
  | all => "Generate stubs and routine into one file"

end Verb

/-- The options. -/
inductive Switch where
  | verbose
  | help
  | version
  | json
  | catalog
  | output
  | target
  | keyStyle
deriving DecidableEq, Repr

namespace Switch

/-- The name behind two dashes. -/
def name : Switch → String
  | verbose => "verbose"
  | help => "help"
  | version => "version"
  | json => "json"
  | catalog => "catalog"
  | output => "output"
  | target => "target"
  | keyStyle => "key-style"

/-- The letter behind one dash. -/
def letter? : Switch → Option Char
  | verbose => some 'v'
  | help => some 'h'
  | version => some 'V'
  | json => none
  | catalog => some 'c'
  | output => some 'o'
  | target => some 't'
  | keyStyle => none

/-- The option is followed by a value. -/
def takesValue : Switch → Bool
  | catalog => true
  | output => true
  | target => true
  | keyStyle => true
  | _ => false

/-- What may stand before the command. -/
def general : List Switch :=
  [verbose, help, version]

/-- What may stand behind a command. -/
def ofVerb : Verb → List Switch
  | .catalog => [output, verbose, help]
  | .check => [catalog, verbose, help]
  | .keys => [catalog, json, verbose, help]
  | .dispatch => [catalog, target, keyStyle, output, verbose, help]
  | .stubs => [catalog, target, keyStyle, output, verbose, help]
  | .all => [catalog, target, keyStyle, output, verbose, help]

end Switch

/-- A mistake in the arguments. -/
inductive Mistake where
  | unexpected (argument : String)
  | repeated (switch : Switch)
  | missingValue (switch : Switch)
  | needlessValue (switch : Switch)
  | wrongValue (switch : Switch) (value : String)
  | noCommand
  | unknownCommand (name : String)
deriving DecidableEq, Repr

def Mistake.message : Mistake → String
  | unexpected argument => s!"unexpected argument '{argument}'"
  | repeated switch => s!"the option '--{switch.name}' cannot be used more than once"
  | missingValue switch => s!"a value is required for '--{switch.name}'"
  | needlessValue switch => s!"the option '--{switch.name}' takes no value"
  | wrongValue switch value => s!"invalid value '{value}' for '--{switch.name}'"
  | noCommand => "a command is required"
  | unknownCommand name => s!"unrecognized command '{name}'"

/-- Why reading the arguments ends early. -/
inductive Stop where
  | mistake (mistake : Mistake)
  /-- Help on a command, or on the program. -/
  | help (verb : Option Verb)
  | version
deriving DecidableEq, Repr

/-- The options given on one level. -/
structure Settings where
  given : List Switch := []
  catalog : Option Path := none
  output : Option Path := none
  target : Option Target := none
  keyStyle : Option KeyStyle := none
deriving DecidableEq, Repr

namespace Settings

variable (s : Settings)

def has (switch : Switch) : Bool :=
  s.given.contains switch

/-- Notes that an option is given, for the first time. -/
def note (switch : Switch) : Except Stop Settings :=
  if s.has switch then .error (.mistake (.repeated switch))
  else .ok { s with given := switch :: s.given }

/-- A value with a meaning, or a mistake. -/
def meaning {α : Type} (switch : Switch) (value : String) : Option α → Except Stop α
  | some a => .ok a
  | none => .error (.mistake (.wrongValue switch value))

/-- A path is any text but the empty one. -/
def path? (value : String) : Option Path :=
  if value.isEmpty then none else some ⟨value⟩

/-- Gives an option its value. -/
def assign (switch : Switch) (value : String) : Except Stop Settings := do
  let s ← s.note switch
  match switch with
  | .catalog => return { s with catalog := some (← meaning switch value (path? value)) }
  | .output => return { s with output := some (← meaning switch value (path? value)) }
  | .target => return { s with target := some (← meaning switch value (Target.parse value).toOption) }
  | .keyStyle =>
    return { s with keyStyle := some (← meaning switch value (KeyStyle.parse value).toOption) }
  | _ => throw (.mistake (.needlessValue switch))

/-- Turns on an option without a value; help and version end the reading. -/
def turnOn (verb : Option Verb) (switch : Switch) : Except Stop Settings :=
  match switch with
  | .help => .error (.help verb)
  | .version => .error .version
  | _ => s.note switch

end Settings

/-- The argument looks like an option. -/
def isDashed (argument : String) : Bool :=
  match argument.toList with
  | '-' :: _ :: _ => true
  | _ => false

/-- Cuts `name=value` at the first equals sign. -/
def cutAtEquals (text : List Char) : List Char × Option (List Char) :=
  match text.dropWhile (· != '=') with
  | [] => (text, none)
  | _ :: value => (text.takeWhile (· != '='), some value)

/-- What reading one argument of options comes to: settings, and an option whose value is still to
come. -/
abbrev Progress := Settings × Option Switch

/-- Reads `name` or `name=value`, as it stands behind two dashes. -/
def readName (verb : Option Verb) (allowed : List Switch) (s : Settings) (text : List Char) :
    Except Stop Progress := do
  let (name, value) := cutAtEquals text
  match allowed.find? (·.name.toList == name) with
  | none => throw (.mistake (.unexpected (String.ofList ('-' :: '-' :: text))))
  | some switch =>
    match switch.takesValue, value with
    | true, none => return (s, some switch)
    | true, some value => return (← s.assign switch (String.ofList value), none)
    | false, none => return (← s.turnOn verb switch, none)
    | false, some _ => throw (.mistake (.needlessValue switch))

/-- Reads the letters behind one dash; one that takes a value takes all that follows it. -/
def readLetters (verb : Option Verb) (allowed : List Switch) (s : Settings) :
    List Char → Except Stop Progress
  | [] => .ok (s, none)
  | letter :: rest =>
    match allowed.find? (·.letter? == some letter) with
    | none => .error (.mistake (.unexpected (String.ofList ['-', letter])))
    | some switch =>
      if switch.takesValue then
        match rest with
        | [] => .ok (s, some switch)
        | '=' :: value => do return (← s.assign switch (String.ofList value), none)
        | value => do return (← s.assign switch (String.ofList value), none)
      else do
        readLetters verb allowed (← s.turnOn verb switch) rest

/-- Reads an argument that looks like an option. -/
def readDashed (verb : Option Verb) (allowed : List Switch) (s : Settings) (argument : String) :
    Except Stop Progress :=
  match argument.toList with
  | '-' :: '-' :: text => readName verb allowed s text
  | _ :: letters => readLetters verb allowed s letters
  | [] => .ok (s, none)

/-- Reads options up to the first argument that is none; gives the settings and what is left. -/
def readOptions (verb : Option Verb) (allowed : List Switch) (s : Settings) :
    List String → Except Stop (Settings × List String)
  | [] => .ok (s, [])
  | argument :: rest =>
    if argument = "--" then
      match rest with
      | [] => .ok (s, [])
      | next :: _ => .error (.mistake (.unexpected next))
    else if isDashed argument then
      match readDashed verb allowed s argument with
      | .error stop => .error stop
      | .ok (s, none) => readOptions verb allowed s rest
      | .ok (s, some switch) =>
        match rest with
        | [] => .error (.mistake (.missingValue switch))
        | value :: rest =>
          if isDashed value then .error (.mistake (.missingValue switch))
          else
            match s.assign switch value with
            | .error stop => .error stop
            | .ok s => readOptions verb allowed s rest
    else .ok (s, argument :: rest)

/-- What generating commands are asked for. -/
structure Generation where
  catalog : Option Path
  target : Option Target
  keyStyle : Option KeyStyle
  output : Option Path
deriving DecidableEq, Repr

/-- What to do. A catalog that is not named is searched for. -/
inductive Command where
  | printCatalog (output : Option Path)
  | check (catalog : Option Path)
  | listKeys (catalog : Option Path) (json : Bool)
  | generate (parts : Parts) (generation : Generation)
deriving DecidableEq, Repr

namespace Settings

variable (s : Settings)

def generation : Generation where
  catalog := s.catalog
  target := s.target
  keyStyle := s.keyStyle
  output := s.output

/-- The command behind a verb under its settings. -/
def command : Verb → Command
  | .catalog => .printCatalog s.output
  | .check => .check s.catalog
  | .keys => .listKeys s.catalog (s.has .json)
  | .dispatch => .generate .routine s.generation
  | .stubs => .generate .stubs s.generation
  | .all => .generate .all s.generation

end Settings

/-- A command, and whether its log shows more than warnings. -/
structure Request where
  verbose : Bool
  command : Command
deriving DecidableEq, Repr

/-- The help command takes the name of at most one command. -/
def helpOn : List String → Stop
  | [] => .help none
  | [name] =>
    match Verb.ofName? name with
    | some verb => .help (some verb)
    | none => if name = "help" then .help none else .mistake (.unknownCommand name)
  | name :: next :: _ =>
    if name = "help" ∨ (Verb.ofName? name).isSome then .mistake (.unknownCommand next)
    else .mistake (.unknownCommand name)

namespace Request

/-- Reads all arguments. -/
def parse (arguments : List String) : Except Stop Request := do
  let (general, rest) ← readOptions none Switch.general {} arguments
  match rest with
  | [] => throw (.mistake .noCommand)
  | name :: rest =>
    if name = "help" then throw (helpOn rest)
    match Verb.ofName? name with
    | none => throw (.mistake (.unknownCommand name))
    | some verb =>
      let (own, rest) ← readOptions (some verb) (Switch.ofVerb verb) {} rest
      match rest with
      | extra :: _ => throw (.mistake (.unexpected extra))
      | [] =>
        return { verbose := general.has .verbose || own.has .verbose, command := own.command verb }

end Request

end DispatchGen.CommandLine
