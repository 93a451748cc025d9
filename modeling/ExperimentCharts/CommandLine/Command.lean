namespace ExperimentCharts.CommandLine

/-- An option with a value. -/
structure ValueOption where
  name : String
  letter : Char
  help : String
  /-- The value of the option if none is given. -/
  default : Option String := none
  /-- Why a text is no value of the option. -/
  fault : String → Option String := fun _ => none

/-- How an option is written in messages. -/
def ValueOption.shape (option : ValueOption) : String := s!"--{option.name} <{option.name}>"

/-- A command with one required input. -/
structure Command where
  name : String
  about : String
  input : String
  inputHelp : String
  /-- The options in alphabetical order. -/
  options : List ValueOption

/-- The version that every command shows. -/
def version : String := "0.1.0"

/-- A flag that every command has. -/
inductive Flag where
  | help
  | version

namespace Flag

def all : List Flag := [.help, .version]

def name : Flag → String
  | .help => "help"
  | .version => "version"

def letter : Flag → Char
  | .help => 'h'
  | .version => 'V'

def meaning : Flag → String
  | .help => "Prints help information"
  | .version => "Prints version information"

end Flag

namespace Command

/-- The input as it is written in messages. -/
def inputShape (command : Command) : String := s!"<{command.input}>"

/-- The option or flag with a name, as it is written in messages. -/
def shapeOf (command : Command) (name : String) : String :=
  match command.options.find? fun option => option.name = name with
  | some option => option.shape
  | none => "--" ++ name

/-- The usage of the command. Once options are in play it shows those, and before that only that there
    are some. -/
def usage (command : Command) (inPlay : List String) : String :=
  let parts :=
    if inPlay.isEmpty then ["[OPTIONS]", command.inputShape]
    else command.inputShape ::
      ((inPlay.mergeSort fun a b => decide (a ≤ b)).eraseDups.map command.shapeOf)
  "USAGE:\n    " ++ " ".intercalate (command.name :: parts)

/-- The name and version. -/
def versionText (command : Command) : String := s!"{command.name} {version}"

/-- Lines of help: what can be written, and what it means in a column of its own. -/
def helpLines (entries : List (String × String)) : List String :=
  let width := (entries.map fun entry => entry.1.length).foldl max 0
  entries.map fun entry =>
    "    " ++ entry.1 ++ "".pushn ' ' (width - entry.1.length) ++ "    " ++ entry.2

/-- The help on the command. -/
def helpText (command : Command) : String :=
  let flags := Flag.all.map fun flag => (s!"-{flag.letter}, --{flag.name}", flag.meaning)
  let options := command.options.map fun option =>
    let default := match option.default with
      | some value => s!" [default: {value}]"
      | none => ""
    (s!"-{option.letter}, {option.shape}", option.help ++ default)
  "\n".intercalate <|
    [command.versionText, command.about, "", command.usage [], "", "FLAGS:"] ++ helpLines flags ++
    ["", "OPTIONS:"] ++ helpLines options ++
    ["", "ARGS:"] ++ helpLines [(command.inputShape, command.inputHelp)]

end Command

/-- What can be wrong with the arguments of a command. -/
inductive ArgumentFault where
  /-- Perhaps another option was meant. -/
  | unexpected (argument : String) (meant : Option String)
  | missingInput
  | missingValue (option : ValueOption)
  | invalidValue (option : ValueOption) (reason : String)
  | repeated (option : ValueOption)

/-- A text in green, for terminals. -/
def inGreen (text : String) : String := "\x1b[32m" ++ text ++ "\x1b[0m"

/-- The message on wrong arguments, when the given options were in play. -/
def ArgumentFault.message (command : Command) (inPlay : List String) :
    ArgumentFault → String
  | .unexpected argument meant =>
    let hint := match meant with
      | some name => "\n\tDid you mean " ++ inGreen "--" ++ inGreen name ++ "?"
      | none => ""
    withUsage
      s!"Found argument '{argument}' which wasn't expected, or isn't valid in this context{hint}"
  | .missingInput =>
    withUsage
      s!"The following required arguments were not provided:\n    {command.inputShape}"
  | .missingValue option =>
    withUsage s!"The argument '{option.shape}' requires a value but none was supplied"
  | .invalidValue option reason => s!"error: Invalid value for '{option.shape}': {reason}"
  | .repeated option =>
    withUsage <|
      s!"The argument '{option.shape}' was provided more than once, " ++
      "but cannot be used multiple times"
where
  withUsage (text : String) : String :=
    s!"error: {text}\n\n{command.usage inPlay}\n\nFor more information try --help"

end ExperimentCharts.CommandLine
