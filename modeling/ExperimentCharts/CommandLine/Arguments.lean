import ExperimentCharts.CommandLine.Command
import ExperimentCharts.CommandLine.Likeness

namespace ExperimentCharts.CommandLine

/-- An option in the arguments, with its value if it has one. -/
structure Use where
  option : ValueOption
  value : Option String

/-- What was read so far. -/
structure Reading where
  input : Option String := none
  uses : List Use := []
  /-- The option whose value is the next argument, unless that is an option itself. -/
  waiting : Option ValueOption := none
  /-- Whether the options are over. -/
  inputsOnly : Bool := false

/-- The result of reading: something to show, a fault with the options that were in play, or the input
    and the values of the options by name. -/
inductive Outcome where
  | flag (flag : Flag)
  | fault (fault : ArgumentFault) (inPlay : List String)
  | accepted (input : String) (values : List (String × String))

namespace Reading

/-- The names of the options read so far. -/
def inPlay (reading : Reading) : List String :=
  (reading.uses.map fun use => use.option.name) ++
    (reading.waiting.toList.map fun option => option.name)

/-- The reading with an option that has, or waits for, its value. -/
def addOption (reading : Reading) (option : ValueOption) : Option String → Reading
  | some value => { reading with uses := reading.uses ++ [⟨option, some value⟩] }
  | none => { reading with waiting := some option }

/-- The reading without a waiting option: what comes next is not its value. -/
def settle (reading : Reading) : Reading :=
  match reading.waiting with
  | some option =>
    { reading with uses := reading.uses ++ [⟨option, none⟩], waiting := none }
  | none => reading

/-- Reads an argument that is no option. An option that waits for its value goes on waiting. -/
def takeInput (reading : Reading) (argument : String) : Except Outcome Reading :=
  match reading.input with
  | none => .ok { reading with input := some argument }
  | some _ => .error (.fault (.unexpected argument none) reading.inPlay)

/-- A value after an equality sign, or several. -/
def strippedValue (value : List Char) : String := String.ofList (value.dropWhile (· == '='))

/-- Reads a long option, without its dashes. -/
def takeLong (command : Command) (reading : Reading) (text : List Char) : Except Outcome Reading :=
  let name := String.ofList (text.takeWhile (· != '='))
  let value := match text.dropWhile (· != '=') with
    | [] => none
    | rest => some (strippedValue rest)
  match command.options.find? fun option => option.name = name with
  | some option => .ok (reading.settle.addOption option value)
  | none =>
    match Flag.all.find? fun flag => flag.name = name with
    | some flag => .error (.flag flag)
    | none =>
      let names := Flag.all.map Flag.name ++ command.options.map fun option => option.name
      let meant := closest? name names
      .error (.fault (.unexpected ("--" ++ name) meant) (reading.inPlay ++ meant.toList))

/-- Reads a short option, without its dash; the rest of the argument is its value. -/
def takeShort (command : Command) (reading : Reading) (letter : Char) (rest : List Char) :
    Except Outcome Reading :=
  match command.options.find? fun option => option.letter = letter with
  | some option =>
    .ok (reading.settle.addOption option (if rest.isEmpty then none else strippedValue rest))
  | none =>
    match Flag.all.find? fun flag => flag.letter = letter with
    | some flag => .error (.flag flag)
    | none => .error (.fault (.unexpected s!"-{letter}" none) reading.inPlay)

/-- Reads one argument. -/
def take (command : Command) (reading : Reading) (argument : String) : Except Outcome Reading :=
  if reading.inputsOnly then reading.takeInput argument
  else match argument.toList with
    | ['-', '-'] => .ok { reading with inputsOnly := true }
    | '-' :: '-' :: rest => reading.takeLong command (rest.dropWhile (· == '-'))
    | '-' :: letter :: rest => reading.takeShort command letter rest
    | _ =>
      match reading.waiting with
      | some option =>
        .ok { reading with uses := reading.uses ++ [⟨option, some argument⟩], waiting := none }
      | none => reading.takeInput argument

/-- The values that were given to an option, or else its default. -/
def valuesOf (reading : Reading) (option : ValueOption) : List String :=
  let given := reading.uses.filterMap fun use =>
    if use.option.name = option.name then use.value else none
  if given.isEmpty then option.default.toList else given

/-- Whether an option was given at least so many times. -/
def usedTimes (reading : Reading) (option : ValueOption) (count : Nat) : Bool :=
  decide (count ≤ reading.inPlay.count option.name)

/-- What is wrong with an option. -/
def faultOf (reading : Reading) (option : ValueOption) : Option ArgumentFault :=
  let values := reading.valuesOf option
  if reading.usedTimes option 1 ∧ values.isEmpty then some (.missingValue option)
  else match values.findSome? option.fault with
    | some reason => some (.invalidValue option reason)
    | none => if reading.usedTimes option 2 then some (.repeated option) else none

/-- What is wrong with the whole reading. The input comes first, then an option that still waits for its
    value, then the others. -/
def fault? (command : Command) (reading : Reading) : Option ArgumentFault :=
  if reading.input.isNone then some .missingInput
  else match reading.waiting.filter fun option => (reading.valuesOf option).isEmpty with
    | some option => some (.missingValue option)
    | none => command.options.findSome? reading.faultOf

/-- The outcome of a reading that has come to its end. Options with a default are in play by then. -/
def finish (command : Command) (reading : Reading) : Outcome :=
  let defaults := (command.options.filter fun option => option.default.isSome).map
    fun option => option.name
  match reading.fault? command with
  | some fault => .fault fault (reading.inPlay ++ defaults)
  | none =>
    .accepted (reading.input.getD "") (command.options.filterMap fun option =>
      (reading.valuesOf option).head?.map fun value => (option.name, value))

end Reading

/-- Reads the arguments of a command. Options can be written long, `--name value` and `--name=value`, or
    short, `-n value`, `-nvalue` and `-n=value`. An argument of two dashes ends the options. What is no
    option is the input. -/
def Command.read (command : Command) (arguments : List String) : Outcome :=
  match arguments.foldlM (Reading.take command) {} with
  | .ok reading => reading.finish command
  | .error outcome => outcome

end ExperimentCharts.CommandLine
