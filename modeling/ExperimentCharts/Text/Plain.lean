namespace ExperimentCharts.Text

/-- Where in a text one is, as a terminal sees it. -/
inductive TerminalMode where
  /-- In what is shown. -/
  | shown
  /-- Right after an escape character. -/
  | escape
  /-- In a command whose kind is still to come. -/
  | intermediate
  /-- In a command with parameters. -/
  | parameters
  /-- In a title. -/
  | title
  /-- In a text for the terminal itself. -/
  | message
deriving DecidableEq

/-- The control characters that are white space, and so are shown. -/
def isLayout (c : Char) : Bool := c == '\t' || c == '\n' || c == '\x0c' || c == '\r'

/-- Whether a character lies between two others in the order of their codes, both included. -/
def isBetween (first last c : Char) : Bool := first ≤ c && c ≤ last

namespace TerminalMode

/-- The mode after a character of a command. White space ends the command. -/
def command (c : Char) (mode next : TerminalMode) : TerminalMode × Bool :=
  if isLayout c then (.shown, true)
  else if isBetween ' ' '~' c then (next, false)
  else (mode, false)

/-- The mode after the character that tells the kind of a command. -/
def afterEscape (c : Char) : TerminalMode :=
  if isBetween ' ' '/' c then .intermediate
  else if c = '[' then .parameters
  else if c = ']' then .title
  else if c = 'P' ∨ c = 'X' ∨ c = '^' ∨ c = '_' then .message
  else .shown

/-- The mode after a character, and whether the character is shown. -/
def step (mode : TerminalMode) (c : Char) : TerminalMode × Bool :=
  if c = '\x1b' then (.escape, false)
  else if c = '\x18' ∨ c = '\x1a' then (.shown, false)
  else match mode with
    | .shown => (.shown, isLayout c || (' ' ≤ c && c != '\x7f'))
    | .escape => command c .escape (afterEscape c)
    | .intermediate => command c .intermediate (if c ≤ '/' then .intermediate else .shown)
    | .parameters => command c .parameters (if c ≤ '?' then .parameters else .shown)
    | .title => (if c = '\x07' then .shown else .title, false)
    | .message => (.message, false)

end TerminalMode

/-- The characters of a text that are shown, from a mode on. -/
def plainFrom (mode : TerminalMode) : List Char → List Char
  | [] => []
  | c :: cs =>
    let (next, isShown) := mode.step c
    if isShown then c :: plainFrom next cs else plainFrom next cs

/-- The characters of a text that a terminal would show: neither control characters nor the sequences
    that command it, each of which starts with an escape character. -/
def plain (text : String) : String := String.ofList (plainFrom .shown text.toList)

end ExperimentCharts.Text
