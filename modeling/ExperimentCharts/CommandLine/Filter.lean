import ExperimentCharts.Log
import ExperimentCharts.Text.Blank
import ExperimentCharts.Text.Parts
import ExperimentCharts.Text.Plain

namespace ExperimentCharts

/-- A rule for the notices whose target starts with a text, or for all of them: levels up to a rank are
    shown. -/
structure LogRule where
  target : Option String
  rank : Nat

namespace LogRule

/-- Whether the rule is for a target. -/
def appliesTo (rule : LogRule) (target : String) : Bool :=
  rule.target.all fun start => start.toList.isPrefixOf target.toList

/-- How closely the rule tells its targets: by how many characters. -/
def closeness (rule : LogRule) : Nat := (rule.target.getD "").length

/-- Everything is shown. -/
def everything : Nat := 5

/-- The rank of the least urgent level that a name lets through, in small or capital letters. -/
def rankOf? (name : String) : Option Nat :=
  match name.map Char.toLower with
  | "off" => some 0
  | "error" => some 1
  | "warn" => some 2
  | "info" => some 3
  | "debug" => some 4
  | "trace" => some everything
  | _ => none

end LogRule

/-- What cannot be understood in the rules for the log. -/
inductive LogFault where
  /-- A rule, or the level in it. -/
  | meaningless (text : String)
  | tooManySlashes (text : String)

namespace LogFault

def message : LogFault → String
  | .meaningless text => s!"invalid logging spec '{text}'"
  | .tooManySlashes text => s!"invalid logging spec '{text}' (too many '/'s)"

/-- The line that tells of a fault, after which the fault does not matter. -/
def line (fault : LogFault) : String := s!"warning: {fault.message}, ignoring it\n"

end LogFault

/-- A rule in writing. -/
def LogRule.read (text : String) : Except LogFault LogRule :=
  match (Text.split '=' text.toList).map String.ofList with
  | [target] =>
    match rankOf? target with
    | some rank => .ok ⟨none, rank⟩
    | none => .ok ⟨some target, everything⟩
  | [target, level] =>
    let level := Text.trim level
    if level = "" then .ok ⟨some target, everything⟩
    else match rankOf? level with
      | some rank => .ok ⟨some target, rank⟩
      | none => .error (.meaningless level)
  | _ => .error (.meaningless text)

/-- The rules in force, which give each part of the program the least urgent level to show, and the text
    that notices have to contain. -/
structure LogFilter where
  rules : List LogRule
  part : String := ""

namespace LogFilter

/-- The filter with one more rule. It takes the place of a rule for the same target. -/
def add (filter : LogFilter) (rule : LogRule) : LogFilter :=
  if filter.rules.any fun known => known.target == rule.target then
    { filter with rules := filter.rules.map fun known =>
        if known.target == rule.target then rule else known }
  else { filter with rules := filter.rules ++ [rule] }

/-- The rules between commas, and the faults among them. Blanks around a rule do not count, and nothing
    is no rule. -/
def readRules (text : List Char) (part : String) : LogFilter × List LogFault :=
  let written := ((Text.split ',' text).map fun rule => Text.trim (String.ofList rule)).filter (· ≠ "")
  written.foldl (fun (filter, faults) rule =>
    match LogRule.read rule with
    | .ok rule => (filter.add rule, faults)
    | .error fault => (filter, faults ++ [fault])) (⟨[], part⟩, [])

/-- The filter in writing, and the faults in it. Rules are written between commas. A rule is a level for
    all targets, a target, or a target and its level with an equality sign between them. After a slash
    there can be a text that notices have to contain. -/
def read (text : String) : LogFilter × List LogFault :=
  match Text.split '/' text.toList with
  | [rules] => readRules rules ""
  | [rules, part] => readRules rules (String.ofList part)
  | _ => (⟨[], ""⟩, [.tooManySlashes text])

/-- The rule for a target: among those that apply, the one that tells it most closely, the last one of
    equals. -/
def ruleFor? (filter : LogFilter) (target : String) : Option LogRule :=
  (filter.rules.filter fun rule => rule.appliesTo target).foldl
    (fun best rule => if best.all (fun b => b.closeness ≤ rule.closeness) then some rule
      else best) none

/-- Whether a level is shown for a target. Without a single rule only errors are. -/
def lets (filter : LogFilter) (level : Level) (target : String) : Bool :=
  if filter.rules.isEmpty then decide (level.rank ≤ Level.error.rank)
  else match filter.ruleFor? target with
    | some rule => decide (level.rank ≤ rule.rank)
    | none => false

/-- Whether a notice is shown. -/
def shows (filter : LogFilter) (notice : Notice) : Bool :=
  filter.lets notice.level notice.target && Text.occursIn filter.part.toList notice.text.toList

/-- The filter for what the environment says, or else for notices from `info` on. -/
def ofEnvironment (value : Option String) : LogFilter × List LogFault := read (value.getD "info")

end LogFilter

/-- The line of the log for a notice. Further lines of its text are indented, and what a terminal would
    not show is left out. -/
def Notice.line (notice : Notice) : String :=
  let name := notice.level.name
  let padding := "".pushn ' ' (5 - name.length)
  let text := String.ofList (notice.text.toList.flatMap fun c =>
    if c = '\n' then "\n    ".toList else [c])
  Text.plain s!"[{name}{padding} {notice.target}] {text}\n"

end ExperimentCharts
