import ExperimentCharts.Text.Parts

namespace ExperimentCharts.Path

/-- The names between the slashes of a path. -/
def names (path : String) : List String := (Text.split '/' path.toList).map String.ofList

def isAbsolute (path : String) : Bool := path.toList.head? == some '/'

/-- A name below a directory, with a slash between them unless the directory ends in one. An absolute
    name stands for itself. -/
def join (root name : String) : String :=
  if isAbsolute name then name
  else if root.isEmpty || root.toList.getLast? == some '/' then root ++ name
  else root ++ "/" ++ name

/-- The last name of a path that stands for a file: the names of a directory itself, one or two dots,
    do not. -/
def fileName? (path : String) : Option (List Char) := do
  let last ← ((Text.split '/' path.toList).filter fun part => part ≠ [] ∧ part ≠ ['.']).getLast?
  if last = ['.', '.'] then none else some last

/-- What follows the last dot of the file's name; a dot at its start does not count. -/
def extension? (path : String) : Option String := do
  let name ← fileName? path
  let after := name.reverse.takeWhile fun c => c ≠ '.'
  if after.length + 1 < name.length then some (String.ofList after.reverse) else none

end ExperimentCharts.Path
