import ExperimentCharts.Results.Basic

namespace ExperimentCharts

/-- The least, the median and the greatest of some values. -/
structure Summary where
  min : Binary64
  med : Binary64
  max : Binary64
deriving DecidableEq

/-- The median of values in ascending order: the middle one, or the mean of the middle two. -/
def median (sorted : List Binary64) : Option Binary64 :=
  let count := sorted.length
  if count % 2 = 0 then do
    let lower ← sorted[count / 2 - 1]?
    let upper ← sorted[count / 2]?
    return (lower + upper) / 2
  else sorted[count / 2]?

/-- The mean of some values. -/
def mean (values : List Binary64) : Binary64 := Binary64.sum values / values.length

/-- The means of the applications that have values, in ascending order. -/
def sortedMeans (apps : List (String × List Binary64)) : List Binary64 :=
  Binary64.sorted ((apps.filter fun app => !app.2.isEmpty).map fun app => mean app.2)

/-- The summary of the means of the applications that have values; there is none without values. -/
def summarize (apps : List (String × List Binary64)) : Option Summary := do
  let means := sortedMeans apps
  return ⟨← means.head?, ← median means, ← means.getLast?⟩

end ExperimentCharts
