import ExperimentCharts.Binary64.Decimal

namespace ExperimentCharts.CommandLine

/-- The matches between two names: how many there are, and how many of them go back, to a place before
    that of the match before them. -/
structure Matches where
  count : Nat
  backward : Nat
  last : Nat
  /-- The places of the second name that are matched. -/
  taken : List Nat

/-- Matches one letter, at the given place of the first name, with the first free equal letter of the
    second name at most `reach` places away. -/
def Matches.add (name : List Char) (reach : Nat) (found : Matches) (place : Nat) (letter : Char) :
    Matches :=
  let candidate := (List.range name.length).find? fun index =>
    place - reach ≤ index ∧ index ≤ place + reach ∧ name[index]? = some letter ∧
      index ∉ found.taken
  match candidate with
  | none => found
  | some index =>
    { count := found.count + 1
      backward := if index < found.last then found.backward + 1 else found.backward
      last := index
      taken := index :: found.taken }

/-- The likeness by matched letters alone. -/
def letterLikeness (a b : List Char) : Binary64 :=
  if a = b then 1
  else if a.length = 0 ∨ b.length = 0 ∨ (a.length = 1 ∧ b.length = 1) then 0
  else
    let reach := max a.length b.length / 2 - 1
    let found := a.zipIdx.foldl (fun found entry => Matches.add b reach found entry.2 entry.1)
      ⟨0, 0, 0, []⟩
    if found.count = 0 then 0
    else
      let count : Binary64 := found.count
      1 / 3 * (count / a.length + count / b.length + (count - found.backward) / count)

/-- How many letters two names have in common at their beginning. -/
def commonStart : List Char → List Char → Nat
  | a :: as, b :: bs => if a = b then commonStart as bs + 1 else 0
  | _, _ => 0

/-- How much two names look alike, from 0 to 1. The likeness grows with the share of matched letters and
    with the length of the common beginning, and falls with each match that goes back. -/
def likeness (a b : String) : Binary64 :=
  let letters := letterLikeness a.toList b.toList
  let start : Binary64 := commonStart a.toList b.toList
  let total := letters + 0.1 * start * (1 - letters)
  if total ≤ 1 then total else 1

/-- The name that looks most like a given one, if one of them looks much like it. Of equals the first
    one counts. -/
def closest? (given : String) (names : List String) : Option String :=
  let better (best : Option (Binary64 × String)) (name : String) :=
    let score := likeness given name
    if 0.8 < score ∧ (best.all fun entry => entry.1 < score) then some (score, name) else best
  (names.foldl better none).map Prod.snd

end ExperimentCharts.CommandLine
