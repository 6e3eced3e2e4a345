/-!
# First occurrences

The elements of a list whose key has not occurred before, in order: of all elements with one key
only the first is kept.
-/
namespace PageBuild

/-- The first element of each key that is not among the keys seen. -/
def distinctFrom {α κ : Type} [BEq κ] (key : α → κ) (seen : List κ) : List α → List α
  | [] => []
  | x :: rest =>
    if seen.contains (key x) then distinctFrom key seen rest
    else x :: distinctFrom key (key x :: seen) rest

/-- The first element of each key. -/
def distinctBy {α κ : Type} [BEq κ] (key : α → κ) (xs : List α) : List α := distinctFrom key [] xs

/-- The elements without repetition, each where it first occurs. -/
def distinct {α : Type} [BEq α] (xs : List α) : List α := distinctBy id xs

end PageBuild
