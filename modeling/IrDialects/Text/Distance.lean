/-!
# Edit distance

The least number of insertions, deletions and replacements that turn one list into another, computed
row by row: a row has the distances from what has been read so far to each start of the other list.
-/

namespace IrDialects.Text.Distance

variable {α : Type} [BEq α]

/-- The rest of a row for the item `x`, from the distances diagonally before and to the left. -/
def rowFrom (x : α) (diagonal left : Nat) : List α → List Nat → List Nat
  | y :: ys, above :: row =>
    let here := if x == y then diagonal else min diagonal (min above left) + 1
    here :: rowFrom x above here ys row
  | _, _ => []

/-- The row after one more item. -/
def nextRow (ys : List α) (row : List Nat) (x : α) : List Nat :=
  match row with
  | [] => []
  | d :: row => (d + 1) :: rowFrom x d (d + 1) ys row

/-- The edit distance of two lists. -/
def distance (xs ys : List α) : Nat :=
  (xs.foldl (nextRow ys) (List.range (ys.length + 1))).getLastD 0

end IrDialects.Text.Distance
