import IrDialects.Number.Shortest

/-!
# Data in reports

The data of a report, and their one-line text.
-/

namespace IrDialects.Report

/-- A piece of data. -/
inductive Datum where
  | null
  | bool (value : Bool)
  | count (value : Nat)
  | number (value : Number.Binary64)
  | text (value : String)
  | list (items : List Datum)
  /-- Entries whose order means nothing; every format sorts them. -/
  | map (entries : List (String × Datum))
  /-- Fields in their order. -/
  | record (fields : List (String × Datum))
deriving Repr, Inhabited

namespace Datum

/-- Entries in the order of their keys. -/
def sortEntries {α : Type} (entries : List (String × α)) : List (String × α) :=
  entries.mergeSort fun a b => decide (a.1 ≤ b.1)

mutual

/-- The text of a datum in one line. -/
def line : Datum → String
  | null => "<nil>"
  | bool b => if b then "true" else "false"
  | count n => toString n
  | number x => Number.FloatLayout.document.text x
  | text s => s
  | list xs => "[" ++ " ".intercalate (lineItems xs) ++ "]"
  | map es =>
    "map[" ++ " ".intercalate ((sortEntries (lineEntries es)).map fun (k, s) => k ++ ":" ++ s) ++ "]"
  | record fs => "\x7b" ++ " ".intercalate ((lineEntries fs).map Prod.snd) ++ "\x7d"

def lineItems : List Datum → List String
  | [] => []
  | x :: xs => line x :: lineItems xs

def lineEntries : List (String × Datum) → List (String × String)
  | [] => []
  | (k, x) :: es => (k, line x) :: lineEntries es

end

end Datum

end IrDialects.Report
