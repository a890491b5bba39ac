import IrDialects.Text.Quoted

/-!
# Faults of number texts

A text fails to denote a number of a given kind either because it is not a numeral at all or because
the number is too large for the kind.
-/

namespace IrDialects.Number

/-- Why a text denotes no number. -/
inductive Fault where
  | malformed
  | outOfRange
deriving Repr, DecidableEq

def Fault.reason : Fault → String
  | .malformed => "invalid syntax"
  | .outOfRange => "value out of range"

/-- The full message about `text`, which the routine called `reader` refused. -/
def Fault.message (reader text : String) (f : Fault) : String :=
  "strconv." ++ reader ++ ": parsing " ++ Text.Quoted.quote text ++ ": " ++ f.reason

end IrDialects.Number
