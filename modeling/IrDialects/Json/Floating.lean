import IrDialects.Number.Shortest

/-!
# Floating-point numbers in documents

A document can hold finite numbers only.
-/

namespace IrDialects.Json

/-- A number that is not finite. -/
structure NotFinite where
  number : Number.Binary64
deriving DecidableEq, Repr

def NotFinite.message (f : NotFinite) : String :=
  "float " ++ Number.FloatLayout.document.text f.number ++ " has no JSON representation"

/-- The spelling of a floating-point number in a document. -/
def floatText (x : Number.Binary64) : Except NotFinite String :=
  match x with
  | .finite .. => .ok (Number.FloatLayout.document.text x)
  | _ => .error ⟨x⟩

end IrDialects.Json
