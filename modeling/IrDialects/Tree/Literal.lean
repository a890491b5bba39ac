import IrDialects.Number.Binary64

/-!
# Literals

Literal constants. A decimal keeps its text, so that `1.230` and `1.23` stay apart.
-/

namespace IrDialects

inductive Literal where
  | bool (value : Bool)
  | char (value : Char)
  | string (value : String)
  | integer (value : Int)
  | float (value : Number.Binary64)
  | decimal (text : String)
deriving DecidableEq, Repr

end IrDialects
