import IrDialects.Text.LowerCase
import IrDialects.Text.Quoted

/-!
# Dialects

The two ways of writing a document: Classic uses tagged arrays, V4 objects with tags as keys.
-/

namespace IrDialects

/-- A way of writing documents. -/
inductive Dialect where
  | classic
  | v4
deriving DecidableEq, Repr

namespace Dialect

def name : Dialect → String
  | classic => "classic"
  | v4 => "v4"

def ofName? (s : String) : Option Dialect :=
  if s = "classic" then some classic else if s = "v4" then some v4 else none

/-- The dialect that a user means, by its name, its version number or as the latest one. -/
def parse? (s : String) : Option Dialect :=
  let t := Text.LowerCase.lower s
  if t ∈ ["v4", "4", "latest"] then some v4
  else if t ∈ ["classic", "v3", "3", "v2", "2", "v1", "1"] then some classic
  else none

/-- The message about a text that names no dialect. -/
def invalidMessage (s : String) : String :=
  "invalid dialect " ++ Text.Quoted.quote s ++ ": valid values are latest, v4, 4, classic, v3, 3"

end Dialect

end IrDialects
