import IrDialects.Text.Quoted
import IrDialects.Wire.Dialect

/-!
# Scenarios

A scenario names a document, says whether and how to migrate it, and lists assertions about the
outcome.
-/

namespace IrDialects

/-- What a scenario asserts. -/
inductive Assertion where
  /-- The document is written in a dialect. -/
  | dialect (name : String)
  /-- The document cannot be read, with a kind of issue and, unless it is empty, at a place. -/
  | decodeError (kind path : String)
  /-- The output is written again in the same way. -/
  | roundTrip
  /-- The output has the fingerprint of the document. -/
  | fingerprintStable
  /-- A statistic of the document has a value. -/
  | count (field : String) (value : Int)
  /-- The output contains a text. -/
  | outputContains (text : String)
  /-- An assertion of a type that does not exist. -/
  | unknown (type : String)
deriving DecidableEq, Repr

namespace Assertion

def type : Assertion → String
  | dialect _ => "dialect"
  | decodeError .. => "decode_error"
  | roundTrip => "round_trip"
  | fingerprintStable => "fingerprint_stable"
  | count .. => "count"
  | outputContains _ => "output_contains"
  | unknown t => t

/-- Whether an assertion looks at the output. -/
def needsTarget : Assertion → Bool
  | roundTrip | fingerprintStable | outputContains _ => true
  | _ => false

/-- Whether an assertion says that the document cannot be read. -/
def expectsFailure : Assertion → Bool
  | decodeError .. => true
  | _ => false

end Assertion

/-- The members of an assertion in a file; each type uses some of them. -/
structure AssertionEntry where
  type : String := ""
  dialect : String := ""
  kind : String := ""
  path : String := ""
  field : String := ""
  count : Int := 0
  text : String := ""
deriving DecidableEq, Repr, Inhabited

/-- The assertion that an entry stands for. -/
def AssertionEntry.assertion (e : AssertionEntry) : Assertion :=
  match e.type with
  | "dialect" => .dialect e.dialect
  | "decode_error" => .decodeError e.kind e.path
  | "round_trip" => .roundTrip
  | "fingerprint_stable" => .fingerprintStable
  | "count" => .count e.field e.count
  | "output_contains" => .outputContains e.text
  | t => .unknown t

/-- A document and what is asserted about it. -/
structure Scenario where
  name : String := ""
  description : String := ""
  /-- The name of the file with the document. -/
  input : String := ""
  /-- The document itself. -/
  document : String := ""
  /-- The dialect to migrate to; an empty name means none. -/
  target : String := ""
  expanded : Bool := false
  assertions : List Assertion := []
deriving DecidableEq, Repr, Inhabited

end IrDialects
