import IrDialects.Scenario.Observation
import IrDialects.Scenario.Statistic
import IrDialects.Text.Pieces

/-!
# Evaluating assertions

An assertion holds unless it is refuted by what the run observed.
-/

namespace IrDialects

/-- Why an assertion does not hold. -/
inductive Refutation where
  | mismatch (expected actual : String)
  | badDialect (name : String)
  | unknownField (field : String)
  | unknownType (type : String)
  | failure (failure : Failure)
deriving DecidableEq, Repr

/-- The refutation of an assertion in words, with the trace of the run. -/
def Refutation.message (type : String) (trace : List TraceEvent) : Refutation → String
  | .mismatch expected actual =>
    "Assertion failed: " ++ type ++ "\n  Expected: " ++ expected ++ "\n  Actual: " ++ actual
      ++ "\n\nFull trace:\n"
      ++ String.join (trace.mapIdx fun i e => "  [" ++ toString (i + 1) ++ "] " ++ e.text ++ "\n")
  | .badDialect s => Dialect.invalidMessage s
  | .unknownField s => "unknown count field " ++ Text.Quoted.quote s
  | .unknownType t => "unknown assertion type: " ++ t
  | .failure f => f.message

namespace Assertion

/-- A text, or a mark for the empty one. -/
def orNone (s : String) : String := if s.isEmpty then "(none)" else s

/-- A finding in one line. -/
def findingText (f : Finding) : String := f.kind ++ " at " ++ orNone f.path ++ ": " ++ f.message

/-- The refutation of an assertion that looks at what the run does not have. -/
def missing (seen : Observation) : Refutation :=
  .mismatch "a decoded document" (match seen.issue with
    | some f => "input did not decode: " ++ f.message
    | none => "no output")

/-- Refutes unless a condition holds. -/
def demand (holds : Bool) (expected actual : String) : Option Refutation :=
  if holds then none else some (.mismatch expected actual)

/-- Why an assertion about the dialect does not hold. -/
def refuteDialect (seen : Observation) (name : String) : Option Refutation :=
  match Dialect.parse? name with
  | none => some (.badDialect name)
  | some want =>
    demand (seen.source == some want) want.name (orNone ((seen.source.map Dialect.name).getD ""))

/-- Why an assertion about a decoding failure does not hold. -/
def refuteDecodeError (seen : Observation) (kind path : String) : Option Refutation :=
  let expected := if path.isEmpty then kind else kind ++ " at " ++ path
  match seen.issue with
  | none => some (.mismatch expected "document decoded")
  | some f => demand (f.kind == kind && (path.isEmpty || f.path == path)) expected (findingText f)

/-- The document in an output, or why there is none. -/
def outputDocument (out : String) : Except Refutation AnyDocument :=
  (AnyDocument.decode (Text.Bytes.encode out)).mapError fun f =>
    .mismatch "output decodes" f.message

/-- Why the output is not written again in the same way. -/
def refuteRoundTrip (seen : Observation) (target : Option Target) : Option Refutation :=
  match seen.output, target with
  | some out, some t =>
    match outputDocument out with
    | .error r => some r
    | .ok doc =>
      match doc.encode t.dialect t.mode with
      | .error f => some (.mismatch "output re-encodes" f.message)
      | .ok again => demand (again == out) out again
  | _, _ => some (missing seen)

/-- Why the output has another fingerprint than the document. -/
def refuteFingerprint (seen : Observation) : Option Refutation :=
  match seen.output, seen.document with
  | some out, some doc =>
    match outputDocument out with
    | .error r => some r
    | .ok again =>
      match doc.fingerprint, again.fingerprint with
      | .error f, _ => some (.failure f)
      | _, .error f => some (.failure f)
      | .ok before, .ok after => demand (before == after) before after
  | _, _ => some (missing seen)

def refuteCount (seen : Observation) (field : String) (value : Int) : Option Refutation :=
  match Statistic.ofName? field with
  | none => some (.unknownField field)
  | some stat =>
    match seen.document with
    | none => some (missing seen)
    | some doc =>
      match doc.inspect with
      | .error f => some (.failure f)
      | .ok summary =>
        let got : Int := stat.value summary.stats
        demand (got == value) (field ++ " = " ++ toString value) (field ++ " = " ++ toString got)

/-- Why the output does not contain a text. -/
def refuteContains (seen : Observation) (text : String) : Option Refutation :=
  match seen.output with
  | none => some (missing seen)
  | some out => demand (Text.contains out text) ("output containing " ++ text) out

def refute (seen : Observation) (target : Option Target) : Assertion → Option Refutation
  | dialect s => refuteDialect seen s
  | decodeError k p => refuteDecodeError seen k p
  | roundTrip => refuteRoundTrip seen target
  | fingerprintStable => refuteFingerprint seen
  | count f n => refuteCount seen f n
  | outputContains s => refuteContains seen s
  | unknown t => some (.unknownType t)

/-- The messages about assertions that do not hold, counted from an index. -/
def messages (seen : Observation) (target : Option Target) : Nat → List Assertion → List String
  | _, [] => []
  | i, a :: as =>
    match a.refute seen target with
    | none => messages seen target (i + 1) as
    | some r =>
      ("assertion " ++ toString i ++ " (" ++ a.type ++ "): " ++ r.message a.type seen.trace)
        :: messages seen target (i + 1) as

/-- The errors of a list of assertions: an unexpected decoding failure and the assertions that do not
hold. -/
def evaluate (seen : Observation) (target : Option Target) (as : List Assertion) : List String :=
  (match seen.issue with
    | some f =>
      if as.any (·.expectsFailure) then []
      else ["unexpected decode failure: " ++ findingText f]
    | none => [])
  ++ messages seen target 0 as

end Assertion

end IrDialects
