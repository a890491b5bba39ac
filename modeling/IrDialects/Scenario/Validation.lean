import IrDialects.Scenario.Statistic
import IrDialects.Wire.Complaint

/-!
# Valid scenarios

What a scenario has to say before it is run.
-/

namespace IrDialects

/-- What is wrong with an assertion. -/
inductive AssertionProblem where
  | noType
  | needsTarget (type : String)
  | badDialect (name : String)
  | unknownKind (kind : String)
  | unknownField (field : String)
  | negativeCount
  | noText
  | unknownType (type : String)
deriving DecidableEq, Repr

def AssertionProblem.message : AssertionProblem → String
  | .noType => "type is required"
  | .needsTarget t => t ++ " requires a target"
  | .badDialect s => "dialect: " ++ Dialect.invalidMessage s
  | .unknownKind s => "unknown error kind " ++ Text.Quoted.quote s ++ " for decode_error"
  | .unknownField s => "unknown field " ++ Text.Quoted.quote s ++ " for count"
  | .negativeCount => "count must be non-negative"
  | .noText => "text is required for output_contains"
  | .unknownType s => "unknown assertion type " ++ Text.Quoted.quote s

/-- What is wrong with a scenario. -/
inductive ScenarioProblem where
  | noName
  | noDescription
  | noInput
  | twoInputs
  | inputMissing (path : String)
  | badTarget (name : String)
  | expandedClassic
  | expandedWithoutTarget
  | noAssertions
  | assertion (index : Nat) (problem : AssertionProblem)
deriving DecidableEq, Repr

def ScenarioProblem.message : ScenarioProblem → String
  | .noName => "name is required"
  | .noDescription => "description is required"
  | .noInput => "one of input or document is required"
  | .twoInputs => "input and document are mutually exclusive"
  | .inputMissing path => "input file not found: " ++ path
  | .badTarget s => "target: " ++ Dialect.invalidMessage s
  | .expandedClassic => "expanded applies to V4 output only"
  | .expandedWithoutTarget => "expanded requires a target"
  | .noAssertions => "assertions list is required and must be non-empty"
  | .assertion i p => "assertions[" ++ toString i ++ "]: " ++ p.message

/-- Whether a text is the code of a class of issues. -/
def isIssueCode (s : String) : Bool :=
  [IssueKind.malformedShape, .unknownFormatVersion, .fieldTypeMismatch].any (·.code == s)

/-- What is wrong with an assertion, given whether the scenario has a target. -/
def Assertion.problem? (hasTarget : Bool) (a : Assertion) : Option AssertionProblem :=
  if a.type.isEmpty then some .noType
  else if a.needsTarget && !hasTarget then some (.needsTarget a.type)
  else match a with
    | .dialect s => if (Dialect.parse? s).isSome then none else some (.badDialect s)
    | .decodeError k _ => if isIssueCode k then none else some (.unknownKind k)
    | .roundTrip | .fingerprintStable => none
    | .count f n =>
      if (Statistic.ofName? f).isNone then some (.unknownField f)
      else if n < 0 then some .negativeCount
      else none
    | .outputContains s => if s.isEmpty then some .noText else none
    | .unknown t => some (.unknownType t)

namespace Scenario

/-- The first problem of assertions, counted from an index. -/
def assertionProblem? (hasTarget : Bool) : Nat → List Assertion → Option ScenarioProblem
  | _, [] => none
  | i, a :: as =>
    match a.problem? hasTarget with
    | some p => some (.assertion i p)
    | none => assertionProblem? hasTarget (i + 1) as

/-- What is wrong with the target of a scenario. -/
def targetProblem? (s : Scenario) : Option ScenarioProblem :=
  if s.target.isEmpty then
    if s.expanded then some .expandedWithoutTarget else none
  else match Dialect.parse? s.target with
    | none => some (.badTarget s.target)
    | some d => if s.expanded && d != .v4 then some .expandedClassic else none

/-- The first problem of a scenario, given which input files there are. -/
def problem? (s : Scenario) (inputExists : String → Bool) : Option ScenarioProblem :=
  if s.name.isEmpty then some .noName
  else if s.description.isEmpty then some .noDescription
  else if s.input.isEmpty && s.document.isEmpty then some .noInput
  else if !s.input.isEmpty && !s.document.isEmpty then some .twoInputs
  else if !s.input.isEmpty && !inputExists s.input then some (.inputMissing s.input)
  else match s.targetProblem? with
    | some p => some p
    | none =>
      if s.assertions.isEmpty then some .noAssertions
      else assertionProblem? (!s.target.isEmpty) 0 s.assertions

end Scenario

end IrDialects
