import IrDialects.Scenario.Refutation
import IrDialects.Text.Blank

/-!
# Running scenarios
-/

namespace IrDialects

/-- The outcome of a run. -/
structure RunResult where
  observation : Observation
  errors : List String := []
  /-- Whether the scenario went as it should. -/
  pass : Bool := true

namespace RunResult

/-- The outcome with one more error, which fails the run. -/
def addError (r : RunResult) (error : String) : RunResult :=
  { r with errors := r.errors ++ [error], pass := false }

/-- The outcome before any assertion is looked at: an output that is no document is an error. -/
def ofObservation (seen : Observation) : RunResult :=
  match seen.unreadable with
  | some f => addError { observation := seen } ("encoded output does not decode: " ++ f.message)
  | none => { observation := seen }

/-- The trace and the output as a text. -/
def snapshot (name : String) (r : RunResult) : String :=
  "# scenario: " ++ name ++ "\n"
    ++ String.join (r.observation.trace.map fun e => e.text ++ "\n")
    ++ (match r.observation.output with
      | some out => "--- output\n" ++ out ++ "\n"
      | none => "")

end RunResult

namespace Scenario

def bytes (s : Scenario) (files : FileTree) : Except FileFault (List UInt8) :=
  if s.document.isEmpty then files.read s.input
  else .ok (Text.Bytes.encode (Text.trim s.document))

def target? (s : Scenario) : Except RunFault (Option Target) :=
  if s.target.isEmpty then .ok none
  else match Dialect.parse? s.target with
    | some d => .ok (some ⟨d, if s.expanded then .expanded else .compact⟩)
    | none => .error (.target s.target)

def run (s : Scenario) (files : FileTree) : Except RunFault RunResult := do
  let data ← (s.bytes files).mapError .input
  let target ← s.target?
  let seen ← Observation.ofBytes data target
  return (Assertion.evaluate seen target s.assertions).foldl RunResult.addError (.ofObservation seen)

end Scenario

end IrDialects
