import IrDialects.Files.FileTree
import IrDialects.Scenario.Reading
import IrDialects.Scenario.Validation

/-!
# Loading scenarios

From files to valid scenarios. The input file of a scenario is named relative to the directory.
-/

namespace IrDialects

/-- Why scenarios could not be loaded. -/
inductive LoadFault where
  | file (fault : FileFault)
  | yaml (fault : Yaml.ReadFault)
  | members (complaints : List String)
  | invalid (path : String) (problem : ScenarioProblem)
  | repeatedName (name firstPath secondPath : String)
deriving DecidableEq, Repr

def LoadFault.message : LoadFault → String
  | .file f => "failed to read scenario file: " ++ f.message
  | .yaml f => "failed to parse YAML: " ++ f.message
  | .members cs => "failed to parse YAML: yaml: unmarshal errors:\n  " ++ "\n  ".intercalate cs
  | .invalid path p => "invalid scenario " ++ path ++ ": " ++ p.message
  | .repeatedName name a b =>
    "scenario name " ++ Text.Quoted.quote name ++ " used by both " ++ a ++ " and " ++ b

namespace Scenario

/-- The scenario with its input named from the directory of the scenario file. -/
def resolveInput (s : Scenario) : Scenario :=
  if s.input.isEmpty || FileName.isAbsolute s.input then s
  else { s with input := FileName.clean s.input }

def parse (text : String) : Except LoadFault Scenario :=
  match Yaml.read text with
  | .error f => .error (.yaml f)
  | .ok n => (Reading.scenario n).mapError .members

def load (files : FileTree) (path : String) : Except LoadFault Scenario := do
  let bytes ← (files.read path).mapError .file
  let s ← parse (Text.Bytes.decode bytes)
  let s := s.resolveInput
  match s.problem? files.has with
  | some p => throw (.invalid path p)
  | none => return s

/-- The scenarios in files, none of which may have the name of one before it. -/
def loadEach (files : FileTree) : List (String × String) → List String → Except LoadFault (List Scenario)
  | _, [] => .ok []
  | seen, path :: paths => do
    let s ← load files path
    match seen.lookup s.name with
    | some earlier => throw (.repeatedName s.name earlier path)
    | none =>
      let rest ← loadEach files ((s.name, path) :: seen) paths
      return s :: rest

/-- The names of the scenario files at the top of a directory, in order. -/
def fileNames (files : FileTree) : List String :=
  (files.topNames.filter (·.endsWith ".yaml")).mergeSort fun a b => decide (a ≤ b)

/-- All scenarios at the top of a directory. -/
def loadAll (files : FileTree) : Except LoadFault (List Scenario) := loadEach files [] (fileNames files)

end Scenario

end IrDialects
