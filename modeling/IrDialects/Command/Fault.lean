import IrDialects.Command.Line
import IrDialects.Document.Finding
import IrDialects.Files.FileTree
import IrDialects.Json.Layout

/-!
# Faults of jobs

Why a command may fail, what it reports then and how the program ends. A document that cannot be read
is a failure of its own sort: it ends the program with another exit code than every other fault.
-/

namespace IrDialects.Command

open Report

/-- How a program ends that does not succeed. -/
structure Exit where
  code : Nat
  message : String
  reason : Option String := none
deriving DecidableEq, Repr

def Exit.text (e : Exit) : String :=
  match e.reason with
  | some reason => e.message ++ ": " ++ reason
  | none => e.message

/-- The exit code for documents that cannot be read. -/
def Exit.rejected : Nat := 1

/-- The exit code for every other fault. -/
def Exit.unable : Nat := 2

/-- Why a job failed. -/
inductive JobFault where
  | target (name : String)
  /-- Classic documents have no expanded form. -/
  | expandedClassic
  | missing (path : String)
  | unreadable (path : String) (fault : FileFault)
  | undetected (path : String) (fault : Fault)
  | undecodable (path : String) (failure : Failure)
  | invalid (path : String) (failure : Failure)
  | noFingerprint (failure : Failure)
  | unencodable (failure : Failure)
  | noLayout (fault : Json.LayoutFault)
  | unwritable (path : String) (fault : FileFault)

/-- The code of a failure to read a document. -/
def decodeCode (f : Failure) : String := if f.isDetect then "E201" else "E202"

namespace JobFault

def code : JobFault → String
  | target _ | expandedClassic => "E001"
  | missing _ => "E005"
  | unreadable .. => "E006"
  | unwritable .. => "E007"
  | undetected .. => "E201"
  | undecodable _ f | invalid _ f => decodeCode f
  | noFingerprint _ | unencodable _ | noLayout _ => "E203"

def exitCode : JobFault → Nat
  | undetected .. | undecodable .. | invalid .. => Exit.rejected
  | _ => Exit.unable

/-- What failed. -/
def words : JobFault → String
  | target _ => "invalid --target"
  | expandedClassic => "--expanded applies to V4 output only"
  | missing path => "input not found: " ++ path
  | unreadable path _ => "cannot read " ++ path
  | undetected path _ => "cannot detect dialect of " ++ path
  | undecodable path _ => "cannot decode " ++ path
  | invalid path _ => path ++ " is not valid IR"
  | noFingerprint _ => "cannot fingerprint document"
  | unencodable _ => "cannot encode document"
  | noLayout _ => "cannot indent output"
  | unwritable path _ => "cannot write " ++ path

/-- Why it failed. -/
def reason? : JobFault → Option String
  | target name => some (Dialect.invalidMessage name)
  | unreadable _ f | unwritable _ f => some f.message
  | undetected _ f => some f.message
  | undecodable _ f | noFingerprint f | unencodable f => some f.message
  | noLayout f => some f.message
  | expandedClassic | missing _ | invalid .. => none

/-- What is wrong with the document, if that is the fault. -/
def finding? : JobFault → Option Finding
  | undetected _ f => some (.ofFault f)
  | undecodable _ f | invalid _ f => some f.finding
  | _ => none

/-- How the program ends after a fault. -/
def exit (f : JobFault) : Exit := ⟨f.exitCode, f.code ++ ": " ++ f.words, f.reason?⟩

end JobFault

def findingDatum (f : Finding) : Datum :=
  .record ([("kind", .text f.kind), ("path", .text f.path)]
    ++ (if f.tag.isEmpty then [] else [("tag", .text f.tag)])
    ++ [("message", .text f.message)])

/-- A finding as details of a problem. -/
def findingDetails (f : Finding) : Details :=
  ⟨findingDatum f,
    "&\x7b" ++ " ".intercalate [f.kind, f.path, f.tag, f.message] ++ "\x7d"⟩

/-- The text about a document that is not valid. -/
def invalidText (path code : String) (f : Finding) : String :=
  "✗ " ++ path ++ " is not valid IR\n\n  " ++ code ++ ": " ++ f.kind ++ "\n"
    ++ (if f.path.isEmpty then "" else "  at " ++ f.path ++ "\n")
    ++ (if f.tag.isEmpty then "" else "  in " ++ f.tag ++ "\n")
    ++ "  " ++ f.message ++ "\n"

/-- The report of a fault. An invalid document is the result of a validation, so its finding is shown as
data. -/
def JobFault.report (r : Reporter) (f : JobFault) : String :=
  match f with
  | .invalid path failure =>
    let finding := failure.finding
    if r.isStructured then
      r.respond ⟨"error", .record [("valid", .bool false), ("issue", findingDatum finding)],
        some ⟨f.code, finding.message, none⟩⟩
    else invalidText path f.code finding
  | _ =>
    r.failure ⟨f.code, (Exit.mk 0 f.words f.reason?).text, f.finding?.map findingDetails⟩

end IrDialects.Command
