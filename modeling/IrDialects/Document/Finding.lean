import IrDialects.Document.Failure

/-!
# Findings

What a report says about a document that could not be read.
-/

namespace IrDialects

/-- Why and where a document could not be read. -/
structure Finding where
  kind : String
  /-- The place as a JSON pointer, empty for the root or if the text is no JSON. -/
  path : String
  tag : String
  message : String
deriving DecidableEq, Repr

/-- The kind of findings about texts that are no JSON. -/
def Finding.invalidJson : String := "INVALID_JSON"

def Finding.ofFault (f : Fault) : Finding :=
  match f.issue? with
  | some e => ⟨e.kind.code, e.pointer, e.tag, e.complaint.text⟩
  | none => ⟨invalidJson, "", "", f.message⟩

def Failure.finding (f : Failure) : Finding := .ofFault (f.cause?.getD (.plain f.message))

end IrDialects
