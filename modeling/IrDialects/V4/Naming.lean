import IrDialects.Classic.Naming
import IrDialects.V4.Node

/-!
# Names in V4 documents

Names, paths and qualified names are strings; the Classic arrays are read too.
-/

namespace IrDialects.V4

def decodeName : Json → Decoded Name
  | .string s => .ok (Name.parse s)
  | .array items => Classic.decodeName (.array items)
  | v => .error (Complaint.expected "string" "name" v.kind).issue

def encodeName (n : Name) : Json := .string n.kebab

def decodePath : Json → Decoded Path
  | .string s => .ok (Path.parse s)
  | .array items => Classic.decodePath (.array items)
  | v => .error (Complaint.expected "string" "path" v.kind).issue

def encodePath (p : Path) : Json := .string p.text

def decodeFQName : Json → Decoded FQName
  | .string s =>
    match FQName.parse? s with
    | some f => .ok f
    | none => .error (Complaint.badQualifiedName s).issue
  | .array items => Classic.decodeFQName (.array items)
  | v => .error (Complaint.expected "string" "fully qualified name" v.kind).issue

def encodeFQName (f : FQName) : Json := .string f.hashText

end IrDialects.V4
