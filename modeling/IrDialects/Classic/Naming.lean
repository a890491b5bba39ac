import IrDialects.Naming.FQName
import IrDialects.Wire.Sequence

/-!
# Names in Classic documents

A name is the array of its words, a path the array of its names, and a qualified name the array of
package, module and local name.
-/

namespace IrDialects.Classic

def decodeName (v : Json) : Decoded Name := do
  return ⟨← Shape.list "name" (Shape.string "name word") v⟩

def encodeName (n : Name) : Json := .array (n.words.map .string)

def decodePath (v : Json) : Decoded Path := do
  return ⟨← Shape.list "path" decodeName v⟩

def encodePath (p : Path) : Json := .array (p.names.map encodeName)

def decodeFQName (v : Json) : Decoded FQName := do
  match ← Shape.array "fully qualified name" v with
  | [pkg, mod, loc] =>
    let pkg ← (decodePath pkg).underIndex 0
    let mod ← (decodePath mod).underIndex 1
    let loc ← (decodeName loc).underIndex 2
    return ⟨pkg, mod, loc⟩
  | vs => throw (Complaint.partCount vs.length).issue

def encodeFQName (f : FQName) : Json :=
  .array [encodePath f.packagePath, encodePath f.modulePath, encodeName f.localName]

/-- Reads a list of names, described by `what`. -/
def decodeNames (what : String) (v : Json) : Decoded (List Name) := Shape.list what decodeName v

def encodeNames (ns : List Name) : Json := .array (ns.map encodeName)

end IrDialects.Classic
