import IrDialects.Document.AnyDocument
import IrDialects.Traverse.Stats

/-!
# Summaries and migration
-/

namespace IrDialects

/-- What a report says about a document. -/
structure Summary where
  dialect : Dialect
  version : FormatVersion
  kind : String
  package : String
  dependencies : Nat
  stats : Stats
  fingerprint : String

/-- What a document is migrated to. -/
structure Target where
  dialect : Dialect
  mode : V4.Mode
deriving DecidableEq, Repr

/-- The outcome of a migration. -/
structure Migration where
  source : Dialect
  target : Dialect
  document : AnyDocument
  output : String

/-- Whether the dialect changed. -/
def Migration.converted (m : Migration) : Bool := m.source != m.target

namespace AnyDocument

/-- The counts of a document, over its own tree. -/
def stats : AnyDocument → Stats
  | classic d => .ofDocument d
  | v4 d => .ofDocument d

def inspect (doc : AnyDocument) : Except Failure Summary := do
  let fingerprint ← doc.fingerprint
  return {
    dialect := doc.dialect
    version := doc.version
    kind := doc.kindName
    package := doc.package.text
    dependencies := doc.dependencyCount
    stats := doc.stats
    fingerprint := fingerprint }

end AnyDocument

/-- Reads a document and writes it in another dialect, or in the canonical shape of its own. -/
def migrate (bytes : List UInt8) (target : Dialect) (mode : V4.Mode) : Except Failure Migration := do
  let doc ← AnyDocument.decode bytes
  let output ← doc.encode target mode
  return ⟨doc.dialect, target, doc, output⟩

/-- Reads a document and writes it in the dialect with the given name. -/
def migrateTo (bytes : List UInt8) (target : String) (mode : V4.Mode) : Except Failure Migration := do
  match Dialect.ofName? target with
  | some d => migrate bytes d mode
  | none =>
    let _ ← AnyDocument.decode bytes
    throw (.unsupported target)

end IrDialects
