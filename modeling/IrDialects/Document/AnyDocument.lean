import IrDialects.Document.Conversion
import IrDialects.Document.Detection
import IrDialects.Document.Failure
import IrDialects.Json.Digest
import IrDialects.V4.Document

/-!
# Documents of either dialect

Reading a text in whatever dialect it is written, writing a document in a chosen dialect, and the
fingerprint, which depends on the contents only: neither on the dialect nor on the version nor on
attributes.
-/

namespace IrDialects

/-- A document in the dialect in which it was read. -/
inductive AnyDocument where
  | classic (document : ClassicDocument)
  | v4 (document : V4Document)

namespace AnyDocument

def dialect : AnyDocument → Dialect
  | classic _ => .classic
  | v4 _ => .v4

def version : AnyDocument → FormatVersion
  | classic d => d.version
  | v4 d => d.version

def package : AnyDocument → Path
  | classic d => d.distribution.package
  | v4 d => d.distribution.package

def kindName : AnyDocument → String
  | classic d => d.distribution.kindName
  | v4 d => d.distribution.kindName

/-- How many packages the distribution depends on. -/
def dependencyCount : AnyDocument → Nat
  | classic d => d.distribution.dependencies.length
  | v4 d => d.distribution.dependencies.length

def toClassic : AnyDocument → ClassicDocument
  | classic d => d
  | v4 d => Convert.toClassic d

def toV4 : AnyDocument → V4Document
  | classic d => Convert.toV4 d
  | v4 d => d

def withVersion (version : FormatVersion) : AnyDocument → AnyDocument
  | classic d => classic { d with version := version }
  | v4 d => v4 { d with version := version }

/-- Reads a document from a JSON value, in the given dialect. -/
def decodeIn : Dialect → Json → Decoded AnyDocument
  | .classic, j => classic <$> Classic.decodeDocument Classic.codec j
  | .v4, j => v4 <$> V4.decodeDocument j

def decodeJson (j : Json) : Except Failure AnyDocument :=
  match Dialect.detect j with
  | .error e => .error (.detect (.issue e))
  | .ok d => (decodeIn d j).mapError fun e => .decode d (.issue e)

def decode (bytes : List UInt8) : Except Failure AnyDocument :=
  match Json.parseBytes bytes with
  | .error e => .error (.detect (.plain e.message))
  | .ok j => decodeJson j

/-- The document as a JSON value in a dialect; the mode matters to V4 only. -/
def encodeJson (doc : AnyDocument) (mode : V4.Mode) : Dialect → Json
  | .classic => Classic.encodeDocument Classic.codec doc.toClassic
  | .v4 => V4.encodeDocument mode doc.toV4

def encode (doc : AnyDocument) (target : Dialect) (mode : V4.Mode) : Except Failure String :=
  (Json.marshal (doc.encodeJson mode target)).mapError fun e =>
    .encode (some target) (.plain e.message)

/-- Writes a document in the dialect with the given name. -/
def encodeAs (doc : AnyDocument) (target : String) (mode : V4.Mode) : Except Failure String :=
  match Dialect.ofName? target with
  | some d => doc.encode d mode
  | none => .error (.unsupported target)

def fingerprintDomain : String := "morphir-ir/distribution/v1"

/-- The Classic tree without attributes and with a fixed version. -/
def bare (doc : AnyDocument) : ClassicDocument :=
  { doc.toClassic.mapAttrs (fun _ => {}) (fun _ => {}) with version := .defaultClassic }

def fingerprint (doc : AnyDocument) : Except Failure String :=
  (Json.digest fingerprintDomain (Classic.encodeDocument Classic.codec doc.bare)).mapError fun e =>
    .encode none (.wrapped "digest" (.plain e.message))

end AnyDocument

end IrDialects
