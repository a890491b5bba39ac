import IrDialects.Hash.Sha256
import IrDialects.Json.Writer

/-!
# Digests of values

The digest of a value covers a domain and the canonical text, with a zero byte between them, so that
no domain runs into the text.
-/

namespace IrDialects.Json

/-- The bytes that a digest covers. -/
def digestInput (domain : String) (v : Json) : Except WriteFault (List UInt8) :=
  (canonical v).map fun text => Text.Bytes.encode domain ++ 0 :: Text.Bytes.encode text

/-- The digest of a value within a domain, in base sixteen. -/
def digest (domain : String) (v : Json) : Except WriteFault String :=
  (digestInput domain v).map fun bytes => Text.Bytes.toHex (Hash.Sha256.digest bytes)

end IrDialects.Json
