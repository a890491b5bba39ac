import IrDialects.Classic.Literal
import IrDialects.V4.Node

/-!
# Literals in V4 documents
-/

namespace IrDialects.V4

def decodeLiteral : Json → Decoded Literal
  | .array items => Classic.decodeLiteral (.array items)
  | v => do
    let (tag, n) ← unwrap LiteralTag.table LiteralTag.name v
    n.field "value" (Classic.decodePayload tag)

def encodeLiteral (l : Literal) : Json :=
  wrapped (Classic.literalTag l).name [("value", Classic.encodePayload l)]

end IrDialects.V4
