import IrDialects.V4.Attributes
import IrDialects.V4.Literal
import IrDialects.V4.Naming

/-!
# Patterns in V4 documents
-/

namespace IrDialects.V4

/-- Reads one tagged node of a pattern; `child` reads the patterns inside it. -/
def taggedPattern (child : Json → Decoded (Pattern ValueAttrs)) (v : Json) :
    Decoded (Pattern ValueAttrs) := do
  let (tag, n) ← unwrap PatternTag.table PatternTag.name v
  let a ← n.optional "attrs" {} decodeValueAttrs
  match tag with
  | .wildcard => return .wildcard a
  | .as =>
    let p ← n.field "pattern" child
    let x ← n.field "name" decodeName
    return .as a p x
  | .tuple => return .tuple a (← n.field "elements" (list child))
  | .constructor =>
    let f ← n.field "fqname" decodeFQName
    let ps ← n.optional "args" [] (list child)
    return .constructor a f ps
  | .emptyList => return .emptyList a
  | .headTail =>
    let h ← n.field "head" child
    let t ← n.field "tail" child
    return .headTail a h t
  | .literal => return .literal a (← n.field "literal" decodeLiteral)
  | .unit => return .unit a

/-- Reads one node of a pattern; `child` reads the patterns inside it. -/
def patternNode (child : Json → Decoded (Pattern ValueAttrs)) : Json → Decoded (Pattern ValueAttrs)
  | .array items => Classic.decodePattern classicForm.valueAttrs (.array items)
  | v => taggedPattern child v

/-- Reads a pattern that is nested less than `fuel` levels deep. -/
def patternAt : Nat → Json → Decoded (Pattern ValueAttrs)
  | 0, _ => .error Complaint.tooDeep.issue
  | fuel + 1, v => patternNode (patternAt fuel) v

def decodePattern (v : Json) : Decoded (Pattern ValueAttrs) := patternAt (v.depth + 1) v

mutual

def encodePattern (m : Mode) : Pattern ValueAttrs → Json
  | .wildcard a => wrapped "WildcardPattern" (valueAttrMember m a)
  | .as a p n =>
    wrapped "AsPattern" (("pattern", encodePattern m p) :: ("name", encodeName n) ::
      valueAttrMember m a)
  | .tuple a ps =>
    wrapped "TuplePattern" (("elements", .array (encodePatterns m ps)) :: valueAttrMember m a)
  | .constructor a f ps =>
    wrapped "ConstructorPattern" (("fqname", encodeFQName f) ::
      (member m "args" (.array (encodePatterns m ps)) ps.isEmpty ++ valueAttrMember m a))
  | .emptyList a => wrapped "EmptyListPattern" (valueAttrMember m a)
  | .headTail a h t =>
    wrapped "HeadTailPattern" (("head", encodePattern m h) :: ("tail", encodePattern m t) ::
      valueAttrMember m a)
  | .literal a l => wrapped "LiteralPattern" (("literal", encodeLiteral l) :: valueAttrMember m a)
  | .unit a => wrapped "UnitPattern" (valueAttrMember m a)

def encodePatterns (m : Mode) : List (Pattern ValueAttrs) → List Json
  | [] => []
  | p :: ps => encodePattern m p :: encodePatterns m ps

end

end IrDialects.V4
