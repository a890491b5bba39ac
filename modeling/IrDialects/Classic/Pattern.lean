import IrDialects.Classic.Literal
import IrDialects.Classic.TypeExpr
import IrDialects.Tree.Pattern

/-!
# Patterns in Classic documents
-/

namespace IrDialects.Classic

variable {ν : Type}

/-- Reads one node of a pattern; `child` reads the patterns inside it. -/
def patternNode (c : AttrCodec ν) (child : Json → Decoded (Pattern ν)) (v : Json) :
    Decoded (Pattern ν) := do
  let (tag, fields) ← Shape.tagged PatternTag.table v
  match tag with
  | .wildcard =>
    let a ← Shape.one tag.name fields
    let a ← Shape.slot tag.name 1 (c.decode a)
    return .wildcard a
  | .as =>
    let (a, p, n) ← Shape.three tag.name fields
    let a ← Shape.slot tag.name 1 (c.decode a)
    let p ← Shape.slot tag.name 2 (child p)
    let n ← Shape.slot tag.name 3 (decodeName n)
    return .as a p n
  | .tuple =>
    let (a, ps) ← Shape.two tag.name fields
    let a ← Shape.slot tag.name 1 (c.decode a)
    let ps ← Shape.slot tag.name 2 (Shape.list "tuple pattern elements" child ps)
    return .tuple a ps
  | .constructor =>
    let (a, f, ps) ← Shape.three tag.name fields
    let a ← Shape.slot tag.name 1 (c.decode a)
    let f ← Shape.slot tag.name 2 (decodeFQName f)
    let ps ← Shape.slot tag.name 3 (Shape.list "constructor pattern arguments" child ps)
    return .constructor a f ps
  | .emptyList =>
    let a ← Shape.one tag.name fields
    let a ← Shape.slot tag.name 1 (c.decode a)
    return .emptyList a
  | .headTail =>
    let (a, h, t) ← Shape.three tag.name fields
    let a ← Shape.slot tag.name 1 (c.decode a)
    let h ← Shape.slot tag.name 2 (child h)
    let t ← Shape.slot tag.name 3 (child t)
    return .headTail a h t
  | .literal =>
    let (a, l) ← Shape.two tag.name fields
    let a ← Shape.slot tag.name 1 (c.decode a)
    let l ← Shape.slot tag.name 2 (decodeLiteral l)
    return .literal a l
  | .unit =>
    let a ← Shape.one tag.name fields
    let a ← Shape.slot tag.name 1 (c.decode a)
    return .unit a

/-- Reads a pattern that is nested less than `fuel` levels deep. -/
def patternAt (c : AttrCodec ν) : Nat → Json → Decoded (Pattern ν)
  | 0, _ => .error Complaint.tooDeep.issue
  | fuel + 1, v => patternNode c (patternAt c fuel) v

def decodePattern (c : AttrCodec ν) (v : Json) : Decoded (Pattern ν) := patternAt c (v.depth + 1) v

mutual

def encodePattern (c : AttrCodec ν) : Pattern ν → Json
  | .wildcard a => .array [.string "WildcardPattern", c.encode a]
  | .as a p n => .array [.string "AsPattern", c.encode a, encodePattern c p, encodeName n]
  | .tuple a ps => .array [.string "TuplePattern", c.encode a, .array (encodePatterns c ps)]
  | .constructor a f ps =>
    .array [.string "ConstructorPattern", c.encode a, encodeFQName f, .array (encodePatterns c ps)]
  | .emptyList a => .array [.string "EmptyListPattern", c.encode a]
  | .headTail a h t =>
    .array [.string "HeadTailPattern", c.encode a, encodePattern c h, encodePattern c t]
  | .literal a l => .array [.string "LiteralPattern", c.encode a, encodeLiteral l]
  | .unit a => .array [.string "UnitPattern", c.encode a]

def encodePatterns (c : AttrCodec ν) : List (Pattern ν) → List Json
  | [] => []
  | p :: ps => encodePattern c p :: encodePatterns c ps

end

end IrDialects.Classic
