import IrDialects.Classic.Incomplete
import IrDialects.Classic.Pattern
import IrDialects.Tree.Value

/-!
# Values in Classic documents

A value is a tagged array whose first field is the attribute; a value definition is an object. The
body of a definition is a bare value, or a tagged array for the other kinds of bodies.
-/

namespace IrDialects.Classic

/-- The attribute codecs of a kind of trees: one for type nodes, one for values and patterns. -/
structure Codec (τ ν : Type) where
  typeAttrs : AttrCodec τ
  valueAttrs : AttrCodec ν

variable {τ ν : Type}

def decodeInput (c : Codec τ ν) (v : Json) : Decoded (Input τ ν) := do
  match ← Shape.array "input type" v with
  | [n, a, t] =>
    let n ← (decodeName n).underIndex 0
    let a ← (c.valueAttrs.decode a).underIndex 1
    let t ← (decodeType c.typeAttrs t).underIndex 2
    return ⟨n, a, t⟩
  | vs => throw (Complaint.elementCount "input type" 3 vs.length).issue

/-- Reads a body with a tag of its own. -/
def taggedBody (child : Json → Decoded (Value τ ν)) (tag : BodyTag) (fields : List Json) :
    Decoded (ValueBody τ ν) := do
  match tag with
  | .expression =>
    let v ← Shape.one tag.name fields
    return .expression (← (child v).underIndex 1)
  | .native =>
    let i ← Shape.one tag.name fields
    return .native (← Shape.slot tag.name 1 (decodeNativeInfo i))
  | .external =>
    let (s, p) ← Shape.two tag.name fields
    let s ← Shape.slot tag.name 1 (Shape.string "external name" s)
    let p ← Shape.slot tag.name 2 (Shape.string "target platform" p)
    return .external s p
  | .incomplete =>
    let i ← Shape.one tag.name fields
    return .incomplete (← Shape.slot tag.name 1 (decodeIncompleteness i))

/-- The tag and the fields of an array that begins with the tag of a body. -/
def bodyTag? : Json → Option (BodyTag × List Json)
  | .array (.string s :: fields) => (BodyTag.table.find? s).map fun tag => (tag, fields)
  | _ => none

/-- Reads a body; `child` reads values. -/
def bodyNode (child : Json → Decoded (Value τ ν)) (v : Json) : Decoded (ValueBody τ ν) :=
  match bodyTag? v with
  | some (tag, fields) => taggedBody child tag fields
  | none => return .expression (← child v)

/-- Reads a value definition; `child` reads values. -/
def definitionNode (c : Codec τ ν) (child : Json → Decoded (Value τ ν)) (v : Json) :
    Decoded (ValueDefinition τ ν) := do
  let obj ← Shape.object "value definition" v
  let is ← Shape.member "value definition" "inputTypes" obj
  let is ← (Shape.list "input types" (decodeInput c) is).under "inputTypes"
  let t ← Shape.member "value definition" "outputType" obj
  let t ← (decodeType c.typeAttrs t).under "outputType"
  let b ← Shape.member "value definition" "body" obj
  let b ← (bodyNode child b).under "body"
  return .mk is t b

/-- Reads a pair of a name and something else. -/
def namedPair {α : Type} (what : String) (decode : Json → Decoded α) (v : Json) :
    Decoded (Name × α) := do
  let (n, x) ← Shape.pair what v
  let n ← (decodeName n).underIndex 0
  let x ← (decode x).underIndex 1
  return (n, x)

/-- Reads a case of a match; `child` reads values. -/
def decodeCase (c : Codec τ ν) (child : Json → Decoded (Value τ ν)) (v : Json) :
    Decoded (Pattern ν × Value τ ν) := do
  let (p, b) ← Shape.pair "match case" v
  let p ← (decodePattern c.valueAttrs p).underIndex 0
  let b ← (child b).underIndex 1
  return (p, b)

/-- Reads one node of a value; `child` reads the values inside it. -/
def valueNode (c : Codec τ ν) (child : Json → Decoded (Value τ ν)) (v : Json) :
    Decoded (Value τ ν) := do
  let (tag, fields) ← Shape.tagged ValueTag.table v
  match tag with
  | .literal =>
    let (a, l) ← Shape.two tag.name fields
    let a ← Shape.slot tag.name 1 (c.valueAttrs.decode a)
    let l ← Shape.slot tag.name 2 (decodeLiteral l)
    return .literal a l
  | .constructor =>
    let (a, f) ← Shape.two tag.name fields
    let a ← Shape.slot tag.name 1 (c.valueAttrs.decode a)
    let f ← Shape.slot tag.name 2 (decodeFQName f)
    return .constructor a f
  | .tuple =>
    let (a, vs) ← Shape.two tag.name fields
    let a ← Shape.slot tag.name 1 (c.valueAttrs.decode a)
    let vs ← Shape.slot tag.name 2 (Shape.list "tuple elements" child vs)
    return .tuple a vs
  | .list =>
    let (a, vs) ← Shape.two tag.name fields
    let a ← Shape.slot tag.name 1 (c.valueAttrs.decode a)
    let vs ← Shape.slot tag.name 2 (Shape.list "list items" child vs)
    return .list a vs
  | .record =>
    let (a, fs) ← Shape.two tag.name fields
    let a ← Shape.slot tag.name 1 (c.valueAttrs.decode a)
    let fs ← Shape.slot tag.name 2
      (Shape.list "record fields" (namedPair "record entry" child) fs)
    return .record a fs
  | .variable =>
    let (a, n) ← Shape.two tag.name fields
    let a ← Shape.slot tag.name 1 (c.valueAttrs.decode a)
    let n ← Shape.slot tag.name 2 (decodeName n)
    return .variable a n
  | .reference =>
    let (a, f) ← Shape.two tag.name fields
    let a ← Shape.slot tag.name 1 (c.valueAttrs.decode a)
    let f ← Shape.slot tag.name 2 (decodeFQName f)
    return .reference a f
  | .field =>
    let (a, r, n) ← Shape.three tag.name fields
    let a ← Shape.slot tag.name 1 (c.valueAttrs.decode a)
    let r ← Shape.slot tag.name 2 (child r)
    let n ← Shape.slot tag.name 3 (decodeName n)
    return .field a r n
  | .fieldFunction =>
    let (a, n) ← Shape.two tag.name fields
    let a ← Shape.slot tag.name 1 (c.valueAttrs.decode a)
    let n ← Shape.slot tag.name 2 (decodeName n)
    return .fieldFunction a n
  | .apply =>
    let (a, f, x) ← Shape.three tag.name fields
    let a ← Shape.slot tag.name 1 (c.valueAttrs.decode a)
    let f ← Shape.slot tag.name 2 (child f)
    let x ← Shape.slot tag.name 3 (child x)
    return .apply a f x
  | .lambda =>
    let (a, p, b) ← Shape.three tag.name fields
    let a ← Shape.slot tag.name 1 (c.valueAttrs.decode a)
    let p ← Shape.slot tag.name 2 (decodePattern c.valueAttrs p)
    let b ← Shape.slot tag.name 3 (child b)
    return .lambda a p b
  | .letDefinition =>
    let (a, n, d, b) ← Shape.four tag.name fields
    let a ← Shape.slot tag.name 1 (c.valueAttrs.decode a)
    let n ← Shape.slot tag.name 2 (decodeName n)
    let d ← Shape.slot tag.name 3 (definitionNode c child d)
    let b ← Shape.slot tag.name 4 (child b)
    return .letDefinition a n d b
  | .letRecursion =>
    let (a, ds, b) ← Shape.three tag.name fields
    let a ← Shape.slot tag.name 1 (c.valueAttrs.decode a)
    let ds ← Shape.slot tag.name 2
      (Shape.list "let bindings" (namedPair "let binding" (definitionNode c child)) ds)
    let b ← Shape.slot tag.name 3 (child b)
    return .letRecursion a ds b
  | .destructure =>
    let (a, p, x, b) ← Shape.four tag.name fields
    let a ← Shape.slot tag.name 1 (c.valueAttrs.decode a)
    let p ← Shape.slot tag.name 2 (decodePattern c.valueAttrs p)
    let x ← Shape.slot tag.name 3 (child x)
    let b ← Shape.slot tag.name 4 (child b)
    return .destructure a p x b
  | .ifThenElse =>
    let (a, x, t, e) ← Shape.four tag.name fields
    let a ← Shape.slot tag.name 1 (c.valueAttrs.decode a)
    let x ← Shape.slot tag.name 2 (child x)
    let t ← Shape.slot tag.name 3 (child t)
    let e ← Shape.slot tag.name 4 (child e)
    return .ifThenElse a x t e
  | .patternMatch =>
    let (a, x, cs) ← Shape.three tag.name fields
    let a ← Shape.slot tag.name 1 (c.valueAttrs.decode a)
    let x ← Shape.slot tag.name 2 (child x)
    let cs ← Shape.slot tag.name 3 (Shape.list "match cases" (decodeCase c child) cs)
    return .patternMatch a x cs
  | .updateRecord =>
    let (a, r, us) ← Shape.three tag.name fields
    let a ← Shape.slot tag.name 1 (c.valueAttrs.decode a)
    let r ← Shape.slot tag.name 2 (child r)
    let us ← Shape.slot tag.name 3
      (Shape.list "record updates" (namedPair "record entry" child) us)
    return .updateRecord a r us
  | .unit =>
    let a ← Shape.one tag.name fields
    let a ← Shape.slot tag.name 1 (c.valueAttrs.decode a)
    return .unit a
  | .hole =>
    let (a, r, t) ← Shape.three tag.name fields
    let a ← Shape.slot tag.name 1 (c.valueAttrs.decode a)
    let r ← Shape.slot tag.name 2 (decodeHoleReason r)
    let t ← Shape.slot tag.name 3 (decodeOptionalType c.typeAttrs t)
    return .hole a r t
  | .native =>
    let (a, f, i) ← Shape.three tag.name fields
    let a ← Shape.slot tag.name 1 (c.valueAttrs.decode a)
    let f ← Shape.slot tag.name 2 (decodeFQName f)
    let i ← Shape.slot tag.name 3 (decodeNativeInfo i)
    return .native a f i
  | .external =>
    let (a, s, p) ← Shape.three tag.name fields
    let a ← Shape.slot tag.name 1 (c.valueAttrs.decode a)
    let s ← Shape.slot tag.name 2 (Shape.string "external name" s)
    let p ← Shape.slot tag.name 3 (Shape.string "target platform" p)
    return .external a s p

/-- Reads a value that is nested less than `fuel` levels deep. -/
def valueAt (c : Codec τ ν) : Nat → Json → Decoded (Value τ ν)
  | 0, _ => .error Complaint.tooDeep.issue
  | fuel + 1, v => valueNode c (valueAt c fuel) v

def decodeValue (c : Codec τ ν) (v : Json) : Decoded (Value τ ν) := valueAt c (v.depth + 1) v

def decodeBody (c : Codec τ ν) (v : Json) : Decoded (ValueBody τ ν) :=
  bodyNode (valueAt c (v.depth + 1)) v

def decodeDefinition (c : Codec τ ν) (v : Json) : Decoded (ValueDefinition τ ν) :=
  definitionNode c (valueAt c (v.depth + 1)) v

def encodeInput (c : Codec τ ν) (i : Input τ ν) : Json :=
  .array [encodeName i.name, c.valueAttrs.encode i.attrs, encodeType c.typeAttrs i.type]

mutual

def encodeValue (c : Codec τ ν) : Value τ ν → Json
  | .literal a l => .array [.string "Literal", c.valueAttrs.encode a, encodeLiteral l]
  | .constructor a f => .array [.string "Constructor", c.valueAttrs.encode a, encodeFQName f]
  | .tuple a vs => .array [.string "Tuple", c.valueAttrs.encode a, .array (encodeValues c vs)]
  | .list a vs => .array [.string "List", c.valueAttrs.encode a, .array (encodeValues c vs)]
  | .record a fs => .array [.string "Record", c.valueAttrs.encode a, .array (encodeEntries c fs)]
  | .variable a n => .array [.string "Variable", c.valueAttrs.encode a, encodeName n]
  | .reference a f => .array [.string "Reference", c.valueAttrs.encode a, encodeFQName f]
  | .field a v n => .array [.string "Field", c.valueAttrs.encode a, encodeValue c v, encodeName n]
  | .fieldFunction a n => .array [.string "FieldFunction", c.valueAttrs.encode a, encodeName n]
  | .apply a f x =>
    .array [.string "Apply", c.valueAttrs.encode a, encodeValue c f, encodeValue c x]
  | .lambda a p b =>
    .array [.string "Lambda", c.valueAttrs.encode a, encodePattern c.valueAttrs p, encodeValue c b]
  | .letDefinition a n d b =>
    .array [.string "LetDefinition", c.valueAttrs.encode a, encodeName n, encodeDefinition c d,
      encodeValue c b]
  | .letRecursion a ds b =>
    .array [.string "LetRecursion", c.valueAttrs.encode a, .array (encodeBindings c ds),
      encodeValue c b]
  | .destructure a p v b =>
    .array [.string "Destructure", c.valueAttrs.encode a, encodePattern c.valueAttrs p,
      encodeValue c v, encodeValue c b]
  | .ifThenElse a x t e =>
    .array [.string "IfThenElse", c.valueAttrs.encode a, encodeValue c x, encodeValue c t,
      encodeValue c e]
  | .patternMatch a v cs =>
    .array [.string "PatternMatch", c.valueAttrs.encode a, encodeValue c v,
      .array (encodeCases c cs)]
  | .updateRecord a v us =>
    .array [.string "UpdateRecord", c.valueAttrs.encode a, encodeValue c v,
      .array (encodeEntries c us)]
  | .unit a => .array [.string "Unit", c.valueAttrs.encode a]
  | .hole a r t =>
    .array [.string "Hole", c.valueAttrs.encode a, encodeHoleReason r,
      encodeOptionalType c.typeAttrs t]
  | .native a f i =>
    .array [.string "Native", c.valueAttrs.encode a, encodeFQName f, encodeNativeInfo i]
  | .external a s p => .array [.string "External", c.valueAttrs.encode a, .string s, .string p]

def encodeValues (c : Codec τ ν) : List (Value τ ν) → List Json
  | [] => []
  | v :: vs => encodeValue c v :: encodeValues c vs

def encodeEntries (c : Codec τ ν) : List (Name × Value τ ν) → List Json
  | [] => []
  | (n, v) :: fs => .array [encodeName n, encodeValue c v] :: encodeEntries c fs

/-- Writes the cases of a match as pairs. -/
def encodeCases (c : Codec τ ν) : List (Pattern ν × Value τ ν) → List Json
  | [] => []
  | (p, v) :: cs =>
    .array [encodePattern c.valueAttrs p, encodeValue c v] :: encodeCases c cs

def encodeDefinition (c : Codec τ ν) : ValueDefinition τ ν → Json
  | .mk is t b =>
    .object [("inputTypes", .array (is.map (encodeInput c))),
      ("outputType", encodeType c.typeAttrs t), ("body", encodeBody c b)]

def encodeBindings (c : Codec τ ν) : List (Name × ValueDefinition τ ν) → List Json
  | [] => []
  | (n, d) :: ds => .array [encodeName n, encodeDefinition c d] :: encodeBindings c ds

def encodeBody (c : Codec τ ν) : ValueBody τ ν → Json
  | .expression v => encodeValue c v
  | .native i => .array [.string "NativeBody", encodeNativeInfo i]
  | .external s p => .array [.string "ExternalBody", .string s, .string p]
  | .incomplete i => .array [.string "IncompleteBody", encodeIncompleteness i]

end

end IrDialects.Classic
