import IrDialects.V4.Incomplete
import IrDialects.V4.Pattern
import IrDialects.V4.TypeExpr

/-!
# Values in V4 documents

A value is a tagged node. A bare string is a reference if it is a qualified name and a variable
otherwise; an array is a value in the Classic form. A value definition is a plain object whose
arguments are keyed by name.
-/

namespace IrDialects.V4

abbrev V4Definition := ValueDefinition TypeAttrs ValueAttrs

/-- Bodies of value definitions of V4 documents. -/
abbrev V4Body := ValueBody TypeAttrs ValueAttrs

/-- The value that a bare string stands for. -/
def valueShorthand (s : String) : Decoded V4Value :=
  match FQName.parse? s with
  | some f => .ok (.reference {} f)
  | none =>
    let n := Name.parse s
    if n.isEmpty then .error (Complaint.namelessVariable s).issue else .ok (.variable {} n)

def decodeInput (key : String) (v : Json) : Decoded (Input TypeAttrs ValueAttrs) := do
  let n ← record "input type" v
  let a ← n.optional "type-attributes" {} decodeValueAttrs
  let t ← n.field "type" decodeType
  return ⟨Name.parse key, a, t⟩

/-- Reads a body with a tag of its own; `child` reads values. -/
def taggedBody (child : Json → Decoded V4Value) (v : Json) : Decoded V4Body := do
  let (tag, n) ← unwrap BodyTag.table BodyTag.name v
  match tag with
  | .expression => return .expression (← n.field "body" child)
  | .native => return .native (← n.field "info" decodeNativeInfo)
  | .external =>
    let s ← n.field "external-name" string
    let p ← n.field "target-platform" string
    return .external s p
  | .incomplete => return .incomplete (← n.field "incompleteness" decodeIncompleteness)

/-- Whether a value is an object with the tag of a body as its only key. -/
def hasBodyTag : Json → Bool
  | .object [(key, _)] => (BodyTag.table.find? key).isSome
  | _ => false

/-- Reads a body; `child` reads values. -/
def bodyNode (child : Json → Decoded V4Value) : Json → Decoded V4Body
  | .array items => Classic.decodeBody classicForm (.array items)
  | v => if hasBodyTag v then taggedBody child v else return .expression (← child v)

/-- Reads a value definition; `child` reads values. -/
def definitionNode (child : Json → Decoded V4Value) (v : Json) : Decoded V4Definition := do
  let n ← record "value definition" v
  let is ← n.field "input-types" (keyed decodeInput)
  let t ← n.field "output-type" decodeType
  let b ← n.field "body" (bodyNode child)
  return .mk is t b

/-- Reads a pair of a name and something else. -/
def namedPair {α : Type} (what : String) (decode : Json → Decoded α) (v : Json) :
    Decoded (Name × α) := do
  let (n, x) ← Shape.pair what v
  let n ← (decodeName n).underIndex 0
  let x ← (decode x).underIndex 1
  return (n, x)

/-- Reads a case of a match; `child` reads values. -/
def decodeCase (child : Json → Decoded V4Value) (v : Json) :
    Decoded (Pattern ValueAttrs × V4Value) := do
  let (p, b) ← Shape.pair "match case" v
  let p ← (decodePattern p).underIndex 0
  let b ← (child b).underIndex 1
  return (p, b)

/-- Reads the fields of a record keyed by name; `child` reads values. -/
def decodeEntries (child : Json → Decoded V4Value) : Json → Decoded (List (Name × V4Value)) :=
  keyed fun key v => return (Name.parse key, ← child v)

/-- Reads one tagged node of a value; `child` reads the values inside it. -/
def taggedValue (child : Json → Decoded V4Value) (v : Json) : Decoded V4Value := do
  let (tag, n) ← unwrap ValueTag.table ValueTag.name v
  -- The attribute comes first, so its faults are reported before those of the fields.
  let a ← n.optional "attrs" {} decodeValueAttrs
  match tag with
  | .literal => return .literal a (← n.field "literal" decodeLiteral)
  | .constructor => return .constructor a (← n.field "fqname" decodeFQName)
  | .tuple => return .tuple a (← n.field "elements" (list child))
  | .list => return .list a (← n.field "items" (list child))
  | .record => return .record a (← n.field "fields" (decodeEntries child))
  | .variable => return .variable a (← n.field "name" decodeName)
  | .reference => return .reference a (← n.field "fqname" decodeFQName)
  | .field =>
    let r ← n.field "value" child
    let x ← n.field "name" decodeName
    return .field a r x
  | .fieldFunction => return .fieldFunction a (← n.field "name" decodeName)
  | .apply =>
    let f ← n.field "function" child
    let x ← n.field "argument" child
    return .apply a f x
  | .lambda =>
    let p ← n.field "pattern" decodePattern
    let b ← n.field "body" child
    return .lambda a p b
  | .letDefinition =>
    let x ← n.field "name" decodeName
    let d ← n.field "definition" (definitionNode child)
    let b ← n.field "body" child
    return .letDefinition a x d b
  | .letRecursion =>
    let ds ← n.field "bindings" (list (namedPair "let binding" (definitionNode child)))
    let b ← n.field "body" child
    return .letRecursion a ds b
  | .destructure =>
    let p ← n.field "pattern" decodePattern
    let x ← n.field "value" child
    let b ← n.field "body" child
    return .destructure a p x b
  | .ifThenElse =>
    let x ← n.field "condition" child
    let t ← n.field "then-branch" child
    let e ← n.field "else-branch" child
    return .ifThenElse a x t e
  | .patternMatch =>
    let x ← n.field "subject" child
    let cs ← n.field "cases" (list (decodeCase child))
    return .patternMatch a x cs
  | .updateRecord =>
    let r ← n.field "record" child
    let us ← n.field "updates" (list (namedPair "record entry" child))
    return .updateRecord a r us
  | .unit => return .unit a
  | .hole =>
    let r ← n.field "reason" decodeHoleReason
    let t ← n.optional "tpe" none (fun v => return some (← decodeType v))
    return .hole a r t
  | .native =>
    let f ← n.field "fqname" decodeFQName
    let i ← n.field "info" decodeNativeInfo
    return .native a f i
  | .external =>
    let s ← n.field "external-name" string
    let p ← n.field "target-platform" string
    return .external a s p

/-- Reads one node of a value; `child` reads the values inside it. -/
def valueNode (child : Json → Decoded V4Value) : Json → Decoded V4Value
  | .array items => Classic.decodeValue classicForm (.array items)
  | .string s => valueShorthand s
  | v => taggedValue child v

/-- Reads a value that is nested less than `fuel` levels deep. -/
def valueAt : Nat → Json → Decoded V4Value
  | 0, _ => .error Complaint.tooDeep.issue
  | fuel + 1, v => valueNode (valueAt fuel) v

def decodeValue (v : Json) : Decoded V4Value := valueAt (v.depth + 1) v

def decodeBody (v : Json) : Decoded V4Body := bodyNode (valueAt (v.depth + 1)) v

def decodeDefinition (v : Json) : Decoded V4Definition := definitionNode (valueAt (v.depth + 1)) v

def encodeInput (m : Mode) (i : Input TypeAttrs ValueAttrs) : String × Json :=
  (i.name.kebab, .object (member m "type-attributes" (encodeValueAttrs i.attrs) i.attrs.isEmpty
    ++ [("type", encodeType m i.type)]))

mutual

def encodeValue (m : Mode) : V4Value → Json
  | .literal a l => wrapped "Literal" (("literal", encodeLiteral l) :: valueAttrMember m a)
  | .constructor a f => wrapped "Constructor" (("fqname", encodeFQName f) :: valueAttrMember m a)
  | .tuple a vs =>
    wrapped "Tuple" (("elements", .array (encodeValues m vs)) :: valueAttrMember m a)
  | .list a vs => wrapped "List" (("items", .array (encodeValues m vs)) :: valueAttrMember m a)
  | .record a fs =>
    wrapped "Record" (("fields", .object (encodeEntries m fs)) :: valueAttrMember m a)
  | .variable a n => wrapped "Variable" (("name", encodeName n) :: valueAttrMember m a)
  | .reference a f => wrapped "Reference" (("fqname", encodeFQName f) :: valueAttrMember m a)
  | .field a v n =>
    wrapped "Field" (("value", encodeValue m v) :: ("name", encodeName n) :: valueAttrMember m a)
  | .fieldFunction a n => wrapped "FieldFunction" (("name", encodeName n) :: valueAttrMember m a)
  | .apply a f x =>
    wrapped "Apply" (("function", encodeValue m f) :: ("argument", encodeValue m x) ::
      valueAttrMember m a)
  | .lambda a p b =>
    wrapped "Lambda" (("pattern", encodePattern m p) :: ("body", encodeValue m b) ::
      valueAttrMember m a)
  | .letDefinition a n d b =>
    wrapped "LetDefinition" (("name", encodeName n) :: ("definition", encodeDefinition m d) ::
      ("body", encodeValue m b) :: valueAttrMember m a)
  | .letRecursion a ds b =>
    wrapped "LetRecursion" (("bindings", .array (encodeBindings m ds)) ::
      ("body", encodeValue m b) :: valueAttrMember m a)
  | .destructure a p v b =>
    wrapped "Destructure" (("pattern", encodePattern m p) :: ("value", encodeValue m v) ::
      ("body", encodeValue m b) :: valueAttrMember m a)
  | .ifThenElse a x t e =>
    wrapped "IfThenElse" (("condition", encodeValue m x) :: ("then-branch", encodeValue m t) ::
      ("else-branch", encodeValue m e) :: valueAttrMember m a)
  | .patternMatch a v cs =>
    wrapped "PatternMatch" (("subject", encodeValue m v) ::
      ("cases", .array (encodeCases m cs)) :: valueAttrMember m a)
  | .updateRecord a v us =>
    wrapped "UpdateRecord" (("record", encodeValue m v) ::
      ("updates", .array (encodeUpdates m us)) :: valueAttrMember m a)
  | .unit a => wrapped "Unit" (valueAttrMember m a)
  | .hole a r t =>
    wrapped "Hole" (("reason", encodeHoleReason r) ::
      ((t.toList.map fun t => ("tpe", encodeType m t)) ++ valueAttrMember m a))
  | .native a f i =>
    wrapped "Native" (("fqname", encodeFQName f) :: ("info", encodeNativeInfo m i) ::
      valueAttrMember m a)
  | .external a s p =>
    wrapped "External" (("external-name", .string s) :: ("target-platform", .string p) ::
      valueAttrMember m a)

def encodeValues (m : Mode) : List V4Value → List Json
  | [] => []
  | v :: vs => encodeValue m v :: encodeValues m vs

def encodeEntries (m : Mode) : List (Name × V4Value) → Members
  | [] => []
  | (n, v) :: fs => (n.kebab, encodeValue m v) :: encodeEntries m fs

def encodeUpdates (m : Mode) : List (Name × V4Value) → List Json
  | [] => []
  | (n, v) :: us => .array [encodeName n, encodeValue m v] :: encodeUpdates m us

/-- Writes the cases of a match as pairs. -/
def encodeCases (m : Mode) : List (Pattern ValueAttrs × V4Value) → List Json
  | [] => []
  | (p, v) :: cs => .array [encodePattern m p, encodeValue m v] :: encodeCases m cs

def encodeDefinition (m : Mode) : V4Definition → Json
  | .mk is t b =>
    .object [("input-types", .object (is.map (encodeInput m))), ("output-type", encodeType m t),
      ("body", encodeBody m b)]

def encodeBindings (m : Mode) : List (Name × V4Definition) → List Json
  | [] => []
  | (n, d) :: ds => .array [encodeName n, encodeDefinition m d] :: encodeBindings m ds

def encodeBody (m : Mode) : V4Body → Json
  | .expression v => wrapped "ExpressionBody" [("body", encodeValue m v)]
  | .native i => wrapped "NativeBody" [("info", encodeNativeInfo m i)]
  | .external s p =>
    wrapped "ExternalBody" [("external-name", .string s), ("target-platform", .string p)]
  | .incomplete i => wrapped "IncompleteBody" [("incompleteness", encodeIncompleteness i)]

end

end IrDialects.V4
