import IrDialects.Classic.Naming
import IrDialects.Tree.TypeExpr

/-!
# Types in Classic documents

A type is a tagged array whose first field is the attribute. The codec of attributes is a parameter,
so that trees with other attributes can be written in the same form.
-/

namespace IrDialects.Classic

/-- How one kind of attributes is read and written. -/
structure AttrCodec (α : Type) where
  decode : Json → Decoded α
  encode : α → Json

variable {τ : Type}

/-- The key of an object that holds the type of a field. -/
def fieldTypeKey? (members : Members) : Option (String × Json) :=
  ["tpe", "ty", "type"].findSome? fun k => (Json.get? members k).map fun v => (k, v)

/-- Reads a named type, written as a pair or as an object; `child` reads the type. -/
def decodeField (child : Json → Decoded (TypeExpr τ)) : Json → Decoded (Name × TypeExpr τ)
  | .array items => do
    let (n, t) ← Shape.pair "record field" (.array items)
    let n ← (decodeName n).underIndex 0
    let t ← (child t).underIndex 1
    return (n, t)
  | .object members => do
    let n ← Shape.member "record field" "name" members
    match fieldTypeKey? members with
    | none => throw (Complaint.missingField "record field" "tpe").issue
    | some (key, t) =>
      let n ← (decodeName n).under "name"
      let t ← (child t).under key
      return (n, t)
  | v => .error (Complaint.expected "array" "record field" v.kind).issue

/-- Reads one node of a type; `child` reads the types inside it. -/
def typeNode (c : AttrCodec τ) (child : Json → Decoded (TypeExpr τ)) (v : Json) :
    Decoded (TypeExpr τ) := do
  let (tag, fields) ← Shape.tagged TypeTag.table v
  match tag with
  | .variable =>
    let (a, n) ← Shape.two tag.name fields
    let a ← Shape.slot tag.name 1 (c.decode a)
    let n ← Shape.slot tag.name 2 (decodeName n)
    return .variable a n
  | .reference =>
    let (a, f, ts) ← Shape.three tag.name fields
    let a ← Shape.slot tag.name 1 (c.decode a)
    let f ← Shape.slot tag.name 2 (decodeFQName f)
    let ts ← Shape.slot tag.name 3 (Shape.list "type arguments" child ts)
    return .reference a f ts
  | .tuple =>
    let (a, ts) ← Shape.two tag.name fields
    let a ← Shape.slot tag.name 1 (c.decode a)
    let ts ← Shape.slot tag.name 2 (Shape.list "tuple elements" child ts)
    return .tuple a ts
  | .record =>
    let (a, fs) ← Shape.two tag.name fields
    let a ← Shape.slot tag.name 1 (c.decode a)
    let fs ← Shape.slot tag.name 2 (Shape.list "record fields" (decodeField child) fs)
    return .record a fs
  | .extensibleRecord =>
    let (a, n, fs) ← Shape.three tag.name fields
    let a ← Shape.slot tag.name 1 (c.decode a)
    let n ← Shape.slot tag.name 2 (decodeName n)
    let fs ← Shape.slot tag.name 3 (Shape.list "record fields" (decodeField child) fs)
    return .extensibleRecord a n fs
  | .function =>
    let (a, x, y) ← Shape.three tag.name fields
    let a ← Shape.slot tag.name 1 (c.decode a)
    let x ← Shape.slot tag.name 2 (child x)
    let y ← Shape.slot tag.name 3 (child y)
    return .function a x y
  | .unit =>
    let a ← Shape.one tag.name fields
    let a ← Shape.slot tag.name 1 (c.decode a)
    return .unit a

/-- Reads a type that is nested less than `fuel` levels deep. -/
def typeAt (c : AttrCodec τ) : Nat → Json → Decoded (TypeExpr τ)
  | 0, _ => .error Complaint.tooDeep.issue
  | fuel + 1, v => typeNode c (typeAt c fuel) v

def decodeType (c : AttrCodec τ) (v : Json) : Decoded (TypeExpr τ) := typeAt c (v.depth + 1) v

/-- Reads a type, or `none` from `null`. -/
def decodeOptionalType (c : AttrCodec τ) : Json → Decoded (Option (TypeExpr τ))
  | .null => .ok none
  | v => return some (← decodeType c v)

mutual

def encodeType (c : AttrCodec τ) : TypeExpr τ → Json
  | .variable a n => .array [.string "Variable", c.encode a, encodeName n]
  | .reference a f ts =>
    .array [.string "Reference", c.encode a, encodeFQName f, .array (encodeTypes c ts)]
  | .tuple a ts => .array [.string "Tuple", c.encode a, .array (encodeTypes c ts)]
  | .record a fs => .array [.string "Record", c.encode a, .array (encodeFields c fs)]
  | .extensibleRecord a n fs =>
    .array [.string "ExtensibleRecord", c.encode a, encodeName n, .array (encodeFields c fs)]
  | .function a x y => .array [.string "Function", c.encode a, encodeType c x, encodeType c y]
  | .unit a => .array [.string "Unit", c.encode a]

def encodeTypes (c : AttrCodec τ) : List (TypeExpr τ) → List Json
  | [] => []
  | t :: ts => encodeType c t :: encodeTypes c ts

def encodeFields (c : AttrCodec τ) : List (Name × TypeExpr τ) → List Json
  | [] => []
  | (n, t) :: fs => .array [encodeName n, encodeType c t] :: encodeFields c fs

end

/-- Writes a type, or `null` for none. -/
def encodeOptionalType (c : AttrCodec τ) : Option (TypeExpr τ) → Json
  | none => .null
  | some t => encodeType c t

end IrDialects.Classic
