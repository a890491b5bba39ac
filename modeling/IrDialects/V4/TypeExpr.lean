import IrDialects.V4.Attributes
import IrDialects.V4.Naming

/-!
# Types in V4 documents

A type is a tagged node. A bare string is a reference if it is a qualified name and a variable
otherwise; an array is a type in the Classic form.
-/

namespace IrDialects.V4

/-- The type that a bare string stands for. -/
def typeShorthand (s : String) : Decoded V4Type :=
  match FQName.parse? s with
  | some f => .ok (.reference {} f [])
  | none =>
    let n := Name.parse s
    if n.isEmpty then .error (Complaint.namelessVariable s).issue else .ok (.variable {} n)

/-- Reads fields keyed by name; `child` reads the types. -/
def decodeFields (child : Json → Decoded V4Type) : Json → Decoded (TypeFields TypeAttrs) :=
  keyed fun key v => return (Name.parse key, ← child v)

/-- Reads one tagged node of a type; `child` reads the types inside it. -/
def taggedType (child : Json → Decoded V4Type) (v : Json) : Decoded V4Type := do
  let (tag, n) ← unwrap TypeTag.table TypeTag.name v
  let a ← n.optional "attrs" {} decodeTypeAttrs
  match tag with
  | .variable => return .variable a (← n.field "name" decodeName)
  | .reference =>
    let f ← n.field "fqname" decodeFQName
    let ts ← n.optional "args" [] (list child)
    return .reference a f ts
  | .tuple => return .tuple a (← n.field "elements" (list child))
  | .record => return .record a (← n.field "fields" (decodeFields child))
  | .extensibleRecord =>
    let r ← n.field "variable" decodeName
    let fs ← n.field "fields" (decodeFields child)
    return .extensibleRecord a r fs
  | .function =>
    let x ← n.field "arg" child
    let y ← n.field "result" child
    return .function a x y
  | .unit => return .unit a

/-- Reads one node of a type; `child` reads the types inside it. -/
def typeNode (child : Json → Decoded V4Type) : Json → Decoded V4Type
  | .array items => Classic.decodeType classicForm.typeAttrs (.array items)
  | .string s => typeShorthand s
  | v => taggedType child v

/-- Reads a type that is nested less than `fuel` levels deep. -/
def typeAt : Nat → Json → Decoded V4Type
  | 0, _ => .error Complaint.tooDeep.issue
  | fuel + 1, v => typeNode (typeAt fuel) v

def decodeType (v : Json) : Decoded V4Type := typeAt (v.depth + 1) v

mutual

def encodeType (m : Mode) : V4Type → Json
  | .variable a n => wrapped "Variable" (("name", encodeName n) :: typeAttrMember m a)
  | .reference a f ts =>
    wrapped "Reference" (("fqname", encodeFQName f) ::
      (member m "args" (.array (encodeTypes m ts)) ts.isEmpty ++ typeAttrMember m a))
  | .tuple a ts => wrapped "Tuple" (("elements", .array (encodeTypes m ts)) :: typeAttrMember m a)
  | .record a fs =>
    wrapped "Record" (("fields", .object (encodeFields m fs)) :: typeAttrMember m a)
  | .extensibleRecord a r fs =>
    wrapped "ExtensibleRecord" (("variable", encodeName r) ::
      ("fields", .object (encodeFields m fs)) :: typeAttrMember m a)
  | .function a x y =>
    wrapped "Function" (("arg", encodeType m x) :: ("result", encodeType m y) ::
      typeAttrMember m a)
  | .unit a => wrapped "Unit" (typeAttrMember m a)

def encodeTypes (m : Mode) : List V4Type → List Json
  | [] => []
  | t :: ts => encodeType m t :: encodeTypes m ts

def encodeFields (m : Mode) : List (Name × V4Type) → Members
  | [] => []
  | (n, t) :: fs => (n.kebab, encodeType m t) :: encodeFields m fs

end

end IrDialects.V4
