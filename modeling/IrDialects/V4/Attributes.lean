import IrDialects.Classic.Value
import IrDialects.Tree.Attributes
import IrDialects.V4.Node

/-!
# Attributes in V4 documents

An attribute is an object with a source location, further information and extensions; `null`, `[]`
and the empty object are the empty attribute, and unknown members are ignored.
-/

namespace IrDialects.V4

def locationPart (members : Members) (name : String) : Decoded Int :=
  match FieldName.find? members name with
  | none => .error (Complaint.missingField "source location" name).issue
  | some (key, v) => (Shape.int name v).under key

def decodeLocation (v : Json) : Decoded SourceLocation := do
  let obj ← Shape.object "source location" v
  let startLine ← locationPart obj "start-line"
  let startColumn ← locationPart obj "start-column"
  let endLine ← locationPart obj "end-line"
  let endColumn ← locationPart obj "end-column"
  return ⟨startLine, startColumn, endLine, endColumn⟩

def encodeLocation (l : SourceLocation) : Json :=
  .object [("start-line", .ofInt l.startLine), ("start-column", .ofInt l.startColumn),
    ("end-line", .ofInt l.endLine), ("end-column", .ofInt l.endColumn)]

/-- The members of an attribute; the empty forms have none. -/
def attrMembers (v : Json) : Decoded Members :=
  if v.isEmpty then .ok [] else Shape.object "attributes" v

def sourceOf (members : Members) : Decoded (Option SourceLocation) :=
  match FieldName.find? members "source" with
  | none => .ok none
  | some (_, .null) => .ok none
  | some (key, v) => return some (← (decodeLocation v).under key)

/-- A member that is kept as it is, unless it is missing or `null`. -/
def keptMember (members : Members) (name : String) : Option Json :=
  match FieldName.find? members name with
  | none => none
  | some (_, .null) => none
  | some (_, v) => some v

def extensionsOf (members : Members) : Decoded Members :=
  match FieldName.find? members "extensions" with
  | none => .ok []
  | some (_, .null) => .ok []
  | some (key, v) => (Shape.object "extensions" v).under key

def decodeTypeAttrs (v : Json) : Decoded TypeAttrs := do
  let obj ← attrMembers v
  let source ← sourceOf obj
  return ⟨source, keptMember obj "constraints", ← extensionsOf obj⟩

/-- Reads the attribute of a value or pattern node. -/
def decodeValueAttrs (v : Json) : Decoded ValueAttrs := do
  let obj ← attrMembers v
  let source ← sourceOf obj
  return ⟨source, keptMember obj "inferred-type", ← extensionsOf obj⟩

def attrObject (source : Option SourceLocation) (key : String) (kept : Option Json)
    (extensions : Members) : Json :=
  .object ((source.toList.map fun l => ("source", encodeLocation l))
    ++ (kept.toList.map fun v => (key, v))
    ++ (if extensions.isEmpty then [] else [("extensions", .object extensions)]))

def encodeTypeAttrs (a : TypeAttrs) : Json :=
  attrObject a.source "constraints" a.constraints a.extensions

/-- Writes the attribute of a value or pattern node. -/
def encodeValueAttrs (a : ValueAttrs) : Json :=
  attrObject a.source "inferred-type" a.inferredType a.extensions

/-- The codec for subtrees written in the Classic form. -/
def classicForm : Classic.Codec TypeAttrs ValueAttrs :=
  ⟨⟨decodeTypeAttrs, encodeTypeAttrs⟩, ⟨decodeValueAttrs, encodeValueAttrs⟩⟩

/-- The attribute member of a type node. -/
def typeAttrMember (m : Mode) (a : TypeAttrs) : Members :=
  member m "attrs" (encodeTypeAttrs a) a.isEmpty

/-- The attribute member of a value or pattern node. -/
def valueAttrMember (m : Mode) (a : ValueAttrs) : Members :=
  member m "attrs" (encodeValueAttrs a) a.isEmpty

end IrDialects.V4
