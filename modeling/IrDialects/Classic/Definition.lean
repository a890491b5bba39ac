import IrDialects.Classic.Value
import IrDialects.Tree.Definition

/-!
# Definitions and specifications in Classic documents

Type definitions and specifications are tagged arrays. Access levels and documentation are objects
around what they belong to.
-/

namespace IrDialects.Classic

variable {τ ν α : Type}

def decodeAccess (v : Json) : Decoded Access := do
  let s ← Shape.string "access" v
  match Access.parse? s with
  | some a => return a
  | none => throw (Complaint.unknownAccess s).issue

/-- Reads an access level and what it belongs to. -/
def accessControlled (decode : Json → Decoded α) (v : Json) : Decoded (Access × α) := do
  let obj ← Shape.object "access controlled" v
  let a ← Shape.member "access controlled" "access" obj
  let a ← (decodeAccess a).under "access"
  let x ← Shape.member "access controlled" "value" obj
  let x ← (decode x).under "value"
  return (a, x)

def encodeAccess (a : Access) (v : Json) : Json :=
  .object [("access", .string a.name), ("value", v)]

/-- Reads a documentation text and what it belongs to. -/
def documented (decode : Json → Decoded α) (v : Json) : Decoded (String × α) := do
  let obj ← Shape.object "documented" v
  let doc ← Shape.optionalString obj "doc"
  let x ← Shape.member "documented" "value" obj
  let x ← (decode x).under "value"
  return (doc, x)

def encodeDocumented (doc : String) (v : Json) : Json :=
  .object [("doc", .string doc), ("value", v)]

def decodeConstructor (c : AttrCodec τ) (v : Json) : Decoded (Constructor τ) := do
  let (n, as) ← namedPair "constructor"
    (Shape.list "constructor arguments" (decodeField (decodeType c))) v
  return ⟨n, as⟩

def encodeConstructor (c : AttrCodec τ) (k : Constructor τ) : Json :=
  .array [encodeName k.name, .array (encodeFields c k.arguments)]

def decodeTypeDefinition (c : AttrCodec τ) (v : Json) : Decoded (TypeDefinition τ) := do
  let (tag, fields) ← Shape.tagged TypeDefinitionTag.table v
  match tag with
  | .synonym =>
    let (ps, t) ← Shape.two tag.name fields
    let ps ← Shape.slot tag.name 1 (decodeNames "type parameters" ps)
    let t ← Shape.slot tag.name 2 (decodeType c t)
    return .synonym ps t
  | .custom =>
    let (ps, cs) ← Shape.two tag.name fields
    let ps ← Shape.slot tag.name 1 (decodeNames "type parameters" ps)
    let (a, cs) ← Shape.slot tag.name 2
      (accessControlled (Shape.list "constructors" (decodeConstructor c)) cs)
    return .custom ps a cs
  | .incomplete =>
    let (ps, i, t) ← Shape.three tag.name fields
    let ps ← Shape.slot tag.name 1 (decodeNames "type parameters" ps)
    let i ← Shape.slot tag.name 2 (decodeIncompleteness i)
    let t ← Shape.slot tag.name 3 (decodeOptionalType c t)
    return .incomplete ps i t

def encodeTypeDefinition (c : AttrCodec τ) : TypeDefinition τ → Json
  | .synonym ps t => .array [.string "TypeAliasDefinition", encodeNames ps, encodeType c t]
  | .custom ps a cs =>
    .array [.string "CustomTypeDefinition", encodeNames ps,
      encodeAccess a (.array (cs.map (encodeConstructor c)))]
  | .incomplete ps i t =>
    .array [.string "IncompleteTypeDefinition", encodeNames ps, encodeIncompleteness i,
      encodeOptionalType c t]

def decodeTypeSpecification (c : AttrCodec τ) (v : Json) : Decoded (TypeSpecification τ) := do
  let (tag, fields) ← Shape.tagged TypeSpecificationTag.table v
  match tag with
  | .synonym =>
    let (ps, t) ← Shape.two tag.name fields
    let ps ← Shape.slot tag.name 1 (decodeNames "type parameters" ps)
    let t ← Shape.slot tag.name 2 (decodeType c t)
    return .synonym ps t
  | .abstract =>
    let ps ← Shape.one tag.name fields
    let ps ← Shape.slot tag.name 1 (decodeNames "type parameters" ps)
    return .abstract ps
  | .custom =>
    let (ps, cs) ← Shape.two tag.name fields
    let ps ← Shape.slot tag.name 1 (decodeNames "type parameters" ps)
    let cs ← Shape.slot tag.name 2 (Shape.list "constructors" (decodeConstructor c) cs)
    return .custom ps cs

def encodeTypeSpecification (c : AttrCodec τ) : TypeSpecification τ → Json
  | .synonym ps t => .array [.string "TypeAliasSpecification", encodeNames ps, encodeType c t]
  | .abstract ps => .array [.string "OpaqueTypeSpecification", encodeNames ps]
  | .custom ps cs =>
    .array [.string "CustomTypeSpecification", encodeNames ps,
      .array (cs.map (encodeConstructor c))]

def decodeValueSpecification (c : AttrCodec τ) (v : Json) : Decoded (ValueSpecification τ) := do
  let obj ← Shape.object "value specification" v
  let is ← Shape.member "value specification" "inputs" obj
  let is ← (Shape.list "inputs" (decodeField (decodeType c)) is).under "inputs"
  let t ← Shape.member "value specification" "output" obj
  let t ← (decodeType c t).under "output"
  return ⟨is, t⟩

def encodeValueSpecification (c : AttrCodec τ) (s : ValueSpecification τ) : Json :=
  .object [("inputs", .array (encodeFields c s.inputs)), ("output", encodeType c s.output)]

end IrDialects.Classic
