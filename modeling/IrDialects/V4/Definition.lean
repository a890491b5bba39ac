import IrDialects.Classic.Definition
import IrDialects.V4.Value

/-!
# Definitions and specifications in V4 documents
-/

namespace IrDialects.V4

variable {α : Type}

/-- Reads an access level and what it belongs to. -/
def accessControlled (decode : Json → Decoded α) (v : Json) : Decoded (Access × α) := do
  let n ← record "access controlled" v
  let a ← n.field "access" Classic.decodeAccess
  let x ← n.field "value" decode
  return (a, x)

def decodeConstructor (v : Json) : Decoded (Constructor TypeAttrs) := do
  let n ← record "constructor" v
  let x ← n.field "name" decodeName
  let as ← n.optional "args" [] (list (namedPair "constructor argument" decodeType))
  return ⟨x, as⟩

def encodeArguments (m : Mode) (as : TypeFields TypeAttrs) : List Json :=
  as.map fun (n, t) => .array [encodeName n, encodeType m t]

def encodeConstructor (m : Mode) (c : Constructor TypeAttrs) : Json :=
  .object (("name", encodeName c.name) ::
    member m "args" (.array (encodeArguments m c.arguments)) c.arguments.isEmpty)

def decodeTypeDefinition : Json → Decoded (TypeDefinition TypeAttrs)
  | .array items => Classic.decodeTypeDefinition classicForm.typeAttrs (.array items)
  | v => do
    let (tag, n) ← unwrap TypeDefinitionTag.table TypeDefinitionTag.name v
    let ps ← n.optional "type-params" [] (list decodeName)
    match tag with
    | .synonym => return .synonym ps (← n.field "type-exp" decodeType)
    | .custom =>
      let (a, cs) ← n.field "constructors" (accessControlled (list decodeConstructor))
      return .custom ps a cs
    | .incomplete =>
      let i ← n.field "incompleteness" decodeIncompleteness
      let t ← n.optional "partial" none (fun v => return some (← decodeType v))
      return .incomplete ps i t

def encodeParams (ps : List Name) : Json := .array (ps.map encodeName)

def encodeTypeDefinition (m : Mode) : TypeDefinition TypeAttrs → Json
  | .synonym ps t =>
    wrapped "TypeAliasDefinition" [("type-params", encodeParams ps), ("type-exp", encodeType m t)]
  | .custom ps a cs =>
    wrapped "CustomTypeDefinition" [("type-params", encodeParams ps),
      ("constructors", Classic.encodeAccess a (.array (cs.map (encodeConstructor m))))]
  | .incomplete ps i t =>
    wrapped "IncompleteTypeDefinition" (("type-params", encodeParams ps) ::
      ("incompleteness", encodeIncompleteness i) ::
      (t.toList.map fun t => ("partial", encodeType m t)))

def decodeTypeSpecification : Json → Decoded (TypeSpecification TypeAttrs)
  | .array items => Classic.decodeTypeSpecification classicForm.typeAttrs (.array items)
  | v => do
    let (tag, n) ← unwrap TypeSpecificationTag.table TypeSpecificationTag.name v
    let ps ← n.optional "type-params" [] (list decodeName)
    match tag with
    | .synonym => return .synonym ps (← n.field "type-exp" decodeType)
    | .abstract => return .abstract ps
    | .custom => return .custom ps (← n.field "constructors" (list decodeConstructor))

def encodeTypeSpecification (m : Mode) : TypeSpecification TypeAttrs → Json
  | .synonym ps t =>
    wrapped "TypeAliasSpecification"
      [("type-params", encodeParams ps), ("type-exp", encodeType m t)]
  | .abstract ps => wrapped "OpaqueTypeSpecification" [("type-params", encodeParams ps)]
  | .custom ps cs =>
    wrapped "CustomTypeSpecification" [("type-params", encodeParams ps),
      ("constructors", .array (cs.map (encodeConstructor m)))]

def decodeValueSpecification (v : Json) : Decoded (ValueSpecification TypeAttrs) := do
  let n ← record "value specification" v
  let is ← n.field "inputs" (decodeFields decodeType)
  let t ← n.field "output" decodeType
  return ⟨is, t⟩

def encodeValueSpecification (m : Mode) (s : ValueSpecification TypeAttrs) : Json :=
  .object [("inputs", .object (encodeFields m s.inputs)), ("output", encodeType m s.output)]

end IrDialects.V4
