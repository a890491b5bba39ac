import IrDialects.Tree.Module
import IrDialects.V4.Definition

/-!
# Modules and packages in V4 documents

Types, values and modules are members of objects, with their names as keys.
-/

namespace IrDialects.V4

variable {α : Type}

def docField (n : Node) : Decoded String := n.optional "doc" "" string

/-- Reads a definition of a module: its access level, its documentation and what it defines. -/
def decodeEntry (decode : Json → Decoded α) (v : Json) : Decoded (Access × String × α) := do
  let n ← record "module entry" v
  let a ← n.field "access" Classic.decodeAccess
  let doc ← docField n
  let x ← n.field "value" decode
  return (a, doc, x)

/-- Reads a specification of a module: its documentation and what it specifies. -/
def decodeSpecEntry (decode : Json → Decoded α) (v : Json) : Decoded (String × α) := do
  let n ← record "module entry" v
  let doc ← docField n
  let x ← n.field "value" decode
  return (doc, x)

def encodeEntry (m : Mode) (a : Access) (doc : String) (v : Json) : Json :=
  .object (("access", .string a.name) :: (docMember m doc ++ [("value", v)]))

def encodeSpecEntry (m : Mode) (doc : String) (v : Json) : Json :=
  .object (docMember m doc ++ [("value", v)])

def decodeModule (v : Json) : Decoded (ModuleDefinition TypeAttrs ValueAttrs) := do
  let n ← record "module definition" v
  let types ← n.optional "types" [] (keyed fun key v => do
    let (a, doc, d) ← decodeEntry decodeTypeDefinition v
    return ⟨Name.parse key, a, doc, d⟩)
  let values ← n.optional "values" [] (keyed fun key v => do
    let (a, doc, d) ← decodeEntry decodeDefinition v
    return ⟨Name.parse key, a, doc, d⟩)
  return ⟨types, values, ← docField n⟩

def encodeModule (m : Mode) (d : ModuleDefinition TypeAttrs ValueAttrs) : Json :=
  .object (("types", .object (d.types.map fun e =>
      (e.name.kebab, encodeEntry m e.access e.doc (encodeTypeDefinition m e.definition)))) ::
    ("values", .object (d.values.map fun e =>
      (e.name.kebab, encodeEntry m e.access e.doc (encodeDefinition m e.definition)))) ::
    docMember m d.doc)

def decodeModuleSpec (v : Json) : Decoded (ModuleSpecification TypeAttrs) := do
  let n ← record "module specification" v
  let types ← n.optional "types" [] (keyed fun key v => do
    let (doc, s) ← decodeSpecEntry decodeTypeSpecification v
    return ⟨Name.parse key, doc, s⟩)
  let values ← n.optional "values" [] (keyed fun key v => do
    let (doc, s) ← decodeSpecEntry decodeValueSpecification v
    return ⟨Name.parse key, doc, s⟩)
  return ⟨types, values, ← docField n⟩

def encodeModuleSpec (m : Mode) (s : ModuleSpecification TypeAttrs) : Json :=
  .object (("types", .object (s.types.map fun e =>
      (e.name.kebab, encodeSpecEntry m e.doc (encodeTypeSpecification m e.specification)))) ::
    ("values", .object (s.values.map fun e =>
      (e.name.kebab, encodeSpecEntry m e.doc (encodeValueSpecification m e.specification)))) ::
    docMember m s.doc)

def decodePackage (v : Json) : Decoded (PackageDefinition TypeAttrs ValueAttrs) := do
  let n ← record "package definition" v
  let ms ← n.field "modules" (keyed fun key v => do
    let (a, d) ← accessControlled decodeModule v
    return ⟨Path.parse key, a, d⟩)
  return ⟨ms⟩

def encodePackage (m : Mode) (p : PackageDefinition TypeAttrs ValueAttrs) : Json :=
  .object [("modules", .object (p.modules.map fun e =>
    (e.name.text, Classic.encodeAccess e.access (encodeModule m e.definition))))]

def decodePackageSpec (v : Json) : Decoded (PackageSpecification TypeAttrs) := do
  let n ← record "package specification" v
  let ms ← n.field "modules" (keyed fun key v =>
    return ⟨Path.parse key, ← decodeModuleSpec v⟩)
  return ⟨ms⟩

def encodePackageSpec (m : Mode) (p : PackageSpecification TypeAttrs) : Json :=
  .object [("modules", .object (p.modules.map fun e =>
    (e.name.text, encodeModuleSpec m e.specification)))]

end IrDialects.V4
