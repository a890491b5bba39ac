import IrDialects.Classic.Definition
import IrDialects.Tree.Module

/-!
# Modules and packages in Classic documents

Entries are pairs of a name and what it names; the lists of a module may be left out.
-/

namespace IrDialects.Classic

variable {τ ν α : Type}

/-- The entries under an optional member of a module. -/
def optionalEntries (members : Members) (key what : String) (decode : Json → Decoded α) :
    Decoded (List α) :=
  match Json.get? members key with
  | none => .ok []
  | some v => (Shape.list what decode v).under key

/-- A documentation text, or `null` when it is empty. -/
def encodeDoc (doc : String) : Json := if doc.isEmpty then .null else .string doc

def decodeTypeEntry (c : AttrCodec τ) (v : Json) : Decoded (TypeEntry τ) := do
  let (n, a, doc, d) ← namedPair "named entry"
    (accessControlled (documented (decodeTypeDefinition c))) v
  return ⟨n, a, doc, d⟩

def encodeTypeEntry (c : AttrCodec τ) (e : TypeEntry τ) : Json :=
  .array [encodeName e.name,
    encodeAccess e.access (encodeDocumented e.doc (encodeTypeDefinition c e.definition))]

def decodeValueEntry (c : Codec τ ν) (v : Json) : Decoded (ValueEntry τ ν) := do
  let (n, a, doc, d) ← namedPair "named entry"
    (accessControlled (documented (decodeDefinition c))) v
  return ⟨n, a, doc, d⟩

def encodeValueEntry (c : Codec τ ν) (e : ValueEntry τ ν) : Json :=
  .array [encodeName e.name,
    encodeAccess e.access (encodeDocumented e.doc (encodeDefinition c e.definition))]

def decodeModule (c : Codec τ ν) (v : Json) : Decoded (ModuleDefinition τ ν) := do
  let obj ← Shape.object "module definition" v
  let types ← optionalEntries obj "types" "module types" (decodeTypeEntry c.typeAttrs)
  let values ← optionalEntries obj "values" "module values" (decodeValueEntry c)
  return ⟨types, values, ← Shape.optionalString obj "doc"⟩

def encodeModule (c : Codec τ ν) (m : ModuleDefinition τ ν) : Json :=
  .object [("types", .array (m.types.map (encodeTypeEntry c.typeAttrs))),
    ("values", .array (m.values.map (encodeValueEntry c))), ("doc", encodeDoc m.doc)]

def decodeTypeSpecEntry (c : AttrCodec τ) (v : Json) : Decoded (TypeSpecEntry τ) := do
  let (n, doc, s) ← namedPair "named entry" (documented (decodeTypeSpecification c)) v
  return ⟨n, doc, s⟩

def encodeTypeSpecEntry (c : AttrCodec τ) (e : TypeSpecEntry τ) : Json :=
  .array [encodeName e.name, encodeDocumented e.doc (encodeTypeSpecification c e.specification)]

def decodeValueSpecEntry (c : AttrCodec τ) (v : Json) : Decoded (ValueSpecEntry τ) := do
  let (n, doc, s) ← namedPair "named entry" (documented (decodeValueSpecification c)) v
  return ⟨n, doc, s⟩

def encodeValueSpecEntry (c : AttrCodec τ) (e : ValueSpecEntry τ) : Json :=
  .array [encodeName e.name, encodeDocumented e.doc (encodeValueSpecification c e.specification)]

def decodeModuleSpec (c : AttrCodec τ) (v : Json) : Decoded (ModuleSpecification τ) := do
  let obj ← Shape.object "module specification" v
  let types ← optionalEntries obj "types" "module types" (decodeTypeSpecEntry c)
  let values ← optionalEntries obj "values" "module values" (decodeValueSpecEntry c)
  return ⟨types, values, ← Shape.optionalString obj "doc"⟩

def encodeModuleSpec (c : AttrCodec τ) (m : ModuleSpecification τ) : Json :=
  .object [("types", .array (m.types.map (encodeTypeSpecEntry c))),
    ("values", .array (m.values.map (encodeValueSpecEntry c))), ("doc", encodeDoc m.doc)]

/-- Reads a pair of a path and something else. -/
def pathPair (what : String) (decode : Json → Decoded α) (v : Json) : Decoded (Path × α) := do
  let (p, x) ← Shape.pair what v
  let p ← (decodePath p).underIndex 0
  let x ← (decode x).underIndex 1
  return (p, x)

def decodePackage (c : Codec τ ν) (v : Json) : Decoded (PackageDefinition τ ν) := do
  let obj ← Shape.object "package definition" v
  let ms ← Shape.member "package definition" "modules" obj
  let ms ← (Shape.list "modules" (fun m => do
    let (p, a, d) ← pathPair "module entry" (accessControlled (decodeModule c)) m
    return ⟨p, a, d⟩) ms).under "modules"
  return ⟨ms⟩

def encodePackage (c : Codec τ ν) (p : PackageDefinition τ ν) : Json :=
  .object [("modules", .array (p.modules.map fun e =>
    .array [encodePath e.name, encodeAccess e.access (encodeModule c e.definition)]))]

def decodePackageSpec (c : AttrCodec τ) (v : Json) : Decoded (PackageSpecification τ) := do
  let obj ← Shape.object "package specification" v
  let ms ← Shape.member "package specification" "modules" obj
  let ms ← (Shape.list "modules" (fun m => do
    let (p, s) ← pathPair "module entry" (decodeModuleSpec c) m
    return ⟨p, s⟩) ms).under "modules"
  return ⟨ms⟩

def encodePackageSpec (c : AttrCodec τ) (p : PackageSpecification τ) : Json :=
  .object [("modules", .array (p.modules.map fun e =>
    .array [encodePath e.name, encodeModuleSpec c e.specification]))]

end IrDialects.Classic
