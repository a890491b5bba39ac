import IrDialects.Classic.Module
import IrDialects.Tree.Attributes

/-!
# Classic documents

A document is an object with a format version and a distribution; a bare distribution stands for
version 3.
-/

namespace IrDialects.Classic

variable {τ ν : Type}

def decodeDependency (c : AttrCodec τ) (v : Json) : Decoded (Dependency τ) := do
  let (p, s) ← pathPair "dependency" (decodePackageSpec c) v
  return ⟨p, s⟩

def encodeDependency (c : AttrCodec τ) (d : Dependency τ) : Json :=
  .array [encodePath d.name, encodePackageSpec c d.specification]

/-- Reads the name of a kind of entry points. -/
def decodeEntryKind (v : Json) : Decoded EntryKind := do
  let s ← Shape.string "entry point kind" v
  match EntryKind.parse? s with
  | some k => return k
  | none => throw (Complaint.unknownEntryKind s).issue

/-- Reads what an entry point starts: its target, its kind and its documentation. -/
def decodeEntryBody (v : Json) : Decoded (FQName × EntryKind × String) := do
  let obj ← Shape.object "entry point" v
  let t ← Shape.member "entry point" "target" obj
  let t ← (decodeFQName t).under "target"
  let k ← Shape.member "entry point" "kind" obj
  let k ← (decodeEntryKind k).under "kind"
  return (t, k, ← Shape.optionalString obj "doc")

def decodeEntryPoint (v : Json) : Decoded EntryPoint := do
  let (n, t, k, doc) ← namedPair "named entry" decodeEntryBody v
  return ⟨n, t, k, doc⟩

/-- Writes an entry point; an empty documentation text is left out. -/
def encodeEntryPoint (e : EntryPoint) : Json :=
  .array [encodeName e.name, .object ([("target", encodeFQName e.target),
    ("kind", .string e.kind.name)] ++ (if e.doc.isEmpty then [] else [("doc", .string e.doc)]))]

def decodeDistribution (c : Codec τ ν) (v : Json) : Decoded (Distribution τ ν) := do
  let (tag, fields) ← Shape.tagged DistributionTag.table v
  match tag with
  | .library =>
    let (p, ds, d) ← Shape.three tag.name fields
    let p ← Shape.slot tag.name 1 (decodePath p)
    let ds ← Shape.slot tag.name 2
      (Shape.list "dependencies" (decodeDependency c.typeAttrs) ds)
    let d ← Shape.slot tag.name 3 (decodePackage c d)
    return .library p ds d
  | .specs =>
    let (p, ds, s) ← Shape.three tag.name fields
    let p ← Shape.slot tag.name 1 (decodePath p)
    let ds ← Shape.slot tag.name 2
      (Shape.list "dependencies" (decodeDependency c.typeAttrs) ds)
    let s ← Shape.slot tag.name 3 (decodePackageSpec c.typeAttrs s)
    return .specs p ds s
  | .application =>
    let (p, ds, d, es) ← Shape.four tag.name fields
    let p ← Shape.slot tag.name 1 (decodePath p)
    let ds ← Shape.slot tag.name 2
      (Shape.list "dependencies" (decodeDependency c.typeAttrs) ds)
    let d ← Shape.slot tag.name 3 (decodePackage c d)
    let es ← Shape.slot tag.name 4 (Shape.list "entry points" decodeEntryPoint es)
    return .application p ds d es

def encodeDistribution (c : Codec τ ν) : Distribution τ ν → Json
  | .library p ds d =>
    .array [.string "Library", encodePath p, .array (ds.map (encodeDependency c.typeAttrs)),
      encodePackage c d]
  | .specs p ds s =>
    .array [.string "Specs", encodePath p, .array (ds.map (encodeDependency c.typeAttrs)),
      encodePackageSpec c.typeAttrs s]
  | .application p ds d es =>
    .array [.string "Application", encodePath p, .array (ds.map (encodeDependency c.typeAttrs)),
      encodePackage c d, .array (es.map encodeEntryPoint)]

/-- Reads a format version, one of the integers 1, 2 and 3. -/
def decodeVersion : Json → Decoded FormatVersion
  | .number s =>
    match Number.Whole.parse s with
    | .ok n =>
      if 1 ≤ n ∧ n ≤ 3 then .ok (.number n)
      else .error (Complaint.unsupportedVersion "classic format version" s).issue
    | .error _ => .error (Complaint.unsupportedVersion "classic format version" s).issue
  | v => .error (Complaint.versionKind "classic format version" "an integer" v.kind).issue

/-- The version with which a document is written: its own if it is 1, 2 or 3, else 3. -/
def writtenVersion : FormatVersion → Int
  | .number n => if 1 ≤ n ∧ n ≤ 3 then n else 3
  | .text _ => 3

def decodeDocument (c : Codec τ ν) : Json → Decoded (Document τ ν)
  | .array items => do
    let d ← decodeDistribution c (.array items)
    return ⟨.defaultClassic, d⟩
  | v => do
    let obj ← Shape.object "document" v
    let version ← Shape.member "document" "formatVersion" obj
    let version ← (decodeVersion version).under "formatVersion"
    let d ← Shape.member "document" "distribution" obj
    let d ← (decodeDistribution c d).under "distribution"
    return ⟨version, d⟩

def encodeDocument (c : Codec τ ν) (d : Document τ ν) : Json :=
  .object [("formatVersion", .ofInt (writtenVersion d.version)),
    ("distribution", encodeDistribution c d.distribution)]

/-- Attributes kept as they are; an attribute without contents is written as an empty object. -/
def plainAttrs : AttrCodec ClassicAttrs where
  decode v := .ok (.ofJson v)
  encode a := a.raw.getD (.object [])

def codec : Codec ClassicAttrs ClassicAttrs := ⟨plainAttrs, plainAttrs⟩

end IrDialects.Classic
