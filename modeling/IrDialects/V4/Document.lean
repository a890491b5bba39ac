import IrDialects.Classic.Document
import IrDialects.Json.Writer
import IrDialects.V4.Module

/-!
# V4 documents

A document is an object with a format version and a distribution; a bare distribution stands for the
default version.
-/

namespace IrDialects.V4

abbrev V4Distribution := Distribution TypeAttrs ValueAttrs

def decodeDependency (key : String) (v : Json) : Decoded (Dependency TypeAttrs) := do
  return ⟨Path.parse key, ← decodePackageSpec v⟩

def decodeEntryPoint (key : String) (v : Json) : Decoded EntryPoint := do
  let n ← record "entry point" v
  let t ← n.field "target" decodeFQName
  let k ← n.field "kind" Classic.decodeEntryKind
  return ⟨Name.parse key, t, k, ← docField n⟩

def decodeDistribution : Json → Decoded V4Distribution
  | .array items => Classic.decodeDistribution classicForm (.array items)
  | v => do
    let (tag, n) ← unwrap DistributionTag.table DistributionTag.name v
    let p ← n.field "packageName" decodePath
    let ds ← n.optional "dependencies" [] (keyed decodeDependency)
    match tag with
    | .library => return .library p ds (← n.field "def" decodePackage)
    | .specs => return .specs p ds (← n.field "spec" decodePackageSpec)
    | .application =>
      let d ← n.field "def" decodePackage
      let es ← n.optional "entryPoints" [] (keyed decodeEntryPoint)
      return .application p ds d es

def distributionHead (m : Mode) (p : Path) (ds : List (Dependency TypeAttrs)) : Members :=
  [("packageName", encodePath p), ("dependencies", .object (ds.map fun d =>
    (d.name.text, encodePackageSpec m d.specification)))]

def encodeEntryPoint (m : Mode) (e : EntryPoint) : String × Json :=
  (e.name.kebab, .object (("target", encodeFQName e.target) :: ("kind", .string e.kind.name) ::
    docMember m e.doc))

def encodeDistribution (m : Mode) : V4Distribution → Json
  | .library p ds d => wrapped "Library" (distributionHead m p ds ++ [("def", encodePackage m d)])
  | .specs p ds s => wrapped "Specs" (distributionHead m p ds ++ [("spec", encodePackageSpec m s)])
  | .application p ds d es =>
    wrapped "Application" (distributionHead m p ds ++ [("def", encodePackage m d),
      ("entryPoints", .object (es.map (encodeEntryPoint m)))])

/-- A version of the fourth format, given the text that names it in a message. -/
def checkMajor (version : FormatVersion) : Decoded FormatVersion :=
  if version.major? = some 4 then .ok version
  else .error (Complaint.unsupportedVersion "v4 format version" version.toText).issue

/-- Reads a format version: the integer 4, or a text whose number before the first point is 4. -/
def decodeVersion : Json → Decoded FormatVersion
  | .number s =>
    match Number.Whole.parse s with
    | .ok n => checkMajor (.number n)
    | .error _ => .error (Complaint.unsupportedVersion "v4 format version" s).issue
  | .string s => checkMajor (.ofText s)
  | v => .error (Complaint.versionKind "v4 format version" "a string or an integer" v.kind).issue

/-- The version with which a document is written: its own if it is of the fourth format. -/
def writtenVersion (version : FormatVersion) : FormatVersion :=
  if version.major? = some 4 then version else .defaultV4

def encodeVersion : FormatVersion → Json
  | .number n => .ofInt n
  | .text s => .string s

/-- Whether an object is a distribution without a document around it. -/
def isBareDistribution : Members → Bool
  | [(key, _)] => (DistributionTag.table.find? key).isSome
  | _ => false

def decodeDocument (v : Json) : Decoded V4Document := do
  let obj ← Shape.object "document" v
  match Json.get? obj "formatVersion" with
  | none =>
    if isBareDistribution obj then return ⟨.defaultV4, ← decodeDistribution v⟩
    else throw (Complaint.missingField "document" "formatVersion").issue
  | some version =>
    let version ← (decodeVersion version).under "formatVersion"
    let d ← Shape.member "document" "distribution" obj
    let d ← (decodeDistribution d).under "distribution"
    return ⟨version, d⟩

def encodeDocument (m : Mode) (d : V4Document) : Json :=
  .object [("formatVersion", encodeVersion (writtenVersion d.version)),
    ("distribution", encodeDistribution m d.distribution)]

def decode (bytes : List UInt8) : Except Fault V4Document :=
  match Json.parseBytes bytes with
  | .error e => .error (.plain e.message)
  | .ok v => (decodeDocument v).mapError .issue

def encode (m : Mode) (d : V4Document) : Except Json.WriteFault String :=
  Json.marshal (encodeDocument m d)

end IrDialects.V4
