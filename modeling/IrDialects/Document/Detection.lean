import IrDialects.Json.Reader
import IrDialects.Tree.Distribution
import IrDialects.Wire.Dialect
import IrDialects.Wire.Issue

/-!
# Telling dialects apart

The dialect of a document follows from its format version. A distribution without a version is told
by its shape: a tagged array is Classic, an object with the tag as its only key is V4. Here tags count
only in their exact spelling.
-/

namespace IrDialects.Dialect

/-- Whether a text is the exact tag of a distribution. -/
def isDistributionTag (s : String) : Bool := s == "Library" || s == "Specs" || s == "Application"

/-- The issue that no dialect has a version. -/
def unsupported (version : String) : Issue :=
  (Complaint.unsupportedVersion "format version" version).issue.under "formatVersion"

def ofNumber? (n : Int) : Option Dialect :=
  if 1 ≤ n ∧ n ≤ 3 then some classic else if n = 4 then some v4 else none

/-- The dialect of a document with the given format version. -/
def ofVersion : Json → Decoded Dialect
  | .number s =>
    match Number.Whole.parse s with
    | .error _ => .error (unsupported s)
    | .ok n =>
      match ofNumber? n with
      | some d => .ok d
      | none => .error (unsupported (toString n))
  | .string s =>
    let version := FormatVersion.ofText s
    if version.major? = some 4 then .ok v4 else .error (unsupported version.toText)
  | v =>
    .error ((Complaint.versionKind "format version" "a string or an integer" v.kind).issue.under
      "formatVersion")

/-- The dialect of a distribution that stands alone. -/
def ofShape? : Json → Option Dialect
  | .object [(key, _)] => if isDistributionTag key then some v4 else none
  | .array (.string tag :: _) => if isDistributionTag tag then some classic else none
  | _ => none

/-- The format version of a document, if it has one. -/
def versionOf? : Json → Option Json
  | .object members => Json.get? members "formatVersion"
  | _ => none

/-- The dialect in which a document is written. -/
def detect (v : Json) : Decoded Dialect :=
  match versionOf? v with
  | some version => ofVersion version
  | none =>
    match ofShape? v with
    | some d => .ok d
    | none => .error (Complaint.unrecognized v.kind).issue

/-- The dialect in which the bytes of a document are written. -/
def detectBytes (bytes : List UInt8) : Except Fault Dialect :=
  match Json.parseBytes bytes with
  | .error e => .error (.plain e.message)
  | .ok v => (detect v).mapError .issue

end IrDialects.Dialect
