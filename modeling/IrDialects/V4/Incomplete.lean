import IrDialects.Classic.Incomplete
import IrDialects.V4.Naming

/-!
# Holes and native operations in V4 documents
-/

namespace IrDialects.V4

def decodeHoleReason : Json → Decoded HoleReason
  | .array items => Classic.decodeHoleReason (.array items)
  | v => do
    let (tag, n) ← unwrap HoleReasonTag.table HoleReasonTag.name v
    match tag with
    | .unresolvedReference => return .unresolvedReference (← n.field "target" decodeFQName)
    | .deletedDuringRefactor => return .deletedDuringRefactor (← n.field "tx-id" string)
    | .typeMismatch =>
      let e ← n.field "expected" string
      let f ← n.field "found" string
      return .typeMismatch e f
    | .draft => return .draft

def encodeHoleReason : HoleReason → Json
  | .unresolvedReference f => wrapped "UnresolvedReference" [("target", encodeFQName f)]
  | .deletedDuringRefactor t => wrapped "DeletedDuringRefactor" [("tx-id", .string t)]
  | .typeMismatch e f => wrapped "TypeMismatch" [("expected", .string e), ("found", .string f)]
  | .draft => wrapped "Draft" []

/-- Reads in which way a definition is unfinished. -/
def decodeIncompleteness : Json → Decoded Incompleteness
  | .array items => Classic.decodeIncompleteness (.array items)
  | v => do
    let (tag, n) ← unwrap IncompletenessTag.table IncompletenessTag.name v
    match tag with
    | .draft => return .draft
    | .hole => return .hole (← n.field "reason" decodeHoleReason)

/-- Writes in which way a definition is unfinished. -/
def encodeIncompleteness : Incompleteness → Json
  | .hole r => wrapped "Hole" [("reason", encodeHoleReason r)]
  | .draft => wrapped "Draft" []

/-- Reads a hint; what is not an object is read in the Classic form. -/
def decodeNativeHint : Json → Decoded NativeHint
  | .object members => do
    let (tag, n) ← unwrap NativeHintTag.table NativeHintTag.name (.object members)
    match tag with
    | .arithmetic => return .arithmetic
    | .comparison => return .comparison
    | .stringOp => return .stringOp
    | .collectionOp => return .collectionOp
    | .platformSpecific => return .platformSpecific (← n.field "platform" string)
  | v => Classic.decodeNativeHint v

def encodeNativeHint : NativeHint → Json
  | .arithmetic => wrapped "Arithmetic" []
  | .comparison => wrapped "Comparison" []
  | .stringOp => wrapped "StringOp" []
  | .collectionOp => wrapped "CollectionOp" []
  | .platformSpecific p => wrapped "PlatformSpecific" [("platform", .string p)]

def decodeDescription (members : Members) : Decoded String :=
  match Json.get? members "description" with
  | none => .ok ""
  | some .null => .ok ""
  | some v => (string v).under "description"

def decodeNativeInfo (v : Json) : Decoded NativeInfo := do
  let obj ← Shape.object "native info" v
  let hint ← (decodeNativeHint (← Shape.member "native info" "hint" obj)).under "hint"
  return ⟨hint, ← decodeDescription obj⟩

def encodeNativeInfo (m : Mode) (i : NativeInfo) : Json :=
  .object (("hint", encodeNativeHint i.hint) ::
    member m "description" (.string i.description) i.description.isEmpty)

end IrDialects.V4
