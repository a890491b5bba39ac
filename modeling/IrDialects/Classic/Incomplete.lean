import IrDialects.Classic.Naming
import IrDialects.Tree.Incomplete

/-!
# Holes and native operations in Classic documents
-/

namespace IrDialects.Classic

def decodeHoleReason (v : Json) : Decoded HoleReason := do
  let (tag, fields) ← Shape.tagged HoleReasonTag.table v
  match tag with
  | .unresolvedReference =>
    let f ← Shape.one tag.name fields
    return .unresolvedReference (← Shape.slot tag.name 1 (decodeFQName f))
  | .deletedDuringRefactor =>
    let t ← Shape.one tag.name fields
    return .deletedDuringRefactor (← Shape.slot tag.name 1 (Shape.string "transaction id" t))
  | .typeMismatch =>
    let (e, f) ← Shape.two tag.name fields
    let e ← Shape.slot tag.name 1 (Shape.string "expected type" e)
    let f ← Shape.slot tag.name 2 (Shape.string "found type" f)
    return .typeMismatch e f
  | .draft =>
    Shape.zero tag.name fields
    return .draft

def encodeHoleReason : HoleReason → Json
  | .unresolvedReference f => .array [.string "UnresolvedReference", encodeFQName f]
  | .deletedDuringRefactor t => .array [.string "DeletedDuringRefactor", .string t]
  | .typeMismatch e f => .array [.string "TypeMismatch", .string e, .string f]
  | .draft => .array [.string "Draft"]

/-- Reads in which way a definition is unfinished. -/
def decodeIncompleteness (v : Json) : Decoded Incompleteness := do
  let (tag, fields) ← Shape.tagged IncompletenessTag.table v
  match tag with
  | .draft =>
    Shape.zero tag.name fields
    return .draft
  | .hole =>
    let r ← Shape.one tag.name fields
    return .hole (← Shape.slot tag.name 1 (decodeHoleReason r))

/-- Writes in which way a definition is unfinished. -/
def encodeIncompleteness : Incompleteness → Json
  | .hole r => .array [.string "Hole", encodeHoleReason r]
  | .draft => .array [.string "Draft"]

/-- A hint written as a bare string stands for the array with that string. -/
def hintArray : Json → Json
  | .string s => .array [.string s]
  | v => v

def decodeNativeHint (v : Json) : Decoded NativeHint := do
  let (tag, fields) ← Shape.tagged NativeHintTag.table (hintArray v)
  match tag with
  | .platformSpecific =>
    let p ← Shape.one tag.name fields
    return .platformSpecific (← Shape.slot tag.name 1 (Shape.string "platform" p))
  | .arithmetic =>
    Shape.zero tag.name fields
    return .arithmetic
  | .comparison =>
    Shape.zero tag.name fields
    return .comparison
  | .stringOp =>
    Shape.zero tag.name fields
    return .stringOp
  | .collectionOp =>
    Shape.zero tag.name fields
    return .collectionOp

def encodeNativeHint : NativeHint → Json
  | .arithmetic => .array [.string "Arithmetic"]
  | .comparison => .array [.string "Comparison"]
  | .stringOp => .array [.string "StringOp"]
  | .collectionOp => .array [.string "CollectionOp"]
  | .platformSpecific p => .array [.string "PlatformSpecific", .string p]

def decodeNativeInfo (v : Json) : Decoded NativeInfo := do
  let obj ← Shape.object "native info" v
  let hint ← (decodeNativeHint (← Shape.member "native info" "hint" obj)).under "hint"
  return ⟨hint, ← Shape.optionalString obj "description"⟩

/-- Writes the description of a native operation; an empty text is left out. -/
def encodeNativeInfo (i : NativeInfo) : Json :=
  .object (("hint", encodeNativeHint i.hint) ::
    (if i.description.isEmpty then [] else [("description", .string i.description)]))

end IrDialects.Classic
