import IrDialects.Number.Decimal
import IrDialects.Number.Shortest
import IrDialects.Tree.Literal
import IrDialects.Wire.Sequence

/-!
# Literals in Classic documents

A literal is a tagged array with its payload. The payload has the same form in both dialects.
-/

namespace IrDialects.Classic

/-- Reads a decimal, written as a string or as a number. -/
def decodeDecimal (text : String) : Decoded Literal :=
  match Number.Decimal.checkOrMessage text with
  | .ok () => .ok (.decimal text)
  | .error reason => .error (Complaint.badDecimal reason).issue

/-- Reads the payload of a literal with a given tag. -/
def decodePayload (tag : LiteralTag) (v : Json) : Decoded Literal :=
  match tag with
  | .bool => return .bool (← Shape.bool tag.name v)
  | .char => do
    let s ← Shape.string tag.name v
    match s.toList with
    | [c] => return .char c
    | _ => throw (Complaint.notOneCharacter s).issue
  | .string => return .string (← Shape.string tag.name v)
  | .integer => return .integer (← Shape.int tag.name v)
  | .float => return .float (← Shape.float tag.name v)
  | .decimal =>
    match v with
    | .string s => decodeDecimal s
    | .number s => decodeDecimal s
    | v => .error (Complaint.expected "string" tag.name v.kind).issue

def decodeLiteral (v : Json) : Decoded Literal := do
  let (tag, fields) ← Shape.tagged LiteralTag.table v
  let payload ← Shape.one tag.name fields
  Shape.slot tag.name 1 (decodePayload tag payload)

def literalTag : Literal → LiteralTag
  | .bool _ => .bool
  | .char _ => .char
  | .string _ => .string
  | .integer _ => .integer
  | .float _ => .float
  | .decimal _ => .decimal

/-- Writes the payload of a literal. Numbers without a JSON spelling get a text that cannot be
written. -/
def encodePayload : Literal → Json
  | .bool b => .bool b
  | .char c => .string (String.singleton c)
  | .string s => .string s
  | .integer n => .ofInt n
  | .float x => .number (Number.FloatLayout.document.text x)
  | .decimal s => .string s

/-- The tag that a literal is written with; integers keep their older one. -/
def writtenTag (l : Literal) : String :=
  match literalTag l with
  | .integer => "WholeNumberLiteral"
  | tag => tag.name

def encodeLiteral (l : Literal) : Json := .array [.string (writtenTag l), encodePayload l]

end IrDialects.Classic
