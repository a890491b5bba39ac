import IrDialects.Number.Numeral
import IrDialects.Wire.FieldName
import IrDialects.Wire.Tag

/-!
# Shapes

What both dialects ask of the JSON of a node: a value of a given kind, a tagged array, an object with
a single key, a field.
-/

namespace IrDialects.Shape

variable {α : Type}

def array (what : String) : Json → Decoded (List Json)
  | .array items => .ok items
  | v => .error (Complaint.expected "array" what v.kind).issue

def object (what : String) : Json → Decoded Members
  | .object members => .ok members
  | v => .error (Complaint.expected "object" what v.kind).issue

def string (what : String) : Json → Decoded String
  | .string s => .ok s
  | v => .error (Complaint.expected "string" what v.kind).issue

def bool (what : String) : Json → Decoded Bool
  | .bool b => .ok b
  | v => .error (Complaint.expected "boolean" what v.kind).issue

/-- The integer that a spelling denotes: a numeral of 64 bits, or a floating-point number without a
fraction that is exact because it is at most `2 ^ 53`. -/
def wholeNumber? (spelling : String) : Option Int :=
  match Number.Whole.parse spelling with
  | .ok n => some n
  | .error _ =>
    match Number.Numeral.read spelling with
    | .value x => do
      let n ← x.toInt?
      if n.natAbs ≤ Nat.pow 2 53 then some n else none
    | _ => none

def int (what : String) : Json → Decoded Int
  | .number s =>
    match wholeNumber? s with
    | some n => .ok n
    | none => .error (Complaint.notWhole what s).issue
  | v => .error (Complaint.expected "number" what v.kind).issue

def float (what : String) : Json → Decoded Number.Binary64
  | .number s =>
    match Number.Numeral.read s with
    | .value x => .ok x
    | _ => .error (Complaint.notFloat what s).issue
  | v => .error (Complaint.expected "number" what v.kind).issue

/-- The tag and the fields of a tagged array. -/
def tagged (table : TagTable α) : Json → Decoded (α × List Json)
  | .array [] => .error (Complaint.emptyArray table.kind.name).issue
  | .array (.string s :: fields) =>
    match table.find? s with
    | some tag => .ok (tag, fields)
    | none => .error (((table.kind.unknownTag s).issueIn s).under "0")
  | .array (v :: _) =>
    .error ((Complaint.expected "string tag" table.kind.name v.kind).issue.under "0")
  | v => .error (Complaint.expected "tagged array" table.kind.name v.kind).issue

/-- The complaint about a tagged array with a wrong number of fields. -/
def fieldCount (tag : String) (wanted got : Nat) : Issue :=
  (Complaint.fieldCount tag wanted got).issueIn tag

/-- Checks the number of fields of a tagged array. -/
def arity (tag : String) (fields : List Json) (wanted : Nat) : Decoded Unit :=
  if fields.length = wanted then .ok () else .error (fieldCount tag wanted fields.length)

/-- The tag and the body of a node written as an object with its tag as the only key. A body that is
`null` has no members. -/
def wrapper (table : TagTable α) (name : α → String) : Json → Decoded (α × Members)
  | .object [(key, body)] =>
    match table.find? key with
    | none => .error ((table.kind.unknownTag key).issueIn key)
    | some tag =>
      match body with
      | .null => .ok (tag, [])
      | .object members => .ok (tag, members)
      | v => .error (((Complaint.expected "object body" (name tag) v.kind).issueIn (name tag)).under key)
  | .object members => .error (Complaint.wrapperKeys table.kind.name members.length).issue
  | v => .error (Complaint.expected "object wrapper" table.kind.name v.kind).issue

/-- A field that has to be there, with the key under which it stands. -/
def required (members : Members) (tag name : String) : Decoded (String × Json) :=
  match FieldName.find? members name with
  | some found => .ok found
  | none => .error ((Complaint.missingField tag name).issueIn tag)

end IrDialects.Shape
