import IrDialects.Wire.Shape

/-!
# Sequences

Decoding the items of an array one after the other. The first item that fails decides, and the issue
names its index.
-/

namespace IrDialects.Shape

variable {α : Type}

/-- The decoded items of a sequence, counted from `i`. -/
def each (decode : Json → Decoded α) : Nat → List Json → Decoded (List α)
  | _, [] => .ok []
  | i, v :: vs => do
    let x ← (decode v).underIndex i
    let xs ← each decode (i + 1) vs
    return x :: xs

def list (what : String) (decode : Json → Decoded α) (v : Json) : Decoded (List α) := do
  each decode 0 (← array what v)

/-- The two elements of an array such as `[name, value]`. -/
def pair (what : String) (v : Json) : Decoded (Json × Json) := do
  match ← array what v with
  | [a, b] => return (a, b)
  | vs => throw (Complaint.elementCount what 2 vs.length).issue

/-- The text of an optional member; a missing one and `null` are the empty text. -/
def optionalString (members : Members) (key : String) : Decoded String :=
  match Json.get? members key with
  | none => .ok ""
  | some .null => .ok ""
  | some v => (string key v).under key

/-- A member that has to be there, inside something described by `what`. -/
def member (what key : String) (members : Members) : Decoded Json :=
  match Json.get? members key with
  | some v => .ok v
  | none => .error (Complaint.missingField what key).issue

def zero (tag : String) : List Json → Decoded Unit
  | [] => .ok ()
  | fs => .error (fieldCount tag 0 fs.length)

def one (tag : String) : List Json → Decoded Json
  | [a] => .ok a
  | fs => .error (fieldCount tag 1 fs.length)

def two (tag : String) : List Json → Decoded (Json × Json)
  | [a, b] => .ok (a, b)
  | fs => .error (fieldCount tag 2 fs.length)

def three (tag : String) : List Json → Decoded (Json × Json × Json)
  | [a, b, c] => .ok (a, b, c)
  | fs => .error (fieldCount tag 3 fs.length)

def four (tag : String) : List Json → Decoded (Json × Json × Json × Json)
  | [a, b, c, d] => .ok (a, b, c, d)
  | fs => .error (fieldCount tag 4 fs.length)

/-- The result for field `i` of a tagged array, where the tag itself is item `0`. -/
def slot (tag : String) (i : Nat) (r : Decoded α) : Decoded α := (r.underIndex i).tagged tag

end IrDialects.Shape
