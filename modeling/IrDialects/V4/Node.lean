import IrDialects.Naming.Path
import IrDialects.Wire.Sequence

/-!
# Nodes of V4 documents

A node is an object with its tag as the only key, or a plain object that needs no tag. Fields are
looked up by name in the body; a writer may leave out what is empty.
-/

namespace IrDialects.V4

/-- Whether empty optional fields are written. -/
inductive Mode where
  | compact
  | expanded
deriving DecidableEq, Repr

/-- Whether empty optional fields are written. -/
def Mode.isExpanded : Mode → Bool
  | .compact => false
  | .expanded => true

/-- The mode that a list of choices amounts to: the last one counts, compact is the default. -/
def Mode.ofChoices (choices : List Mode) : Mode := choices.getLast?.getD .compact

/-- The members of a node. The label is its tag, or a description if it has none. -/
structure Node where
  label : String
  members : Members
  hasTag : Bool

variable {α : Type}

namespace Node

/-- An issue with the value under `key`, seen from the node. -/
def located (n : Node) (key : String) (r : Decoded α) : Decoded α :=
  let r := r.under key
  if n.hasTag then (r.under n.label).tagged n.label else r

/-- The issue that a field is missing. -/
def missing (n : Node) (name : String) : Issue :=
  let c := Complaint.missingField n.label name
  if n.hasTag then (c.issueIn n.label).under n.label else c.issue

/-- Reads a field that has to be there. -/
def field (n : Node) (name : String) (decode : Json → Decoded α) : Decoded α :=
  match FieldName.find? n.members name with
  | none => .error (n.missing name)
  | some (key, v) => n.located key (decode v)

/-- Reads a field that may be missing or `null`. -/
def optional (n : Node) (name : String) (default : α) (decode : Json → Decoded α) : Decoded α :=
  match FieldName.find? n.members name with
  | none => .ok default
  | some (_, .null) => .ok default
  | some (key, v) => n.located key (decode v)

end Node

/-- The tag and the contents of a tagged node. -/
def unwrap (table : TagTable α) (name : α → String) (v : Json) : Decoded (α × Node) := do
  let (tag, members) ← Shape.wrapper table name v
  return (tag, ⟨name tag, members, true⟩)

/-- A plain object, described by `what`. -/
def record (what : String) (v : Json) : Decoded Node := do
  return ⟨what, ← Shape.object what v, false⟩

def list (decode : Json → Decoded α) (v : Json) : Decoded (List α) := Shape.list "list" decode v

/-- Reads members one by one, in document order. -/
def eachMember (decode : String → Json → Decoded α) : Members → Decoded (List α)
  | [] => .ok []
  | (k, v) :: ms => do
    let x ← (decode k v).under k
    let xs ← eachMember decode ms
    return x :: xs

/-- Reads an object whose keys are names of its entries. -/
def keyed (decode : String → Json → Decoded α) (v : Json) : Decoded (List α) := do
  eachMember decode (← Shape.object "keyed entries" v)

def string (v : Json) : Decoded String := Shape.string "string" v

def wrapped (tag : String) (members : Members) : Json := .object [(tag, .object members)]

/-- A member that is left out when it is empty and the mode is compact. -/
def member (m : Mode) (key : String) (v : Json) (empty : Bool) : Members :=
  if empty && !m.isExpanded then [] else [(key, v)]

def docMember (m : Mode) (doc : String) : Members := member m "doc" (.string doc) doc.isEmpty

end IrDialects.V4
