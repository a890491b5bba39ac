import IrDialects.Text.Pieces
import IrDialects.Wire.Complaint

/-!
# Issues and faults

A decoding issue is a complaint with the place in the document where it arose and the tag of the node
around it. A fault is whatever a call can fail with: an issue, a plain message, or either of them
with context put in front.
-/

namespace IrDialects

/-- A complaint about a place in a document. -/
structure Issue where
  complaint : Complaint
  /-- The member keys and item indices that lead to the place, outermost first. -/
  path : List String := []
  /-- The tag of the enclosing node, or the empty text. -/
  tag : String := ""
deriving DecidableEq, Repr

namespace Issue

def kind (e : Issue) : IssueKind := e.complaint.kind

/-- A path segment in a pointer. Tildes come first, since slashes are written with one. -/
def escapeSegment (s : String) : List Char :=
  Text.replaceAll ['/'] ['~', '1'] (Text.replaceAll ['~'] ['~', '0'] s.toList)

/-- The path as a JSON pointer; the root is the empty text. -/
def pointer (e : Issue) : String :=
  if e.path.isEmpty then ""
  else String.ofList ('/' :: ['/'].intercalate (e.path.map escapeSegment))

def message (e : Issue) : String :=
  e.kind.words
    ++ (if e.path.isEmpty then "" else " at " ++ e.pointer)
    ++ (if e.tag.isEmpty then "" else " (tag " ++ Text.Quoted.quote e.tag ++ ")")
    ++ ": " ++ e.complaint.text

/-- The issue seen from one level further out. -/
def under (segment : String) (e : Issue) : Issue := { e with path := segment :: e.path }

def withTag (tag : String) (e : Issue) : Issue := { e with tag := tag }

/-- The issue with a tag, unless it has one already. -/
def tagged (tag : String) (e : Issue) : Issue := if e.tag.isEmpty then e.withTag tag else e

end Issue

/-- A complaint about the place at hand. -/
def Complaint.issue (c : Complaint) : Issue := { complaint := c }

/-- A complaint about the place at hand, inside a node with the given tag. -/
def Complaint.issueIn (c : Complaint) (tag : String) : Issue := { complaint := c, tag := tag }

abbrev Decoded (α : Type) := Except Issue α

namespace Decoded

/-- A decoder's result, seen from one level further out. -/
def under {α : Type} (segment : String) (r : Decoded α) : Decoded α := r.mapError (·.under segment)

/-- A decoder's result, seen from the sequence in which the value is item `i`. -/
def underIndex {α : Type} (i : Nat) (r : Decoded α) : Decoded α := under (toString i) r

/-- A decoder's result, inside a node with the given tag. -/
def tagged {α : Type} (tag : String) (r : Decoded α) : Decoded α := r.mapError (·.tagged tag)

end Decoded

/-- What a call can fail with. -/
inductive Fault where
  | issue (issue : Issue)
  | plain (text : String)
  | wrapped (context : String) (cause : Fault)
deriving DecidableEq, Repr

namespace Fault

/-- The message of a fault, context first. -/
def message : Fault → String
  | issue e => e.message
  | plain s => s
  | wrapped context cause => context ++ ": " ++ cause.message

/-- The decoding issue at the bottom of a fault. -/
def issue? : Fault → Option Issue
  | issue e => some e
  | plain _ => none
  | wrapped _ cause => cause.issue?

/-- The fault seen from one level further out: an issue gets a longer path and loses its context,
anything else gets the segment as context. -/
def under (segment : String) (f : Fault) : Fault :=
  match f.issue? with
  | some e => issue (e.under segment)
  | none => wrapped segment f

/-- The fault with a tag on its issue, unless the issue has one already. -/
def tagged (tag : String) (f : Fault) : Fault :=
  match f.issue? with
  | some e => if e.tag.isEmpty then issue (e.withTag tag) else f
  | none => f

/-- The issue of the fault with another tag, or the fault itself if it has none. -/
def withTag (tag : String) (f : Fault) : Fault :=
  match f.issue? with
  | some e => issue (e.withTag tag)
  | none => f

/-- The class of the issue of a fault. -/
def kind? (f : Fault) : Option IssueKind := f.issue?.map Issue.kind

end Fault

/-- What is done to a fault on its way out of a document. -/
inductive ContextStep where
  | under (segment : String)
  | tagged (tag : String)
  | withTag (tag : String)
  | wrapped (context : String)
deriving DecidableEq, Repr

/-- The fault after a step. -/
def ContextStep.apply : ContextStep → Fault → Fault
  | under segment => Fault.under segment
  | tagged tag => Fault.tagged tag
  | withTag tag => Fault.withTag tag
  | wrapped context => Fault.wrapped context

/-- The fault after steps, the first of which comes first. -/
def Fault.after (f : Fault) (steps : List ContextStep) : Fault :=
  steps.foldl (fun f step => step.apply f) f

end IrDialects
