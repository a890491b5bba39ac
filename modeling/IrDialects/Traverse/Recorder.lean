import IrDialects.Traverse.Label
import IrDialects.Traverse.Visitor

/-!
# Recording visits

A visitor that writes down the label and the position of what it sees. It can be told to record types,
patterns and values only and to leave out what is below certain labels, and it can be told to stop.
-/

namespace IrDialects

variable {τ ν : Type}

/-- The label of a visit; a definition or specification shows its name. -/
def Visit.label : Visit τ ν → String
  | .moduleDefinition n _ => "ModuleDefinition(" ++ n.text ++ ")"
  | .moduleSpecification n _ => "ModuleSpecification(" ++ n.text ++ ")"
  | .typeDefinition n d => d.label ++ "(" ++ n.kebab ++ ")"
  | .typeSpecification n s => s.label ++ "(" ++ n.kebab ++ ")"
  | .valueDefinition n _ => "ValueDefinition(" ++ n.kebab ++ ")"
  | .valueSpecification n _ => "ValueSpecification(" ++ n.kebab ++ ")"
  | .type t => t.label
  | .pattern p => p.label
  | .value v => v.label

/-- Whether a visit is to a type, a pattern or a value. -/
def Visit.isNode : Visit τ ν → Bool
  | .type _ | .pattern _ | .value _ => true
  | _ => false

namespace Recorder

/-- What is recorded. -/
inductive Scope where
  /-- Everything. -/
  | all
  /-- Types, patterns and values, without what is below nodes with one of the labels. -/
  | nodes (pruned : List String)

/-- Whether a visit is recorded. -/
def Scope.covers : Scope → Visit τ ν → Bool
  | all, _ => true
  | nodes _, node => node.isNode

/-- Whether the parts of a visited node are visited. -/
def Scope.descends : Scope → Visit τ ν → Bool
  | all, _ => true
  | nodes pruned, node => !(node.isNode && pruned.contains node.label)

/-- A record of a node at a position. -/
def entry (label : String) (c : Cursor) : String := label ++ " " ++ c.text

/-- The message of a walk that was stopped at a position. -/
def stopMessage (position : String) : String := "stop at " ++ position

/-- The visitor that records; it fails after record number `limit`, unless that is zero. -/
def visitor (scope : Scope) (limit : Nat) : Visitor τ ν (Array String) String where
  visit node c log :=
    if scope.covers node then
      let log := log.push (entry node.label c)
      if log.size = limit then (.error (stopMessage c.text), log)
      else (.ok (scope.descends node), log)
    else (.ok (scope.descends node), log)

end Recorder

end IrDialects
