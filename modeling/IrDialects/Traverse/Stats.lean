import IrDialects.Traverse.Observer

/-!
# Counting nodes
-/

namespace IrDialects

/-- How many nodes of each kind there are. -/
structure Stats where
  /-- Modules, as definitions and as specifications. -/
  modules : Nat := 0
  /-- Definitions and specifications of types. -/
  types : Nat := 0
  /-- Definitions and specifications of values, those bound by `let` included. -/
  values : Nat := 0
  typeNodes : Nat := 0
  patternNodes : Nat := 0
  valueNodes : Nat := 0
deriving DecidableEq, Repr

namespace Stats

/-- The number of nodes of types, patterns and values. -/
def nodes (s : Stats) : Nat := s.typeNodes + s.patternNodes + s.valueNodes

variable {τ ν : Type}

/-- The callbacks that count; they never fail. -/
def counter : Observer τ ν Stats Empty where
  moduleDefinition := some fun _ _ _ s => (.ok (), { s with modules := s.modules + 1 })
  moduleSpecification := some fun _ _ _ s => (.ok (), { s with modules := s.modules + 1 })
  typeDefinition := some fun _ _ _ s => (.ok (), { s with types := s.types + 1 })
  typeSpecification := some fun _ _ _ s => (.ok (), { s with types := s.types + 1 })
  valueDefinition := some fun _ _ _ s => (.ok (), { s with values := s.values + 1 })
  valueSpecification := some fun _ _ _ s => (.ok (), { s with values := s.values + 1 })
  type := some fun _ _ s => (.ok (), { s with typeNodes := s.typeNodes + 1 })
  pattern := some fun _ _ s => (.ok (), { s with patternNodes := s.patternNodes + 1 })
  value := some fun _ _ s => (.ok (), { s with valueNodes := s.valueNodes + 1 })

/-- The counts of a document, the interfaces it depends on included. -/
def ofDocument (d : Document τ ν) : Stats := ((counter.visitor.document d).outcome {}).2

def ofValue (v : Value τ ν) : Stats := ((counter.visitor.value v).outcome {}).2

end Stats

end IrDialects
