import IrDialects.Scenario.Basic
import IrDialects.Traverse.Stats

/-!
# Statistics that scenarios can name
-/

namespace IrDialects

/-- A count of a document's nodes. -/
inductive Statistic where
  | modules | types | values | typeNodes | patternNodes | valueNodes | nodes
deriving DecidableEq, Repr

namespace Statistic

def table : List (String × Statistic) :=
  [("modules", modules), ("types", types), ("values", values), ("typeNodes", typeNodes),
    ("patternNodes", patternNodes), ("valueNodes", valueNodes), ("nodes", nodes)]

def ofName? (s : String) : Option Statistic := table.lookup s

def value : Statistic → Stats → Nat
  | modules, s => s.modules
  | types, s => s.types
  | values, s => s.values
  | typeNodes, s => s.typeNodes
  | patternNodes, s => s.patternNodes
  | valueNodes, s => s.valueNodes
  | nodes, s => s.nodes

end Statistic

end IrDialects
