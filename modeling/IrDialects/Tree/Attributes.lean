import IrDialects.Json.Basic
import IrDialects.Tree.Distribution

/-!
# Attributes

What the nodes of a tree carry besides their structure. Classic keeps any JSON value; V4 has a source
location and further information, and tells type nodes from value and pattern nodes.
-/

namespace IrDialects

/-- The attribute of a Classic node: a JSON value, unless there is nothing to say. -/
structure ClassicAttrs where
  raw : Option Json := none
deriving Repr, Inhabited

namespace ClassicAttrs

/-- The attribute that a JSON value stands for; `null`, `[]` and the empty object say nothing. -/
def ofJson (v : Json) : ClassicAttrs := if v.isEmpty then {} else ⟨some v⟩

def isEmpty (a : ClassicAttrs) : Bool := a.raw.isNone

end ClassicAttrs

/-- A span of a source file; lines and columns count from one. -/
structure SourceLocation where
  startLine : Int
  startColumn : Int
  endLine : Int
  endColumn : Int
deriving DecidableEq, Repr

/-- The attribute of a V4 type node. -/
structure TypeAttrs where
  source : Option SourceLocation := none
  constraints : Option Json := none
  extensions : Members := []
deriving Repr, Inhabited

def TypeAttrs.isEmpty (a : TypeAttrs) : Bool :=
  a.source.isNone && a.constraints.isNone && a.extensions.isEmpty

/-- The attribute of a V4 value or pattern node. -/
structure ValueAttrs where
  source : Option SourceLocation := none
  inferredType : Option Json := none
  extensions : Members := []
deriving Repr, Inhabited

def ValueAttrs.isEmpty (a : ValueAttrs) : Bool :=
  a.source.isNone && a.inferredType.isNone && a.extensions.isEmpty

abbrev ClassicType := TypeExpr ClassicAttrs

abbrev ClassicValue := Value ClassicAttrs ClassicAttrs

abbrev ClassicDocument := Document ClassicAttrs ClassicAttrs

abbrev V4Type := TypeExpr TypeAttrs

abbrev V4Value := Value TypeAttrs ValueAttrs

abbrev V4Document := Document TypeAttrs ValueAttrs

end IrDialects
