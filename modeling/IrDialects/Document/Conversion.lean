import IrDialects.V4.Attributes

/-!
# Conversion between dialects

The two dialects carry the same trees and differ in attributes. Of an attribute, the source location
is the only part that both know: it is converted, and everything else is dropped. A converted document
gets the default version of its new dialect.
-/

namespace IrDialects

namespace ClassicAttrs

/-- The source location of a Classic attribute: a complete location in the member `source`. -/
def source? (a : ClassicAttrs) : Option SourceLocation :=
  match a.raw with
  | some (.object members) =>
    (FieldName.find? members "source").bind fun (_, v) => (V4.decodeLocation v).toOption
  | _ => none

/-- The Classic attribute that says where a node comes from. -/
def ofSource : Option SourceLocation → ClassicAttrs
  | none => {}
  | some l =>
    ⟨some (.object [("source", .object [("startLine", .ofInt l.startLine),
      ("startColumn", .ofInt l.startColumn), ("endLine", .ofInt l.endLine),
      ("endColumn", .ofInt l.endColumn)])])⟩

/-- The attribute of the same type node in V4. -/
def toType (a : ClassicAttrs) : TypeAttrs := { source := a.source? }

/-- The attribute of the same value or pattern node in V4. -/
def toValue (a : ClassicAttrs) : ValueAttrs := { source := a.source? }

end ClassicAttrs

/-- The attribute of the same node in Classic. -/
def TypeAttrs.toClassic (a : TypeAttrs) : ClassicAttrs := .ofSource a.source

/-- The attribute of the same node in Classic. -/
def ValueAttrs.toClassic (a : ValueAttrs) : ClassicAttrs := .ofSource a.source

namespace Convert

def typeToV4 (t : ClassicType) : V4Type := t.mapAttrs ClassicAttrs.toType

def typeToClassic (t : V4Type) : ClassicType := t.mapAttrs TypeAttrs.toClassic

def valueToV4 (v : ClassicValue) : V4Value := v.mapAttrs ClassicAttrs.toType ClassicAttrs.toValue

def valueToClassic (v : V4Value) : ClassicValue := v.mapAttrs TypeAttrs.toClassic ValueAttrs.toClassic

def toV4 (d : ClassicDocument) : V4Document :=
  { d.mapAttrs ClassicAttrs.toType ClassicAttrs.toValue with version := .defaultV4 }

def toClassic (d : V4Document) : ClassicDocument :=
  { d.mapAttrs TypeAttrs.toClassic ValueAttrs.toClassic with version := .defaultClassic }

end Convert

end IrDialects
