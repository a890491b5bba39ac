import IrDialects.Wire.Tag

/-!
# Canonical spellings of tags

Every tag is found in its table under the spelling in which it is written, although spellings are
compared without regard to case, hyphens and underscores.
-/

namespace IrDialects

theorem LiteralTag.find?_name (t : LiteralTag) : table.find? t.name = some t := by
  cases t <;> rfl

/-- The older tag of integers is still read. -/
theorem LiteralTag.find?_wholeNumber : table.find? "WholeNumberLiteral" = some .integer := by
  rfl

theorem TypeTag.find?_name (t : TypeTag) : table.find? t.name = some t := by
  cases t <;> rfl

theorem PatternTag.find?_name (t : PatternTag) : table.find? t.name = some t := by
  cases t <;> rfl

theorem ValueTag.find?_name (t : ValueTag) : table.find? t.name = some t := by
  cases t <;> rfl

theorem BodyTag.find?_name (t : BodyTag) : table.find? t.name = some t := by
  cases t <;> rfl

theorem TypeDefinitionTag.find?_name (t : TypeDefinitionTag) : table.find? t.name = some t := by
  cases t <;> rfl

theorem TypeSpecificationTag.find?_name (t : TypeSpecificationTag) :
    table.find? t.name = some t := by
  cases t <;> rfl

theorem DistributionTag.find?_name (t : DistributionTag) : table.find? t.name = some t := by
  cases t <;> rfl

theorem HoleReasonTag.find?_name (t : HoleReasonTag) : table.find? t.name = some t := by
  cases t <;> rfl

theorem IncompletenessTag.find?_name (t : IncompletenessTag) : table.find? t.name = some t := by
  cases t <;> rfl

theorem NativeHintTag.find?_name (t : NativeHintTag) : table.find? t.name = some t := by
  cases t <;> rfl

/-- No spelling of the tag of a value spells the tag of a body. -/
theorem BodyTag.find?_eq_none {s : String} {t : ValueTag} (h : ValueTag.table.find? s = some t) :
    BodyTag.table.find? s = none := by
  have hdisjoint : ∀ p ∈ ValueTag.table.index, BodyTag.table.index.lookup p.1 = none := by decide
  obtain ⟨before, after, he, -⟩ := List.lookup_eq_some_iff.1 h
  exact hdisjoint (TagTable.fold s, t) (by simp [he])

/-- No value is written with the tag of a body, so a bare value is not taken for one. -/
theorem BodyTag.find?_valueTag (t : ValueTag) : BodyTag.table.find? t.name = none :=
  find?_eq_none (ValueTag.find?_name t)

end IrDialects
