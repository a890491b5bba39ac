import IrDialects.Proofs.Json.Image
import IrDialects.Proofs.Wire.Decoding
import IrDialects.V4.Attributes

/-!
# Attributes in V4 documents

An attribute is read back if its source location has numbers of 64 bits and the value it keeps is not
`null`. Members are found under their hyphenated names, which is how they are written.
-/

namespace IrDialects

namespace FieldName

variable {ms : Members} {name : String}

theorem find?_of_get? {v : Json} (h : Json.get? ms name = some v) :
    find? ms name = some (name, v) := by
  rw [find?, h]

theorem find?_eq_none (h : Json.get? ms name = none)
    (hc : ∀ key ∈ camel? name, Json.get? ms key = none) : find? ms name = none := by
  rw [find?, h]
  cases hk : camel? name with
  | none => rfl
  | some key => simp [hc key hk]

theorem find?_nil (name : String) : find? [] name = none :=
  find?_eq_none rfl fun _ _ => rfl

/-- A field that is found is one of the members. -/
theorem mem_of_find? {key : String} {v : Json} (h : find? ms name = some (key, v)) :
    (key, v) ∈ ms := by
  rw [find?] at h
  split at h
  · rename_i hv
    cases h
    exact Json.mem_of_get? hv
  · obtain ⟨k, -, h⟩ := Option.bind_eq_some_iff.1 h
    obtain ⟨w, hw, h⟩ := Option.bind_eq_some_iff.1 h
    cases h
    exact Json.mem_of_get? hw

/-- A field is looked up under its own name first and then in camel case. -/
theorem exists_find?_eq_some {key : String} {v : Json} (hc : camel? name = some key) :
    (∃ k, find? ms name = some (k, v)) ↔ (Json.get? ms name).or (Json.get? ms key) = some v := by
  rw [find?]
  cases Json.get? ms name with
  | some w => simp
  | none => cases hk : Json.get? ms key <;> simp [hc, hk]

theorem find?_eq_map (hc : camel? name = some name) :
    find? ms name = (Json.get? ms name).map (name, ·) := by
  rw [find?]
  cases h : Json.get? ms name <;> simp [hc, h]

end FieldName

/-- The numbers of a source location have 64 bits. -/
structure SourceLocation.InRange (l : SourceLocation) : Prop where
  startLine : Number.Whole.InRange l.startLine
  startColumn : Number.Whole.InRange l.startColumn
  endLine : Number.Whole.InRange l.endLine
  endColumn : Number.Whole.InRange l.endColumn

namespace SourceLocation

/-- An object has a whole number as a field with two spellings. -/
def PartIn (members : Members) (name camel : String) (n : Int) : Prop :=
  ∃ s, (Json.get? members name).or (Json.get? members camel) = some (.number s) ∧
    Shape.wholeNumber? s = some n

/-- An object has all parts of a source location. -/
structure WrittenIn (l : SourceLocation) (members : Members) : Prop where
  startLine : PartIn members "start-line" "startLine" l.startLine
  startColumn : PartIn members "start-column" "startColumn" l.startColumn
  endLine : PartIn members "end-line" "endLine" l.endLine
  endColumn : PartIn members "end-column" "endColumn" l.endColumn

theorem locationPart_eq_ok {ms : Members} {name key : String} {n : Int}
    (hc : FieldName.camel? name = some key) :
    V4.locationPart ms name = .ok n ↔ PartIn ms name key n := by
  rw [PartIn, V4.locationPart]
  simp only [← FieldName.exists_find?_eq_some hc]
  cases FieldName.find? ms name with
  | none => simp
  | some found =>
    obtain ⟨k, v⟩ := found
    rw [Decoded.under_eq_ok, Shape.int_eq_ok]
    constructor
    · rintro ⟨s, rfl, hs⟩
      exact ⟨s, ⟨k, rfl⟩, hs⟩
    · rintro ⟨s, ⟨_, ⟨⟩⟩, hs⟩
      exact ⟨s, rfl, hs⟩

theorem decodeLocation_eq_ok {v : Json} {l : SourceLocation} :
    V4.decodeLocation v = .ok l ↔ ∃ ms, v = .object ms ∧ l.WrittenIn ms := by
  constructor
  · intro h
    simp only [V4.decodeLocation, Decoded.bind_eq_ok, Decoded.pure_eq] at h
    obtain ⟨ms, hms, a, ha, b, hb, c, hc, d, hd, ⟨⟩⟩ := h
    exact ⟨ms, Shape.object_eq_ok.1 hms, (locationPart_eq_ok rfl).1 ha, (locationPart_eq_ok rfl).1 hb,
      (locationPart_eq_ok rfl).1 hc, (locationPart_eq_ok rfl).1 hd⟩
  · rintro ⟨ms, rfl, h⟩
    rw [V4.decodeLocation, Shape.object, Decoded.ok_bind,
      (locationPart_eq_ok rfl).2 h.startLine, Decoded.ok_bind,
      (locationPart_eq_ok rfl).2 h.startColumn, Decoded.ok_bind,
      (locationPart_eq_ok rfl).2 h.endLine, Decoded.ok_bind,
      (locationPart_eq_ok rfl).2 h.endColumn]
    rfl

end SourceLocation

/-- The attribute of a type node can be told from one that lacks a part of it. -/
structure TypeAttrs.Readable (a : TypeAttrs) : Prop where
  source : ∀ l ∈ a.source, l.InRange
  constraints : ∀ v ∈ a.constraints, v ≠ .null

/-- The attribute of a value node can be told from one that lacks a part of it. -/
structure ValueAttrs.Readable (a : ValueAttrs) : Prop where
  source : ∀ l ∈ a.source, l.InRange
  inferredType : ∀ v ∈ a.inferredType, v ≠ .null

/-- The attribute is read back from a text: what it keeps as it is can be written. -/
structure TypeAttrs.Written (a : TypeAttrs) : Prop extends a.Readable where
  clean : ∀ v ∈ a.constraints, v.Clean
  extensions : (Json.object a.extensions).Clean

/-- The attribute is read back from a text: what it keeps as it is can be written. -/
structure ValueAttrs.Written (a : ValueAttrs) : Prop extends a.Readable where
  clean : ∀ v ∈ a.inferredType, v.Clean
  extensions : (Json.object a.extensions).Clean

theorem TypeAttrs.written_empty : TypeAttrs.Written {} :=
  ⟨⟨by simp, by simp⟩, by simp, .object List.nodup_nil (by simp)⟩

theorem ValueAttrs.written_empty : ValueAttrs.Written {} :=
  ⟨⟨by simp, by simp⟩, by simp, .object List.nodup_nil (by simp)⟩

namespace V4

theorem locationPart_of_get? {ms : Members} {name : String} {n : Int}
    (h : Json.get? ms name = some (.ofInt n)) (hn : Number.Whole.InRange n) :
    locationPart ms name = .ok n := by
  rw [locationPart, FieldName.find?_of_get? h]
  simp [Shape.int_ofInt hn]

theorem decodeLocation_encodeLocation {l : SourceLocation} (h : l.InRange) :
    decodeLocation (encodeLocation l) = .ok l := by
  rw [decodeLocation, encodeLocation, Shape.object, Decoded.ok_bind,
    locationPart_of_get? (by simp) h.startLine, Decoded.ok_bind,
    locationPart_of_get? (by simp) h.startColumn, Decoded.ok_bind,
    locationPart_of_get? (by simp) h.endLine, Decoded.ok_bind,
    locationPart_of_get? (by simp) h.endColumn]
  rfl

theorem attrMembers_object (ms : Members) : attrMembers (.object ms) = .ok ms := by
  cases ms <;> rfl

section Members

variable {ms : Members}

theorem sourceOf_of_get? {source : Option SourceLocation} (hs : ∀ l ∈ source, l.InRange)
    (h : Json.get? ms "source" = source.map encodeLocation) : sourceOf ms = .ok source := by
  cases source with
  | none =>
    have hc : FieldName.camel? "source" = some "source" := rfl
    have hf : FieldName.find? ms "source" = none :=
      FieldName.find?_eq_none h (by simpa [hc] using h)
    rw [sourceOf, hf]
  | some l =>
    rw [sourceOf, FieldName.find?_of_get? h]
    change ((some <$> (decodeLocation (encodeLocation l)).under "source") : Decoded _) = _
    rw [decodeLocation_encodeLocation (hs l rfl)]
    rfl

theorem keptMember_of_get? {name key : String} {kept : Option Json} (hk : ∀ v ∈ kept, v ≠ .null)
    (hc : FieldName.camel? name = some key) (h : Json.get? ms name = kept)
    (hkey : kept = none → Json.get? ms key = none) : keptMember ms name = kept := by
  cases kept with
  | none =>
    have hf : FieldName.find? ms name = none :=
      FieldName.find?_eq_none h (by simpa [hc] using hkey rfl)
    rw [keptMember, hf]
  | some v =>
    rw [keptMember, FieldName.find?_of_get? h]
    split
    · contradiction
    · rename_i hn
      cases hn
      exact absurd rfl (hk _ rfl)
    · rename_i hv
      cases hv
      rfl

/-- Extensions that are empty are not written. -/
theorem extensionsOf_of_get? {extensions : Members}
    (h : Json.get? ms "extensions" = if extensions.isEmpty then none else some (.object extensions)) :
    extensionsOf ms = .ok extensions := by
  cases extensions with
  | nil =>
    have hc : FieldName.camel? "extensions" = some "extensions" := rfl
    have hf : FieldName.find? ms "extensions" = none :=
      FieldName.find?_eq_none h (by simpa [hc] using h)
    rw [extensionsOf, hf]
  | cons m extensions =>
    rw [extensionsOf, FieldName.find?_of_get? h]
    rfl

end Members

theorem decodeTypeAttrs_encodeTypeAttrs {a : TypeAttrs} (h : a.Readable) :
    decodeTypeAttrs (encodeTypeAttrs a) = .ok a := by
  obtain ⟨source, constraints, extensions⟩ := a
  have hc : FieldName.camel? "constraints" = some "constraints" := rfl
  rw [decodeTypeAttrs, encodeTypeAttrs, attrObject, attrMembers_object, Decoded.ok_bind,
    sourceOf_of_get? h.source, Decoded.ok_bind, keptMember_of_get? h.constraints hc,
    extensionsOf_of_get?]
  · rfl
  · cases source <;> cases constraints <;> cases extensions <;> simp
  · cases source <;> cases constraints <;> cases extensions <;> simp
  · cases source <;> cases constraints <;> cases extensions <;> simp
  · cases source <;> cases constraints <;> cases extensions <;> simp

theorem decodeValueAttrs_encodeValueAttrs {a : ValueAttrs} (h : a.Readable) :
    decodeValueAttrs (encodeValueAttrs a) = .ok a := by
  obtain ⟨source, inferredType, extensions⟩ := a
  have hc : FieldName.camel? "inferred-type" = some "inferredType" := rfl
  rw [decodeValueAttrs, encodeValueAttrs, attrObject, attrMembers_object, Decoded.ok_bind,
    sourceOf_of_get? h.source, Decoded.ok_bind, keptMember_of_get? h.inferredType hc,
    extensionsOf_of_get?]
  · rfl
  · cases source <;> cases inferredType <;> cases extensions <;> simp
  · cases source <;> cases inferredType <;> cases extensions <;> simp
  · cases source <;> cases inferredType <;> cases extensions <;> simp
  · cases source <;> cases inferredType <;> cases extensions <;> simp

end V4

end IrDialects
