import IrDialects.Proofs.Classic.Document
import IrDialects.Proofs.V4.Attributes

/-!
# The Classic form of every kind of node

A tree of any kind is read back from its Classic form, as long as the codec reads back the attributes
that occur in it and its literals have a written form. Names, paths and the order and number of
siblings are free.
-/

namespace IrDialects.Classic

variable {τ ν : Type}

/-- The attributes that a codec reads back, and the literals that have a written form. -/
def written (c : Codec τ ν) : Conditions τ ν where
  typeAttrs a := c.typeAttrs.decode (c.typeAttrs.encode a) = .ok a
  valueAttrs a := c.valueAttrs.decode (c.valueAttrs.encode a) = .ok a
  literal := Literal.Writable

theorem readable_written (c : Codec τ ν) : Readable c (written c) :=
  ⟨fun _ h => h, fun _ h => h, fun _ h => h⟩

/-- Every tree whose parts meet the conditions is read back from its Classic form. -/
structure ReadsBack (c : Codec τ ν) (P : Conditions τ ν) : Prop where
  literal : ∀ l, P.literal l → decodeLiteral (encodeLiteral l) = .ok l
  type : ∀ t : TypeExpr τ, t.Satisfies P →
    decodeType c.typeAttrs (encodeType c.typeAttrs t) = .ok t
  pattern : ∀ p : Pattern ν, p.Satisfies P →
    decodePattern c.valueAttrs (encodePattern c.valueAttrs p) = .ok p
  value : ∀ v : Value τ ν, v.Satisfies P → decodeValue c (encodeValue c v) = .ok v
  body : ∀ b : ValueBody τ ν, b.Satisfies P → decodeBody c (encodeBody c b) = .ok b
  definition : ∀ d : ValueDefinition τ ν, d.Satisfies P →
    decodeDefinition c (encodeDefinition c d) = .ok d
  typeDefinition : ∀ d : TypeDefinition τ, d.Satisfies P →
    decodeTypeDefinition c.typeAttrs (encodeTypeDefinition c.typeAttrs d) = .ok d
  typeSpecification : ∀ s : TypeSpecification τ, s.Satisfies P →
    decodeTypeSpecification c.typeAttrs (encodeTypeSpecification c.typeAttrs s) = .ok s
  valueSpecification : ∀ s : ValueSpecification τ, s.Satisfies P →
    decodeValueSpecification c.typeAttrs (encodeValueSpecification c.typeAttrs s) = .ok s
  module : ∀ m : ModuleDefinition τ ν, m.Satisfies P → decodeModule c (encodeModule c m) = .ok m
  moduleSpec : ∀ m : ModuleSpecification τ, m.Satisfies P →
    decodeModuleSpec c.typeAttrs (encodeModuleSpec c.typeAttrs m) = .ok m
  package : ∀ p : PackageDefinition τ ν, p.Satisfies P →
    decodePackage c (encodePackage c p) = .ok p
  packageSpec : ∀ p : PackageSpecification τ, p.Satisfies P →
    decodePackageSpec c.typeAttrs (encodePackageSpec c.typeAttrs p) = .ok p
  distribution : ∀ d : Distribution τ ν, d.Satisfies P →
    decodeDistribution c (encodeDistribution c d) = .ok d
  document : ∀ d : Document τ ν, IsVersion d.version → d.distribution.Satisfies P →
    decodeDocument c (encodeDocument c d) = .ok d

theorem Readable.readsBack {c : Codec τ ν} {P : Conditions τ ν} (h : Readable c P) :
    ReadsBack c P where
  literal _ hl := decodeLiteral_encodeLiteral (h.literal _ hl)
  type _ := decodeType_encodeType h
  pattern _ := decodePattern_encodePattern h
  value _ := decodeValue_encodeValue h
  body _ := decodeBody_encodeBody h
  definition _ := decodeDefinition_encodeDefinition h
  typeDefinition _ := decodeTypeDefinition_encodeTypeDefinition h
  typeSpecification _ := decodeTypeSpecification_encodeTypeSpecification h
  valueSpecification _ := decodeValueSpecification_encodeValueSpecification h
  module _ := decodeModule_encodeModule h
  moduleSpec _ := decodeModuleSpec_encodeModuleSpec h
  package _ := decodePackage_encodePackage h
  packageSpec _ := decodePackageSpec_encodePackageSpec h
  distribution _ := decodeDistribution_encodeDistribution h
  document _ := decodeDocument_encodeDocument h

/-- An attribute that is kept as it is comes back unless it looks like the absence of one. -/
theorem plainAttrs_reads_back {a : ClassicAttrs} :
    plainAttrs.decode (plainAttrs.encode a) = .ok a ↔ ∀ v ∈ a.raw, v.isEmpty = false := by
  obtain ⟨_ | v⟩ := a
  · simp [plainAttrs, ClassicAttrs.ofJson, Json.isEmpty]
  · by_cases hv : v.isEmpty = true
    · simp [plainAttrs, ClassicAttrs.ofJson, hv]
    · simp [plainAttrs, ClassicAttrs.ofJson, hv]

/-- Every tree is read back from its Classic form, whatever the codec of attributes, if the codec
reads back the attributes that occur; the plain codec and the two codecs of V4 attributes do so for
every attribute that differs from a missing one and has numbers of 64 bits. -/
theorem every_node_reads_back :
    (∀ {τ ν : Type} (c : Codec τ ν), ReadsBack c (written c)) ∧
    (∀ a : ClassicAttrs, (∀ v ∈ a.raw, v.isEmpty = false) →
      plainAttrs.decode (plainAttrs.encode a) = .ok a) ∧
    (∀ a : TypeAttrs, a.Readable →
      V4.classicForm.typeAttrs.decode (V4.classicForm.typeAttrs.encode a) = .ok a) ∧
    (∀ a : ValueAttrs, a.Readable →
      V4.classicForm.valueAttrs.decode (V4.classicForm.valueAttrs.encode a) = .ok a) :=
  ⟨fun c => (readable_written c).readsBack, fun _ => plainAttrs_reads_back.2,
    fun _ => V4.decodeTypeAttrs_encodeTypeAttrs, fun _ => V4.decodeValueAttrs_encodeValueAttrs⟩

/-- A library whose only value is a function with a condition, an integer and an attribute. -/
def smallLibrary : ClassicDocument where
  version := .number 2
  distribution :=
    .library ⟨[⟨["Foo"]⟩]⟩ []
      ⟨[⟨⟨[⟨["foo"]⟩]⟩, .everyone,
        { values := [⟨⟨["bar"]⟩, .packageOnly, "", .mk [⟨⟨[]⟩, ⟨some (.string "a")⟩, .unit {}⟩]
            (.unit {}) (.expression (.ifThenElse {} (.variable {} ⟨[]⟩)
              (.literal {} (.integer (-1))) (.literal {} (.bool true))))⟩] }⟩]⟩

theorem smallLibrary_reads_back :
    decodeDocument codec (encodeDocument codec smallLibrary) = .ok smallLibrary := by
  have hnone : (written codec).valueAttrs {} := every_node_reads_back.2.1 {} (by simp)
  have hsome : (written codec).valueAttrs ⟨some (.string "a")⟩ :=
    every_node_reads_back.2.1 _ (by simp [Json.isEmpty])
  have htype : TypeExpr.Satisfies (written codec) (.unit {}) := .unit hnone
  have hint : Number.Whole.InRange (-1) := by constructor <;> omega
  have hbody : Value.Satisfies (written codec) (.ifThenElse {} (.variable {} ⟨[]⟩)
      (.literal {} (.integer (-1))) (.literal {} (.bool true))) :=
    .ifThenElse hnone (.variable hnone trivial) (.literal hnone hint) (.literal hnone trivial)
  refine (every_node_reads_back.1 codec).document smallLibrary ⟨2, by omega, by omega, rfl⟩
    (.library trivial ⟨⟨by simp, trivial⟩, by simp⟩ ⟨⟨by simp [written], trivial⟩, ?_⟩)
  simp only [List.mem_singleton, forall_eq]
  refine ⟨⟨by simp, trivial⟩, by simp, ⟨by simp [written], trivial⟩, ?_⟩
  simp only [List.mem_singleton, forall_eq]
  refine ⟨⟨⟨by simp [written], trivial⟩, ?_, htype, by simp [ValueDefinition.body]⟩, ?_⟩
  · simpa [ValueDefinition.inputs] using ⟨hsome, htype⟩
  · rintro _ ⟨⟩
    exact hbody

end IrDialects.Classic
