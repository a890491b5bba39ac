import IrDialects.Proofs.Classic.Document
import IrDialects.Proofs.Tree.Replacement
import IrDialects.Proofs.V4.Value
import IrDialects.V4.Document

/-!
# Modules, packages and documents of V4

Definitions, specifications, modules, packages, distributions and documents whose names are canonical
are read back from their V4 form, in both modes.
-/

namespace IrDialects.V4

variable {α : Type} {m : Mode}

theorem accessControlled_encodeAccess {decode : Json → Decoded α} {v : Json} {x : α}
    (h : decode v = .ok x) (a : Access) :
    accessControlled decode (Classic.encodeAccess a v) = .ok (a, x) := by
  have ha := Classic.decodeAccess_name a
  refine Decoded.bind_eq_ok.2 ⟨_, rfl, ?_⟩
  refine Decoded.bind_eq_ok.2 ⟨a, field_of_get? (by simp) ha, ?_⟩
  exact Decoded.bind_eq_ok.2 ⟨x, field_of_get? (by simp) h, rfl⟩

theorem decodeConstructor_encodeConstructor {k : Constructor TypeAttrs} (hk : k.Satisfies legible) :
    decodeConstructor (encodeConstructor m k) = .ok k := by
  have hname := decodeName_encodeName hk.name
  have hargs : ∀ f ∈ k.arguments, namedPair "constructor argument" decodeType
      (.array [encodeName f.1, encodeType m f.2]) = .ok f := fun f hf =>
    namedPair_pair "constructor argument" (hk.names f hf) (decodeType_encodeType m (hk.types f hf))
  refine Decoded.bind_eq_ok.2 ⟨_, rfl, ?_⟩
  refine Decoded.bind_eq_ok.2 ⟨k.name, field_of_get? (by simp) hname, ?_⟩
  refine Decoded.bind_eq_ok.2 ⟨k.arguments, optional_args hargs (m := m) ?_, rfl⟩
  simp [encodeArguments]

theorem list_decodeConstructor {ks : List (Constructor TypeAttrs)}
    (hks : ∀ k ∈ ks, k.Satisfies legible) :
    list decodeConstructor (.array (ks.map (encodeConstructor m))) = .ok ks :=
  list_map fun k hk => decodeConstructor_encodeConstructor (hks k hk)

theorem camel?_partial : FieldName.camel? "partial" = some "partial" := rfl

/-- Type parameters are always written. -/
theorem optional_params {n : Node} {ps : List Name} (hps : ∀ p ∈ ps, p.Canonical)
    (h : Json.get? n.members "type-params" = some (encodeParams ps)) :
    n.optional "type-params" [] (list decodeName) = .ok ps :=
  optional_of_get? h (by simp [encodeParams]) (list_map fun p hp => decodeName_encodeName (hps p hp))

theorem decodeTypeDefinition_encodeTypeDefinition {d : TypeDefinition TypeAttrs}
    (hd : d.Satisfies legible) : decodeTypeDefinition (encodeTypeDefinition m d) = .ok d := by
  cases hd with
  | @synonym ps t hps ht =>
    have ht' := decodeType_encodeType m ht
    refine Decoded.bind_eq_ok.2 ⟨_, unwrap_wrapped (TypeDefinitionTag.find?_name .synonym) _, ?_⟩
    refine Decoded.bind_eq_ok.2 ⟨ps, optional_params hps (by simp), ?_⟩
    exact Decoded.bind_eq_ok.2 ⟨t, field_of_get? (by simp) ht', rfl⟩
  | @custom ps a ks hps hks =>
    have hks' := accessControlled_encodeAccess (list_decodeConstructor (m := m) hks) a
    refine Decoded.bind_eq_ok.2 ⟨_, unwrap_wrapped (TypeDefinitionTag.find?_name .custom) _, ?_⟩
    refine Decoded.bind_eq_ok.2 ⟨ps, optional_params hps (by simp), ?_⟩
    exact Decoded.bind_eq_ok.2 ⟨(a, ks), field_of_get? (by simp) hks', rfl⟩
  | @incomplete ps i t hps hi ht =>
    have hi' := decodeIncompleteness_encodeIncompleteness hi
    refine Decoded.bind_eq_ok.2
      ⟨_, unwrap_wrapped (TypeDefinitionTag.find?_name .incomplete) _, ?_⟩
    refine Decoded.bind_eq_ok.2 ⟨ps, optional_params hps (by simp), ?_⟩
    refine Decoded.bind_eq_ok.2 ⟨i, field_of_get? (by simp) hi', ?_⟩
    refine Decoded.bind_eq_ok.2 ⟨t, optional_type ht (m := m) ?_ camel?_partial, rfl⟩
    cases t <;> simp

theorem decodeTypeSpecification_encodeTypeSpecification {s : TypeSpecification TypeAttrs}
    (hs : s.Satisfies legible) :
    decodeTypeSpecification (encodeTypeSpecification m s) = .ok s := by
  cases hs with
  | @synonym ps t hps ht =>
    have ht' := decodeType_encodeType m ht
    refine Decoded.bind_eq_ok.2
      ⟨_, unwrap_wrapped (TypeSpecificationTag.find?_name .synonym) _, ?_⟩
    refine Decoded.bind_eq_ok.2 ⟨ps, optional_params hps (by simp), ?_⟩
    exact Decoded.bind_eq_ok.2 ⟨t, field_of_get? (by simp) ht', rfl⟩
  | @abstract ps hps =>
    refine Decoded.bind_eq_ok.2
      ⟨_, unwrap_wrapped (TypeSpecificationTag.find?_name .abstract) _, ?_⟩
    exact Decoded.bind_eq_ok.2 ⟨ps, optional_params hps (by simp), rfl⟩
  | @custom ps ks hps hks =>
    have hks' := list_decodeConstructor (m := m) hks
    refine Decoded.bind_eq_ok.2 ⟨_, unwrap_wrapped (TypeSpecificationTag.find?_name .custom) _, ?_⟩
    refine Decoded.bind_eq_ok.2 ⟨ps, optional_params hps (by simp), ?_⟩
    exact Decoded.bind_eq_ok.2 ⟨ks, field_of_get? (by simp) hks', rfl⟩

theorem decodeValueSpecification_encodeValueSpecification {s : ValueSpecification TypeAttrs}
    (hs : s.Satisfies legible) :
    decodeValueSpecification (encodeValueSpecification m s) = .ok s := by
  have his := decodeFields_encodeFields hs.keys fun f hf =>
    decodeType_encodeType m (hs.inputs f hf)
  have ht := decodeType_encodeType m hs.output
  refine Decoded.bind_eq_ok.2 ⟨_, rfl, ?_⟩
  refine Decoded.bind_eq_ok.2 ⟨s.inputs, field_of_get? (by simp) his, ?_⟩
  exact Decoded.bind_eq_ok.2 ⟨s.output, field_of_get? (by simp) ht, rfl⟩

theorem decodeEntry_encodeEntry {decode : Json → Decoded α} {v : Json} {x : α}
    (h : decode v = .ok x) (a : Access) (doc : String) :
    decodeEntry decode (encodeEntry m a doc v) = .ok (a, doc, x) := by
  have ha := Classic.decodeAccess_name a
  refine Decoded.bind_eq_ok.2 ⟨_, rfl, ?_⟩
  refine Decoded.bind_eq_ok.2 ⟨a, field_of_get? (by simp) ha, ?_⟩
  refine Decoded.bind_eq_ok.2 ⟨doc, docField_docMember (m := m) ?_, ?_⟩
  · simp [Json.get?_append]
  refine Decoded.bind_eq_ok.2 ⟨x, field_of_get? ?_ h, rfl⟩
  simp [Json.get?_append, docMember, get?_member_ne]

theorem decodeSpecEntry_encodeSpecEntry {decode : Json → Decoded α} {v : Json} {x : α}
    (h : decode v = .ok x) (doc : String) :
    decodeSpecEntry decode (encodeSpecEntry m doc v) = .ok (doc, x) := by
  refine Decoded.bind_eq_ok.2 ⟨_, rfl, ?_⟩
  refine Decoded.bind_eq_ok.2 ⟨doc, docField_docMember (m := m) ?_, ?_⟩
  · simp [Json.get?_append]
  refine Decoded.bind_eq_ok.2 ⟨x, field_of_get? ?_ h, rfl⟩
  simp [Json.get?_append, docMember, get?_member_ne]

/-- Entries keyed by name are always written. -/
theorem optional_keyed {n : Node} {name : String} {decode : String → Json → Decoded α}
    {f : α → String × Json} {xs : List α}
    (hn : Json.get? n.members name = some (.object (xs.map f)))
    (h : ∀ x ∈ xs, decode (f x).1 (f x).2 = .ok x) : n.optional name [] (keyed decode) = .ok xs :=
  optional_of_get? hn (by simp) (keyed_map h)

theorem decodeModule_encodeModule {d : ModuleDefinition TypeAttrs ValueAttrs}
    (hd : d.Satisfies legible) : decodeModule (encodeModule m d) = .ok d := by
  refine Decoded.bind_eq_ok.2 ⟨_, rfl, ?_⟩
  refine Decoded.bind_eq_ok.2 ⟨d.types, optional_keyed (f := fun e =>
    (e.name.kebab, encodeEntry m e.access e.doc (encodeTypeDefinition m e.definition)))
    (by simp) ?_, ?_⟩
  · intro e he
    have hn : e.name.Canonical := hd.typeKeys.each e.name (List.mem_map_of_mem he)
    have hread := decodeTypeDefinition_encodeTypeDefinition (m := m) (hd.types e he)
    simp [decodeEntry_encodeEntry hread, hn]
  refine Decoded.bind_eq_ok.2 ⟨d.values, optional_keyed (f := fun e =>
    (e.name.kebab, encodeEntry m e.access e.doc (encodeDefinition m e.definition)))
    (by simp) ?_, ?_⟩
  · intro e he
    have hn : e.name.Canonical := hd.valueKeys.each e.name (List.mem_map_of_mem he)
    have hread := decodeDefinition_encodeDefinition m (hd.values e he)
    simp [decodeEntry_encodeEntry hread, hn]
  exact Decoded.bind_eq_ok.2 ⟨d.doc, docField_docMember (m := m) (by simp), rfl⟩

theorem decodeModuleSpec_encodeModuleSpec {s : ModuleSpecification TypeAttrs}
    (hs : s.Satisfies legible) : decodeModuleSpec (encodeModuleSpec m s) = .ok s := by
  refine Decoded.bind_eq_ok.2 ⟨_, rfl, ?_⟩
  refine Decoded.bind_eq_ok.2 ⟨s.types, optional_keyed (f := fun e =>
    (e.name.kebab, encodeSpecEntry m e.doc (encodeTypeSpecification m e.specification)))
    (by simp) ?_, ?_⟩
  · intro e he
    have hn : e.name.Canonical := hs.typeKeys.each e.name (List.mem_map_of_mem he)
    have hread := decodeTypeSpecification_encodeTypeSpecification (m := m) (hs.types e he)
    simp [decodeSpecEntry_encodeSpecEntry hread, hn]
  refine Decoded.bind_eq_ok.2 ⟨s.values, optional_keyed (f := fun e =>
    (e.name.kebab, encodeSpecEntry m e.doc (encodeValueSpecification m e.specification)))
    (by simp) ?_, ?_⟩
  · intro e he
    have hn : e.name.Canonical := hs.valueKeys.each e.name (List.mem_map_of_mem he)
    have hread := decodeValueSpecification_encodeValueSpecification (m := m) (hs.values e he)
    simp [decodeSpecEntry_encodeSpecEntry hread, hn]
  exact Decoded.bind_eq_ok.2 ⟨s.doc, docField_docMember (m := m) (by simp), rfl⟩

theorem decodePackage_encodePackage {p : PackageDefinition TypeAttrs ValueAttrs}
    (hp : p.Satisfies legible) : decodePackage (encodePackage m p) = .ok p := by
  refine Decoded.bind_eq_ok.2 ⟨_, rfl, ?_⟩
  refine Decoded.bind_eq_ok.2 ⟨p.modules, field_of_get? (by simp) (keyed_map (f := fun e =>
    (e.name.text, Classic.encodeAccess e.access (encodeModule m e.definition))) fun e he => ?_),
    rfl⟩
  have hn : e.name.Canonical := hp.keys.each e.name (List.mem_map_of_mem he)
  have hread := accessControlled_encodeAccess
    (decodeModule_encodeModule (m := m) (hp.modules e he)) e.access
  simp [hread, hn]

theorem decodePackageSpec_encodePackageSpec {p : PackageSpecification TypeAttrs}
    (hp : p.Satisfies legible) : decodePackageSpec (encodePackageSpec m p) = .ok p := by
  refine Decoded.bind_eq_ok.2 ⟨_, rfl, ?_⟩
  refine Decoded.bind_eq_ok.2 ⟨p.modules, field_of_get? (by simp) (keyed_map (f := fun e =>
    (e.name.text, encodeModuleSpec m e.specification)) fun e he => ?_), rfl⟩
  have hn : e.name.Canonical := hp.keys.each e.name (List.mem_map_of_mem he)
  simp [decodeModuleSpec_encodeModuleSpec (m := m) (hp.modules e he), hn]

theorem optional_dependencies {n : Node} {ds : List (Dependency TypeAttrs)}
    (hds : Dependency.AllSatisfy legible ds)
    (h : Json.get? n.members "dependencies" = some (.object (ds.map fun d =>
      (d.name.text, encodePackageSpec m d.specification)))) :
    n.optional "dependencies" [] (keyed decodeDependency) = .ok ds := by
  refine optional_keyed h fun d hd => ?_
  have hn : d.name.Canonical := hds.keys.each d.name (List.mem_map_of_mem hd)
  simp [decodeDependency, decodePackageSpec_encodePackageSpec (m := m) (hds.specifications d hd), hn]

theorem decodeEntryPoint_encodeEntryPoint {e : EntryPoint} (hn : e.name.Canonical)
    (ht : e.target.Canonical) :
    decodeEntryPoint (encodeEntryPoint m e).1 (encodeEntryPoint m e).2 = .ok e := by
  have hname := decodeFQName_encodeFQName ht
  have hkind := Classic.decodeEntryKind_name e.kind
  refine Decoded.bind_eq_ok.2 ⟨_, rfl, ?_⟩
  refine Decoded.bind_eq_ok.2 ⟨e.target, field_of_get? (by simp) hname, ?_⟩
  refine Decoded.bind_eq_ok.2 ⟨e.kind, field_of_get? (by simp) hkind, ?_⟩
  refine Decoded.bind_eq_ok.2 ⟨e.doc, docField_docMember (m := m) (by simp), ?_⟩
  simp [encodeEntryPoint, hn]

theorem decodeDistribution_encodeDistribution {d : V4Distribution} (hd : d.Satisfies legible) :
    decodeDistribution (encodeDistribution m d) = .ok d := by
  cases hd with
  | @library p ds d hp hds hd =>
    have hname := decodePath_encodePath hp
    have hd' := decodePackage_encodePackage (m := m) hd
    refine Decoded.bind_eq_ok.2 ⟨_, unwrap_wrapped (DistributionTag.find?_name .library) _, ?_⟩
    refine Decoded.bind_eq_ok.2 ⟨p, field_of_get? (by simp [distributionHead]) hname, ?_⟩
    refine Decoded.bind_eq_ok.2 ⟨ds, optional_dependencies hds (m := m) (by simp [distributionHead]), ?_⟩
    exact Decoded.bind_eq_ok.2 ⟨d, field_of_get? (by simp [distributionHead]) hd', rfl⟩
  | @specs p ds s hp hds hs =>
    have hname := decodePath_encodePath hp
    have hs' := decodePackageSpec_encodePackageSpec (m := m) hs
    refine Decoded.bind_eq_ok.2 ⟨_, unwrap_wrapped (DistributionTag.find?_name .specs) _, ?_⟩
    refine Decoded.bind_eq_ok.2 ⟨p, field_of_get? (by simp [distributionHead]) hname, ?_⟩
    refine Decoded.bind_eq_ok.2 ⟨ds, optional_dependencies hds (m := m) (by simp [distributionHead]), ?_⟩
    exact Decoded.bind_eq_ok.2 ⟨s, field_of_get? (by simp [distributionHead]) hs', rfl⟩
  | @application p ds d es hp hds hd hes =>
    have hname := decodePath_encodePath hp
    have hd' := decodePackage_encodePackage (m := m) hd
    refine Decoded.bind_eq_ok.2 ⟨_, unwrap_wrapped (DistributionTag.find?_name .application) _, ?_⟩
    refine Decoded.bind_eq_ok.2 ⟨p, field_of_get? (by simp [distributionHead]) hname, ?_⟩
    refine Decoded.bind_eq_ok.2 ⟨ds, optional_dependencies hds (m := m) (by simp [distributionHead]), ?_⟩
    refine Decoded.bind_eq_ok.2 ⟨d, field_of_get? (by simp [distributionHead]) hd', ?_⟩
    refine Decoded.bind_eq_ok.2 ⟨es, optional_keyed (f := encodeEntryPoint m)
      (by simp [distributionHead]) ?_, rfl⟩
    exact fun e he => decodeEntryPoint_encodeEntryPoint
      (hes.keys.each e.name (List.mem_map_of_mem he)) (hes.targets e he)

theorem major?_empty : (FormatVersion.text "").major? = none := by decide

theorem decodeVersion_encodeVersion {version : FormatVersion} (h : version.major? = some 4) :
    decodeVersion (encodeVersion version) = .ok version := by
  cases version with
  | number n =>
    cases h
    rfl
  | text s =>
    have hne : s.isEmpty = false := by
      rw [Bool.eq_false_iff]
      intro he
      rw [String.isEmpty_iff.1 he, major?_empty] at h
      cases h
    simp [encodeVersion, decodeVersion, FormatVersion.ofText, hne, checkMajor, h]

theorem decodeDocument_encodeDocument {d : V4Document} (hv : d.version.major? = some 4)
    (hd : d.distribution.Satisfies legible) : decodeDocument (encodeDocument m d) = .ok d := by
  obtain ⟨version, d⟩ := d
  simp [decodeDocument, encodeDocument, Shape.object, Shape.member, writtenVersion, hv,
    decodeVersion_encodeVersion hv, decodeDistribution_encodeDistribution hd]

theorem carried_legible : written.Carried written legible id id where
  typeAttrs _ ha _ := ha.toReadable
  valueAttrs _ ha _ := ha.toReadable
  literal _ hl _ := hl
  name _ hn _ := hn
  path _ hp _ := hp
  qualified _ hf _ := hf
  names _ _ _ := trivial
  paths _ _ _ := trivial

end IrDialects.V4
