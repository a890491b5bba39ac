import IrDialects.Proofs.Classic.DocumentImage
import IrDialects.Proofs.Classic.Value

/-!
# Modules, packages and documents in the Classic form

Reading the Classic form of a definition, a specification, a module, a package, a distribution or a
document gives it back.
-/

namespace IrDialects.Classic

variable {τ ν α : Type} {c : Codec τ ν} {P : Conditions τ ν}

@[simp] theorem decodeAccess_name (a : Access) : decodeAccess (.string a.name) = .ok a := by
  cases a <;> rfl

theorem accessControlled_encodeAccess {decode : Json → Decoded α} {v : Json} {x : α}
    (h : decode v = .ok x) (a : Access) : accessControlled decode (encodeAccess a v) = .ok (a, x) := by
  simp [accessControlled, encodeAccess, Shape.object, Shape.member, h]

theorem documented_encodeDocumented {decode : Json → Decoded α} {v : Json} {x : α}
    (h : decode v = .ok x) (doc : String) :
    documented decode (encodeDocumented doc v) = .ok (doc, x) := by
  simp [documented, encodeDocumented, Shape.object, Shape.member, Shape.optionalString, Shape.string,
    h]

theorem list_decodeConstructor (h : Readable c P) (what : String) {ks : List (Constructor τ)}
    (hks : ∀ k ∈ ks, k.Satisfies P) :
    Shape.list what (decodeConstructor c.typeAttrs)
      (.array (ks.map (encodeConstructor c.typeAttrs))) = .ok ks := by
  refine Shape.list_map what fun k hk => ?_
  have hargs := list_decodeField c.typeAttrs "constructor arguments" fun f hf =>
    decodeType_encodeType h ((hks k hk).types f hf)
  simp [decodeConstructor, encodeConstructor, namedPair_pair "constructor" hargs]

theorem decodeTypeDefinition_encodeTypeDefinition (h : Readable c P) {d : TypeDefinition τ}
    (hd : d.Satisfies P) :
    decodeTypeDefinition c.typeAttrs (encodeTypeDefinition c.typeAttrs d) = .ok d := by
  cases hd with
  | @synonym ps t hps ht =>
    refine Decoded.bind_eq_ok.2 ⟨_, Shape.tagged_ok (TypeDefinitionTag.find?_name .synonym) _, ?_⟩
    simp [Shape.two, decodeType_encodeType h ht]
  | @custom ps a ks hps hks =>
    refine Decoded.bind_eq_ok.2 ⟨_, Shape.tagged_ok (TypeDefinitionTag.find?_name .custom) _, ?_⟩
    have hks' := accessControlled_encodeAccess (list_decodeConstructor h "constructors" hks) a
    simp [Shape.two, hks']
  | @incomplete ps i t hps hi ht =>
    refine Decoded.bind_eq_ok.2
      ⟨_, Shape.tagged_ok (TypeDefinitionTag.find?_name .incomplete) _, ?_⟩
    simp [Shape.three, decodeOptionalType_encodeOptionalType h ht]

theorem decodeTypeSpecification_encodeTypeSpecification (h : Readable c P)
    {s : TypeSpecification τ} (hs : s.Satisfies P) :
    decodeTypeSpecification c.typeAttrs (encodeTypeSpecification c.typeAttrs s) = .ok s := by
  cases hs with
  | @synonym ps t hps ht =>
    refine Decoded.bind_eq_ok.2
      ⟨_, Shape.tagged_ok (TypeSpecificationTag.find?_name .synonym) _, ?_⟩
    simp [Shape.two, decodeType_encodeType h ht]
  | @abstract ps hps =>
    refine Decoded.bind_eq_ok.2
      ⟨_, Shape.tagged_ok (TypeSpecificationTag.find?_name .abstract) _, ?_⟩
    simp [Shape.one]
  | @custom ps ks hps hks =>
    refine Decoded.bind_eq_ok.2
      ⟨_, Shape.tagged_ok (TypeSpecificationTag.find?_name .custom) _, ?_⟩
    simp [Shape.two, list_decodeConstructor h "constructors" hks]

theorem decodeValueSpecification_encodeValueSpecification (h : Readable c P)
    {s : ValueSpecification τ} (hs : s.Satisfies P) :
    decodeValueSpecification c.typeAttrs (encodeValueSpecification c.typeAttrs s) = .ok s := by
  have his := list_decodeField c.typeAttrs "inputs" fun f hf =>
    decodeType_encodeType h (hs.inputs f hf)
  simp [decodeValueSpecification, encodeValueSpecification, Shape.object, Shape.member, his,
    decodeType_encodeType h hs.output]

/-- A documentation text is read back, also when it is written as `null`. -/
theorem optionalString_encodeDoc {ms : Members} {key : String} (doc : String)
    (h : Json.get? ms key = some (encodeDoc doc)) : Shape.optionalString ms key = .ok doc := by
  by_cases hd : doc = "" <;> simp [Shape.optionalString, h, encodeDoc, hd, Shape.string]

theorem optionalEntries_map {ms : Members} {key : String} (what : String)
    {decode : Json → Decoded α} {encode : α → Json} {xs : List α}
    (hk : Json.get? ms key = some (.array (xs.map encode)))
    (h : ∀ x ∈ xs, decode (encode x) = .ok x) : optionalEntries ms key what decode = .ok xs := by
  simp [optionalEntries, hk, Shape.list_map what h]

theorem decodeModule_encodeModule (h : Readable c P) {m : ModuleDefinition τ ν}
    (hm : m.Satisfies P) : decodeModule c (encodeModule c m) = .ok m := by
  have htypes : ∀ e ∈ m.types,
      decodeTypeEntry c.typeAttrs (encodeTypeEntry c.typeAttrs e) = .ok e := by
    intro e he
    have hread := namedPair_pair "named entry" (n := e.name) (accessControlled_encodeAccess
      (documented_encodeDocumented
        (decodeTypeDefinition_encodeTypeDefinition h (hm.types e he)) e.doc) e.access)
    simp [decodeTypeEntry, encodeTypeEntry, hread]
  have hvalues : ∀ e ∈ m.values, decodeValueEntry c (encodeValueEntry c e) = .ok e := by
    intro e he
    have hread := namedPair_pair "named entry" (n := e.name) (accessControlled_encodeAccess
      (documented_encodeDocumented (decodeDefinition_encodeDefinition h (hm.values e he)) e.doc)
      e.access)
    simp [decodeValueEntry, encodeValueEntry, hread]
  rw [decodeModule, encodeModule, Shape.object, Decoded.ok_bind,
    optionalEntries_map "module types" (by simp) htypes, Decoded.ok_bind,
    optionalEntries_map "module values" (by simp) hvalues, Decoded.ok_bind,
    optionalString_encodeDoc m.doc (by simp)]
  rfl

theorem decodeModuleSpec_encodeModuleSpec (h : Readable c P) {m : ModuleSpecification τ}
    (hm : m.Satisfies P) :
    decodeModuleSpec c.typeAttrs (encodeModuleSpec c.typeAttrs m) = .ok m := by
  have htypes : ∀ e ∈ m.types,
      decodeTypeSpecEntry c.typeAttrs (encodeTypeSpecEntry c.typeAttrs e) = .ok e := by
    intro e he
    have hread := namedPair_pair "named entry" (n := e.name) (documented_encodeDocumented
      (decodeTypeSpecification_encodeTypeSpecification h (hm.types e he)) e.doc)
    simp [decodeTypeSpecEntry, encodeTypeSpecEntry, hread]
  have hvalues : ∀ e ∈ m.values,
      decodeValueSpecEntry c.typeAttrs (encodeValueSpecEntry c.typeAttrs e) = .ok e := by
    intro e he
    have hread := namedPair_pair "named entry" (n := e.name) (documented_encodeDocumented
      (decodeValueSpecification_encodeValueSpecification h (hm.values e he)) e.doc)
    simp [decodeValueSpecEntry, encodeValueSpecEntry, hread]
  rw [decodeModuleSpec, encodeModuleSpec, Shape.object, Decoded.ok_bind,
    optionalEntries_map "module types" (by simp) htypes, Decoded.ok_bind,
    optionalEntries_map "module values" (by simp) hvalues, Decoded.ok_bind,
    optionalString_encodeDoc m.doc (by simp)]
  rfl

theorem pathPair_pair (what : String) {decode : Json → Decoded α} {p : Path} {v : Json} {x : α}
    (h : decode v = .ok x) : pathPair what decode (.array [encodePath p, v]) = .ok (p, x) := by
  simp [pathPair, Shape.pair, Shape.array, h]

theorem decodePackage_encodePackage (h : Readable c P) {p : PackageDefinition τ ν}
    (hp : p.Satisfies P) : decodePackage c (encodePackage c p) = .ok p := by
  rw [decodePackage, encodePackage, Shape.object, Decoded.ok_bind, Shape.member, Json.get?_cons,
    if_pos rfl]
  dsimp only [Decoded.ok_bind]
  rw [Shape.list_map "modules" fun e he => ?_]
  · rfl
  · have hread := pathPair_pair "module entry" (p := e.name) (accessControlled_encodeAccess
      (decodeModule_encodeModule h (hp.modules e he)) e.access)
    simp [hread]

theorem decodePackageSpec_encodePackageSpec (h : Readable c P) {p : PackageSpecification τ}
    (hp : p.Satisfies P) :
    decodePackageSpec c.typeAttrs (encodePackageSpec c.typeAttrs p) = .ok p := by
  rw [decodePackageSpec, encodePackageSpec, Shape.object, Decoded.ok_bind, Shape.member,
    Json.get?_cons, if_pos rfl]
  dsimp only [Decoded.ok_bind]
  rw [Shape.list_map "modules" fun e he => ?_]
  · rfl
  · have hread := pathPair_pair "module entry" (p := e.name)
      (decodeModuleSpec_encodeModuleSpec h (hp.modules e he))
    simp [hread]

theorem list_decodeDependency (h : Readable c P) (what : String) {ds : List (Dependency τ)}
    (hds : Dependency.AllSatisfy P ds) :
    Shape.list what (decodeDependency c.typeAttrs)
      (.array (ds.map (encodeDependency c.typeAttrs))) = .ok ds := by
  refine Shape.list_map what fun d hd => ?_
  have hread := pathPair_pair "dependency" (p := d.name)
    (decodePackageSpec_encodePackageSpec h (hds.specifications d hd))
  simp [decodeDependency, encodeDependency, hread]

@[simp] theorem decodeEntryKind_name (k : EntryKind) : decodeEntryKind (.string k.name) = .ok k := by
  cases k <;> rfl

theorem decodeEntryPoint_encodeEntryPoint (e : EntryPoint) :
    decodeEntryPoint (encodeEntryPoint e) = .ok e := by
  obtain ⟨n, t, k, doc⟩ := e
  by_cases hd : doc = "" <;>
    simp [decodeEntryPoint, encodeEntryPoint, namedPair, Shape.pair, Shape.array, decodeEntryBody,
      Shape.object, Shape.member, Shape.optionalString, Shape.string, hd]

theorem decodeDistribution_encodeDistribution (h : Readable c P) {d : Distribution τ ν}
    (hd : d.Satisfies P) : decodeDistribution c (encodeDistribution c d) = .ok d := by
  cases hd with
  | @library p ds d hp hds hd =>
    refine Decoded.bind_eq_ok.2 ⟨_, Shape.tagged_ok (DistributionTag.find?_name .library) _, ?_⟩
    simp [Shape.three, list_decodeDependency h "dependencies" hds,
      decodePackage_encodePackage h hd]
  | @specs p ds s hp hds hs =>
    refine Decoded.bind_eq_ok.2 ⟨_, Shape.tagged_ok (DistributionTag.find?_name .specs) _, ?_⟩
    simp [Shape.three, list_decodeDependency h "dependencies" hds,
      decodePackageSpec_encodePackageSpec h hs]
  | @application p ds d es hp hds hd hes =>
    refine Decoded.bind_eq_ok.2
      ⟨_, Shape.tagged_ok (DistributionTag.find?_name .application) _, ?_⟩
    have hes' := Shape.list_map "entry points" fun e (_ : e ∈ es) =>
      decodeEntryPoint_encodeEntryPoint e
    simp [Shape.four, list_decodeDependency h "dependencies" hds,
      decodePackage_encodePackage h hd, hes']

theorem decodeVersion_ofInt {n : Int} (hl : 1 ≤ n) (hu : n ≤ 3) :
    decodeVersion (.ofInt n) = .ok (.number n) := by
  have hr : Number.Whole.InRange n := by constructor <;> omega
  rw [decodeVersion.eq_def, Json.ofInt]
  simp only [Number.Whole.parse_toString hr, hl, hu, and_self, if_true]

theorem decodeDocument_encodeDocument (h : Readable c P) {d : Document τ ν}
    (hv : IsVersion d.version) (hd : d.distribution.Satisfies P) :
    decodeDocument c (encodeDocument c d) = .ok d := by
  obtain ⟨version, d⟩ := d
  obtain ⟨n, hl, hu, rfl⟩ := hv
  simp [decodeDocument, encodeDocument, Shape.object, Shape.member, writtenVersion, hl, hu,
    decodeVersion_ofInt hl hu, decodeDistribution_encodeDistribution h hd]

end IrDialects.Classic
