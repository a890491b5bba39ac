import IrDialects.Classic.Document
import IrDialects.Proofs.Classic.Image

/-!
# Documents read from the Classic form

The definitions, modules, packages and distributions that are read from the Classic form meet the same
conditions as the types and values inside them, and the version of a document is one of 1, 2 and 3.
-/

namespace IrDialects.Classic

variable {τ ν α : Type} {c : Codec τ ν} {P : Conditions τ ν}

theorem accessControlled_image {decode : Json → Decoded α} {v : Json} {a : Access} {x : α}
    (hv : v.Orderly) (h : accessControlled decode v = .ok (a, x)) :
    ∃ w, w.Orderly ∧ decode w = .ok x := by
  simp only [accessControlled, Decoded.bind_eq_ok, Decoded.under_eq_ok, Shape.object_eq_ok,
    Decoded.pure_eq] at h
  obtain ⟨ms, rfl, b, -, b', -, w, hw, x', hx, ⟨⟩⟩ := h
  exact ⟨w, orderly_of_member hv hw, hx⟩

theorem documented_image {decode : Json → Decoded α} {v : Json} {doc : String} {x : α}
    (hv : v.Orderly) (h : documented decode v = .ok (doc, x)) :
    ∃ w, w.Orderly ∧ decode w = .ok x := by
  simp only [documented, Decoded.bind_eq_ok, Decoded.under_eq_ok, Shape.object_eq_ok,
    Decoded.pure_eq] at h
  obtain ⟨ms, rfl, doc', -, w, hw, x', hx, ⟨⟩⟩ := h
  exact ⟨w, orderly_of_member hv hw, hx⟩

theorem pathPair_image {what : String} {decode : Json → Decoded α} {v : Json} {p : Path} {x : α}
    (hv : v.Orderly) (h : pathPair what decode v = .ok (p, x)) :
    ∃ w, w.Orderly ∧ decode w = .ok x := by
  simp only [pathPair, Decoded.bind_eq_ok, Decoded.underIndex_eq_ok, Prod.exists, Shape.pair_eq_ok,
    Decoded.pure_eq] at h
  obtain ⟨a, w, rfl, p', -, x', hx, ⟨⟩⟩ := h
  exact ⟨w, hv.fields, hx⟩

theorem decodeConstructor_image (y : Yields c P) {v : Json} {k : Constructor τ} (hv : v.Orderly)
    (h : decodeConstructor c.typeAttrs v = .ok k) : k.Satisfies P := by
  simp only [decodeConstructor, Decoded.bind_eq_ok, Prod.exists, Decoded.pure_eq] at h
  obtain ⟨n, as, hp, ⟨⟩⟩ := h
  obtain ⟨w, hw, has⟩ := namedPair_image hv hp
  refine ⟨y.name n, fun f _ => y.name f.1, ?_⟩
  exact list_decodeField_image has hw fun u t hu ht => decodeType_image y hu ht

theorem decodeTypeDefinition_image (y : Yields c P) {v : Json} {d : TypeDefinition τ}
    (hv : v.Orderly) (h : decodeTypeDefinition c.typeAttrs v = .ok d) : d.Satisfies P := by
  obtain ⟨⟨tag, fields⟩, htag, h⟩ := Decoded.bind_eq_ok.1 h
  obtain ⟨s, rfl, -⟩ := Shape.tagged_eq_ok.1 htag
  cases tag with
  | synonym =>
    simp only [Decoded.bind_eq_ok, Shape.slot_eq_ok, Shape.two_eq_ok, Prod.exists,
      Decoded.pure_eq] at h
    obtain ⟨ps, t, rfl, ps', -, t', ht, ⟨⟩⟩ := h
    obtain ⟨-, hvt⟩ := hv.fields
    exact .synonym (fun p _ => y.name p) (decodeType_image y hvt ht)
  | custom =>
    simp only [Decoded.bind_eq_ok, Shape.slot_eq_ok, Shape.two_eq_ok, Prod.exists,
      Decoded.pure_eq] at h
    obtain ⟨ps, ks, rfl, ps', -, a, ks', hks, ⟨⟩⟩ := h
    obtain ⟨-, hvs⟩ := hv.fields
    obtain ⟨w, hw, hks'⟩ := accessControlled_image hvs hks
    exact .custom (fun p _ => y.name p)
      (Shape.list_image hks' hw fun u k hu hk => decodeConstructor_image y hu hk)
  | incomplete =>
    simp only [Decoded.bind_eq_ok, Shape.slot_eq_ok, Shape.three_eq_ok, Prod.exists,
      Decoded.pure_eq] at h
    obtain ⟨ps, i, t, rfl, ps', -, i', -, t', ht, ⟨⟩⟩ := h
    obtain ⟨-, -, hvt⟩ := hv.fields
    exact .incomplete (fun p _ => y.name p) (y.incompleteness i') (decodeOptionalType_image y hvt ht)

theorem decodeTypeSpecification_image (y : Yields c P) {v : Json} {s : TypeSpecification τ}
    (hv : v.Orderly) (h : decodeTypeSpecification c.typeAttrs v = .ok s) : s.Satisfies P := by
  obtain ⟨⟨tag, fields⟩, htag, h⟩ := Decoded.bind_eq_ok.1 h
  obtain ⟨s, rfl, -⟩ := Shape.tagged_eq_ok.1 htag
  cases tag with
  | synonym =>
    simp only [Decoded.bind_eq_ok, Shape.slot_eq_ok, Shape.two_eq_ok, Prod.exists,
      Decoded.pure_eq] at h
    obtain ⟨ps, t, rfl, ps', -, t', ht, ⟨⟩⟩ := h
    obtain ⟨-, hvt⟩ := hv.fields
    exact .synonym (fun p _ => y.name p) (decodeType_image y hvt ht)
  | abstract =>
    simp only [Decoded.bind_eq_ok, Decoded.pure_eq] at h
    obtain ⟨ps, -, ps', -, ⟨⟩⟩ := h
    exact .abstract fun p _ => y.name p
  | custom =>
    simp only [Decoded.bind_eq_ok, Shape.slot_eq_ok, Shape.two_eq_ok, Prod.exists,
      Decoded.pure_eq] at h
    obtain ⟨ps, ks, rfl, ps', -, ks', hks, ⟨⟩⟩ := h
    obtain ⟨-, hvs⟩ := hv.fields
    exact .custom (fun p _ => y.name p)
      (Shape.list_image hks hvs fun u k hu hk => decodeConstructor_image y hu hk)

theorem decodeValueSpecification_image (y : Yields c P) {v : Json} {s : ValueSpecification τ}
    (hv : v.Orderly) (h : decodeValueSpecification c.typeAttrs v = .ok s) : s.Satisfies P := by
  simp only [decodeValueSpecification, Decoded.bind_eq_ok, Decoded.under_eq_ok, Shape.object_eq_ok,
    Decoded.pure_eq] at h
  obtain ⟨ms, rfl, is, his, is', his', t, ht, t', ht', ⟨⟩⟩ := h
  refine ⟨y.keyed _, ?_, decodeType_image y (orderly_of_member hv ht) ht'⟩
  exact list_decodeField_image his' (orderly_of_member hv his) fun u t hu ht => decodeType_image y hu ht

theorem optionalEntries_image {ms : Members} {key what : String} {decode : Json → Decoded α}
    {xs : List α} {Q : α → Prop} (hms : (Json.object ms).Orderly)
    (h : optionalEntries ms key what decode = .ok xs)
    (hQ : ∀ w x, w.Orderly → decode w = .ok x → Q x) : ∀ x ∈ xs, Q x := by
  rw [optionalEntries] at h
  split at h
  · cases h
    simp
  · rename_i v hv
    exact Shape.list_image (Decoded.under_eq_ok.1 h)
      (Json.All.get? (Json.all_object.1 hms).2 hv) hQ

theorem decodeTypeEntry_image (y : Yields c P) {v : Json} {e : TypeEntry τ} (hv : v.Orderly)
    (h : decodeTypeEntry c.typeAttrs v = .ok e) : e.definition.Satisfies P := by
  simp only [decodeTypeEntry, Decoded.bind_eq_ok, Prod.exists, Decoded.pure_eq] at h
  obtain ⟨n, a, doc, d, hp, ⟨⟩⟩ := h
  obtain ⟨w, hw, ha⟩ := namedPair_image hv hp
  obtain ⟨w', hw', hdoc⟩ := accessControlled_image hw ha
  obtain ⟨u, hu, hd⟩ := documented_image hw' hdoc
  exact decodeTypeDefinition_image y hu hd

theorem decodeValueEntry_image (y : Yields c P) {v : Json} {e : ValueEntry τ ν} (hv : v.Orderly)
    (h : decodeValueEntry c v = .ok e) : e.definition.Satisfies P := by
  simp only [decodeValueEntry, Decoded.bind_eq_ok, Prod.exists, Decoded.pure_eq] at h
  obtain ⟨n, a, doc, d, hp, ⟨⟩⟩ := h
  obtain ⟨w, hw, ha⟩ := namedPair_image hv hp
  obtain ⟨w', hw', hdoc⟩ := accessControlled_image hw ha
  obtain ⟨u, hu, hd⟩ := documented_image hw' hdoc
  exact definitionNode_image y hu (fun _ _ hx hx' => valueAt_image y hx hx') hd

theorem decodeModule_image (y : Yields c P) {v : Json} {m : ModuleDefinition τ ν} (hv : v.Orderly)
    (h : decodeModule c v = .ok m) : m.Satisfies P := by
  simp only [decodeModule, Decoded.bind_eq_ok, Shape.object_eq_ok, Decoded.pure_eq] at h
  obtain ⟨ms, rfl, types, htypes, values, hvalues, doc, -, ⟨⟩⟩ := h
  constructor
  · exact y.keyed _
  · exact optionalEntries_image hv htypes fun w e hw he => decodeTypeEntry_image y hw he
  · exact y.keyed _
  · exact optionalEntries_image hv hvalues fun w e hw he => decodeValueEntry_image y hw he

theorem decodeTypeSpecEntry_image (y : Yields c P) {v : Json} {e : TypeSpecEntry τ}
    (hv : v.Orderly) (h : decodeTypeSpecEntry c.typeAttrs v = .ok e) :
    e.specification.Satisfies P := by
  simp only [decodeTypeSpecEntry, Decoded.bind_eq_ok, Prod.exists, Decoded.pure_eq] at h
  obtain ⟨n, doc, s, hp, ⟨⟩⟩ := h
  obtain ⟨w, hw, hdoc⟩ := namedPair_image hv hp
  obtain ⟨u, hu, hs⟩ := documented_image hw hdoc
  exact decodeTypeSpecification_image y hu hs

theorem decodeValueSpecEntry_image (y : Yields c P) {v : Json} {e : ValueSpecEntry τ}
    (hv : v.Orderly) (h : decodeValueSpecEntry c.typeAttrs v = .ok e) :
    e.specification.Satisfies P := by
  simp only [decodeValueSpecEntry, Decoded.bind_eq_ok, Prod.exists, Decoded.pure_eq] at h
  obtain ⟨n, doc, s, hp, ⟨⟩⟩ := h
  obtain ⟨w, hw, hdoc⟩ := namedPair_image hv hp
  obtain ⟨u, hu, hs⟩ := documented_image hw hdoc
  exact decodeValueSpecification_image y hu hs

theorem decodeModuleSpec_image (y : Yields c P) {v : Json} {m : ModuleSpecification τ}
    (hv : v.Orderly) (h : decodeModuleSpec c.typeAttrs v = .ok m) : m.Satisfies P := by
  simp only [decodeModuleSpec, Decoded.bind_eq_ok, Shape.object_eq_ok, Decoded.pure_eq] at h
  obtain ⟨ms, rfl, types, htypes, values, hvalues, doc, -, ⟨⟩⟩ := h
  constructor
  · exact y.keyed _
  · exact optionalEntries_image hv htypes fun w e hw he => decodeTypeSpecEntry_image y hw he
  · exact y.keyed _
  · exact optionalEntries_image hv hvalues fun w e hw he => decodeValueSpecEntry_image y hw he

theorem decodePackage_image (y : Yields c P) {v : Json} {p : PackageDefinition τ ν} (hv : v.Orderly)
    (h : decodePackage c v = .ok p) : p.Satisfies P := by
  simp only [decodePackage, Decoded.bind_eq_ok, Decoded.under_eq_ok, Shape.object_eq_ok,
    Decoded.pure_eq] at h
  obtain ⟨ms, rfl, es, hes, es', hes', ⟨⟩⟩ := h
  refine ⟨y.keyedPaths _, Shape.list_image hes' (orderly_of_member hv hes) fun w e hw he => ?_⟩
  obtain ⟨⟨q, a, m⟩, hp, he⟩ := Decoded.bind_eq_ok.1 he
  obtain ⟨u, hu, ha⟩ := pathPair_image hw hp
  obtain ⟨u', hu', hm⟩ := accessControlled_image hu ha
  cases he
  exact decodeModule_image y hu' hm

theorem decodePackageSpec_image (y : Yields c P) {v : Json} {p : PackageSpecification τ}
    (hv : v.Orderly) (h : decodePackageSpec c.typeAttrs v = .ok p) : p.Satisfies P := by
  simp only [decodePackageSpec, Decoded.bind_eq_ok, Decoded.under_eq_ok, Shape.object_eq_ok,
    Decoded.pure_eq] at h
  obtain ⟨ms, rfl, es, hes, es', hes', ⟨⟩⟩ := h
  refine ⟨y.keyedPaths _, Shape.list_image hes' (orderly_of_member hv hes) fun w e hw he => ?_⟩
  obtain ⟨⟨q, m⟩, hp, he⟩ := Decoded.bind_eq_ok.1 he
  obtain ⟨u, hu, hm⟩ := pathPair_image hw hp
  cases he
  exact decodeModuleSpec_image y hu hm

theorem list_decodeDependency_image (y : Yields c P) {what : String} {v : Json}
    {ds : List (Dependency τ)} (hv : v.Orderly)
    (h : Shape.list what (decodeDependency c.typeAttrs) v = .ok ds) :
    Dependency.AllSatisfy P ds := by
  refine ⟨y.keyedPaths _, Shape.list_image h hv fun w d hw hd => ?_⟩
  obtain ⟨⟨p, s⟩, hp, hd⟩ := Decoded.bind_eq_ok.1 hd
  obtain ⟨u, hu, hs⟩ := pathPair_image hw hp
  cases hd
  exact decodePackageSpec_image y hu hs

theorem Yields.entryPoints (y : Yields c P) (es : List EntryPoint) : EntryPoint.AllSatisfy P es :=
  ⟨y.keyed _, fun e _ => y.qualified e.target⟩

theorem decodeDistribution_image (y : Yields c P) {v : Json} {d : Distribution τ ν}
    (hv : v.Orderly) (h : decodeDistribution c v = .ok d) : d.Satisfies P := by
  obtain ⟨⟨tag, fields⟩, htag, h⟩ := Decoded.bind_eq_ok.1 h
  obtain ⟨s, rfl, -⟩ := Shape.tagged_eq_ok.1 htag
  cases tag with
  | library =>
    simp only [Decoded.bind_eq_ok, Shape.slot_eq_ok, Shape.three_eq_ok, Prod.exists,
      Decoded.pure_eq] at h
    obtain ⟨p, ds, d, rfl, p', -, ds', hds, d', hd, ⟨⟩⟩ := h
    obtain ⟨-, hvs, hvd⟩ := hv.fields
    exact .library (y.path p') (list_decodeDependency_image y hvs hds) (decodePackage_image y hvd hd)
  | specs =>
    simp only [Decoded.bind_eq_ok, Shape.slot_eq_ok, Shape.three_eq_ok, Prod.exists,
      Decoded.pure_eq] at h
    obtain ⟨p, ds, d, rfl, p', -, ds', hds, d', hd, ⟨⟩⟩ := h
    obtain ⟨-, hvs, hvd⟩ := hv.fields
    exact .specs (y.path p') (list_decodeDependency_image y hvs hds)
      (decodePackageSpec_image y hvd hd)
  | application =>
    simp only [Decoded.bind_eq_ok, Shape.slot_eq_ok, Shape.four_eq_ok, Prod.exists,
      Decoded.pure_eq] at h
    obtain ⟨p, ds, d, es, rfl, p', -, ds', hds, d', hd, es', -, ⟨⟩⟩ := h
    obtain ⟨-, hvs, hvd, -⟩ := hv.fields
    exact .application (y.path p') (list_decodeDependency_image y hvs hds)
      (decodePackage_image y hvd hd) (y.entryPoints es')

/-- The versions of Classic documents. -/
def IsVersion (version : FormatVersion) : Prop := ∃ n, 1 ≤ n ∧ n ≤ 3 ∧ version = .number n

theorem isVersion_defaultClassic : IsVersion .defaultClassic := ⟨3, by omega, by omega, rfl⟩

theorem isVersion_of_decodeVersion {v : Json} {version : FormatVersion}
    (h : decodeVersion v = .ok version) : IsVersion version := by
  rw [decodeVersion.eq_def] at h
  split at h
  · split at h
    · split at h
      · rename_i n _ hn
        cases h
        exact ⟨n, hn.1, hn.2, rfl⟩
      · cases h
    · cases h
  · cases h

theorem decodeDocument_image (y : Yields c P) {v : Json} {d : Document τ ν} (hv : v.Orderly)
    (h : decodeDocument c v = .ok d) : IsVersion d.version ∧ d.distribution.Satisfies P := by
  rw [decodeDocument.eq_def] at h
  split at h
  · obtain ⟨d', hd, ⟨⟩⟩ := Decoded.bind_eq_ok.1 h
    exact ⟨isVersion_defaultClassic, decodeDistribution_image y hv hd⟩
  · simp only [Decoded.bind_eq_ok, Decoded.under_eq_ok, Shape.object_eq_ok, Decoded.pure_eq] at h
    obtain ⟨ms, rfl, n, hn, n', hn', w, hw, d', hd, ⟨⟩⟩ := h
    exact ⟨isVersion_of_decodeVersion hn', decodeDistribution_image y (orderly_of_member hv hw) hd⟩

end IrDialects.Classic
