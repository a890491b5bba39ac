import IrDialects.Proofs.V4.Image

/-!
# Documents read from the V4 form

The definitions, modules, packages and distributions that are read from the V4 form meet the same
conditions as the types and values inside them, and the major version of a document is 4.
-/

namespace IrDialects.V4

open Classic (Yields)

variable {α : Type} {P : Conditions TypeAttrs ValueAttrs}

theorem accessControlled_image {decode : Json → Decoded α} {v : Json} {a : Access} {x : α}
    (hv : v.Orderly) (h : accessControlled decode v = .ok (a, x)) :
    ∃ w, w.Orderly ∧ decode w = .ok x := by
  obtain ⟨n, hn, hx⟩ := Decoded.bind_eq_ok.1 h
  obtain rfl := record_eq_ok hn
  simp only [Decoded.bind_eq_ok, Decoded.pure_eq] at hx
  obtain ⟨b, -, x', hx, ⟨⟩⟩ := hx
  exact field_image hv hx

theorem decodeEntry_image {decode : Json → Decoded α} {v : Json} {a : Access} {doc : String} {x : α}
    (hv : v.Orderly) (h : decodeEntry decode v = .ok (a, doc, x)) :
    ∃ w, w.Orderly ∧ decode w = .ok x := by
  obtain ⟨n, hn, hx⟩ := Decoded.bind_eq_ok.1 h
  obtain rfl := record_eq_ok hn
  simp only [Decoded.bind_eq_ok, Decoded.pure_eq] at hx
  obtain ⟨b, -, doc', -, x', hx, ⟨⟩⟩ := hx
  exact field_image hv hx

theorem decodeSpecEntry_image {decode : Json → Decoded α} {v : Json} {doc : String} {x : α}
    (hv : v.Orderly) (h : decodeSpecEntry decode v = .ok (doc, x)) :
    ∃ w, w.Orderly ∧ decode w = .ok x := by
  obtain ⟨n, hn, hx⟩ := Decoded.bind_eq_ok.1 h
  obtain rfl := record_eq_ok hn
  simp only [Decoded.bind_eq_ok, Decoded.pure_eq] at hx
  obtain ⟨doc', -, x', hx, ⟨⟩⟩ := hx
  exact field_image hv hx

theorem decodeConstructor_image (y : Yields classicForm P) {v : Json} {k : Constructor TypeAttrs}
    (hv : v.Orderly) (h : decodeConstructor v = .ok k) : k.Satisfies P := by
  obtain ⟨n, hn, hk⟩ := Decoded.bind_eq_ok.1 h
  obtain rfl := record_eq_ok hn
  simp only [Decoded.bind_eq_ok, Decoded.pure_eq] at hk
  obtain ⟨x, -, as, has, ⟨⟩⟩ := hk
  refine ⟨y.name x, fun f _ => y.name f.1, list_optional_image hv has fun w f hw hf => ?_⟩
  obtain ⟨u, hu, ht⟩ := namedPair_image hw hf
  exact decodeType_image y hu ht

theorem decodeTypeDefinition_image (y : Yields classicForm P) {v : Json}
    {d : TypeDefinition TypeAttrs} (hv : v.Orderly) (h : decodeTypeDefinition v = .ok d) :
    d.Satisfies P := by
  rw [decodeTypeDefinition.eq_def] at h
  split at h
  · exact Classic.decodeTypeDefinition_image y hv h
  · obtain ⟨⟨tag, n⟩, hn, h⟩ := Decoded.bind_eq_ok.1 h
    have hms := orderly_of_unwrap hv hn
    obtain ⟨ps, -, h⟩ := Decoded.bind_eq_ok.1 h
    cases tag with
    | synonym =>
      obtain ⟨t, ht, ⟨⟩⟩ := Decoded.bind_eq_ok.1 h
      obtain ⟨w, hw, ht'⟩ := field_image hms ht
      exact .synonym (fun p _ => y.name p) (decodeType_image y hw ht')
    | custom =>
      obtain ⟨⟨a, cs⟩, hcs, ⟨⟩⟩ := Decoded.bind_eq_ok.1 h
      obtain ⟨w, hw, hcs'⟩ := field_image hms hcs
      obtain ⟨u, hu, hlist⟩ := accessControlled_image hw hcs'
      exact .custom (fun p _ => y.name p)
        (Shape.list_image hlist hu fun _ _ hz hk => decodeConstructor_image y hz hk)
    | incomplete =>
      obtain ⟨i, -, h⟩ := Decoded.bind_eq_ok.1 h
      obtain ⟨t, ht, ⟨⟩⟩ := Decoded.bind_eq_ok.1 h
      exact .incomplete (fun p _ => y.name p) (y.incompleteness i) (optional_type_image y hms ht)

theorem decodeTypeSpecification_image (y : Yields classicForm P) {v : Json}
    {s : TypeSpecification TypeAttrs} (hv : v.Orderly) (h : decodeTypeSpecification v = .ok s) :
    s.Satisfies P := by
  rw [decodeTypeSpecification.eq_def] at h
  split at h
  · exact Classic.decodeTypeSpecification_image y hv h
  · obtain ⟨⟨tag, n⟩, hn, h⟩ := Decoded.bind_eq_ok.1 h
    have hms := orderly_of_unwrap hv hn
    obtain ⟨ps, -, h⟩ := Decoded.bind_eq_ok.1 h
    cases tag with
    | synonym =>
      obtain ⟨t, ht, ⟨⟩⟩ := Decoded.bind_eq_ok.1 h
      obtain ⟨w, hw, ht'⟩ := field_image hms ht
      exact .synonym (fun p _ => y.name p) (decodeType_image y hw ht')
    | abstract =>
      cases h
      exact .abstract fun p _ => y.name p
    | custom =>
      obtain ⟨cs, hcs, ⟨⟩⟩ := Decoded.bind_eq_ok.1 h
      exact .custom (fun p _ => y.name p)
        (list_field_image hms hcs fun _ _ hz hk => decodeConstructor_image y hz hk)

theorem decodeValueSpecification_image (y : Yields classicForm P) {v : Json}
    {s : ValueSpecification TypeAttrs} (hv : v.Orderly) (h : decodeValueSpecification v = .ok s) :
    s.Satisfies P := by
  obtain ⟨n, hn, hs⟩ := Decoded.bind_eq_ok.1 h
  obtain rfl := record_eq_ok hn
  simp only [Decoded.bind_eq_ok, Decoded.pure_eq] at hs
  obtain ⟨is, his, t, ht, ⟨⟩⟩ := hs
  obtain ⟨w, hw, his'⟩ := field_image hv his
  obtain ⟨u, hu, ht'⟩ := field_image hv ht
  exact ⟨y.keyed _, decodeFields_image hw (fun _ _ hz hx => decodeType_image y hz hx) his',
    decodeType_image y hu ht'⟩

theorem keyed_optional_image {decode : String → Json → Decoded α} {n : Node} {name : String}
    {xs : List α} {Q : α → Prop} (hn : (Json.object n.members).Orderly)
    (h : n.optional name [] (keyed decode) = .ok xs)
    (hQ : ∀ k w x, w.Orderly → decode k w = .ok x → Q x) : ∀ x ∈ xs, Q x :=
  optional_image (Q := fun xs => ∀ x ∈ xs, Q x) hn h (by simp)
    fun _ _ hv hxs => keyed_image hxs hv hQ

theorem decodeModule_image (y : Yields classicForm P) {v : Json}
    {d : ModuleDefinition TypeAttrs ValueAttrs} (hv : v.Orderly) (h : decodeModule v = .ok d) :
    d.Satisfies P := by
  obtain ⟨n, hn, hd⟩ := Decoded.bind_eq_ok.1 h
  obtain rfl := record_eq_ok hn
  obtain ⟨types, htypes, hd⟩ := Decoded.bind_eq_ok.1 hd
  obtain ⟨values, hvalues, hd⟩ := Decoded.bind_eq_ok.1 hd
  obtain ⟨doc, -, ⟨⟩⟩ := Decoded.bind_eq_ok.1 hd
  constructor
  · exact y.keyed _
  · refine keyed_optional_image hv htypes fun k w e hw he => ?_
    obtain ⟨⟨a, doc, d⟩, hd, ⟨⟩⟩ := Decoded.bind_eq_ok.1 he
    obtain ⟨u, hu, hd'⟩ := decodeEntry_image hw hd
    exact decodeTypeDefinition_image y hu hd'
  · exact y.keyed _
  · refine keyed_optional_image hv hvalues fun k w e hw he => ?_
    obtain ⟨⟨a, doc, d⟩, hd, ⟨⟩⟩ := Decoded.bind_eq_ok.1 he
    obtain ⟨u, hu, hd'⟩ := decodeEntry_image hw hd
    exact decodeDefinition_image y hu hd'

theorem decodeModuleSpec_image (y : Yields classicForm P) {v : Json}
    {s : ModuleSpecification TypeAttrs} (hv : v.Orderly) (h : decodeModuleSpec v = .ok s) :
    s.Satisfies P := by
  obtain ⟨n, hn, hd⟩ := Decoded.bind_eq_ok.1 h
  obtain rfl := record_eq_ok hn
  obtain ⟨types, htypes, hd⟩ := Decoded.bind_eq_ok.1 hd
  obtain ⟨values, hvalues, hd⟩ := Decoded.bind_eq_ok.1 hd
  obtain ⟨doc, -, ⟨⟩⟩ := Decoded.bind_eq_ok.1 hd
  constructor
  · exact y.keyed _
  · refine keyed_optional_image hv htypes fun k w e hw he => ?_
    obtain ⟨⟨doc, s⟩, hs, ⟨⟩⟩ := Decoded.bind_eq_ok.1 he
    obtain ⟨u, hu, hs'⟩ := decodeSpecEntry_image hw hs
    exact decodeTypeSpecification_image y hu hs'
  · exact y.keyed _
  · refine keyed_optional_image hv hvalues fun k w e hw he => ?_
    obtain ⟨⟨doc, s⟩, hs, ⟨⟩⟩ := Decoded.bind_eq_ok.1 he
    obtain ⟨u, hu, hs'⟩ := decodeSpecEntry_image hw hs
    exact decodeValueSpecification_image y hu hs'

theorem decodePackage_image (y : Yields classicForm P) {v : Json}
    {p : PackageDefinition TypeAttrs ValueAttrs} (hv : v.Orderly) (h : decodePackage v = .ok p) :
    p.Satisfies P := by
  obtain ⟨n, hn, hp⟩ := Decoded.bind_eq_ok.1 h
  obtain rfl := record_eq_ok hn
  obtain ⟨ms, hms, ⟨⟩⟩ := Decoded.bind_eq_ok.1 hp
  obtain ⟨w, hw, hms'⟩ := field_image hv hms
  refine ⟨y.keyedPaths _, keyed_image hms' hw fun k u e hu he => ?_⟩
  obtain ⟨⟨a, d⟩, hd, ⟨⟩⟩ := Decoded.bind_eq_ok.1 he
  obtain ⟨z, hz, hd'⟩ := accessControlled_image hu hd
  exact decodeModule_image y hz hd'

theorem decodePackageSpec_image (y : Yields classicForm P) {v : Json}
    {p : PackageSpecification TypeAttrs} (hv : v.Orderly) (h : decodePackageSpec v = .ok p) :
    p.Satisfies P := by
  obtain ⟨n, hn, hp⟩ := Decoded.bind_eq_ok.1 h
  obtain rfl := record_eq_ok hn
  obtain ⟨ms, hms, ⟨⟩⟩ := Decoded.bind_eq_ok.1 hp
  obtain ⟨w, hw, hms'⟩ := field_image hv hms
  refine ⟨y.keyedPaths _, keyed_image hms' hw fun k u e hu he => ?_⟩
  obtain ⟨s, hs, ⟨⟩⟩ := Decoded.bind_eq_ok.1 he
  exact decodeModuleSpec_image y hu hs

theorem dependencies_image (y : Yields classicForm P) {n : Node} {name : String}
    {ds : List (Dependency TypeAttrs)} (hn : (Json.object n.members).Orderly)
    (h : n.optional name [] (keyed decodeDependency) = .ok ds) : Dependency.AllSatisfy P ds := by
  refine ⟨y.keyedPaths _, keyed_optional_image hn h fun k w d hw hd => ?_⟩
  obtain ⟨s, hs, ⟨⟩⟩ := Decoded.bind_eq_ok.1 hd
  exact decodePackageSpec_image y hw hs

theorem decodeDistribution_image (y : Yields classicForm P) {v : Json} {d : V4Distribution}
    (hv : v.Orderly) (h : decodeDistribution v = .ok d) : d.Satisfies P := by
  rw [decodeDistribution.eq_def] at h
  split at h
  · exact Classic.decodeDistribution_image y hv h
  · obtain ⟨⟨tag, n⟩, hn, h⟩ := Decoded.bind_eq_ok.1 h
    have hms := orderly_of_unwrap hv hn
    obtain ⟨p, -, h⟩ := Decoded.bind_eq_ok.1 h
    obtain ⟨ds, hds, h⟩ := Decoded.bind_eq_ok.1 h
    have hdeps := dependencies_image y hms hds
    cases tag with
    | library =>
      obtain ⟨d, hd, ⟨⟩⟩ := Decoded.bind_eq_ok.1 h
      obtain ⟨w, hw, hd'⟩ := field_image hms hd
      exact .library (y.path p) hdeps (decodePackage_image y hw hd')
    | specs =>
      obtain ⟨s, hs, ⟨⟩⟩ := Decoded.bind_eq_ok.1 h
      obtain ⟨w, hw, hs'⟩ := field_image hms hs
      exact .specs (y.path p) hdeps (decodePackageSpec_image y hw hs')
    | application =>
      simp only [Decoded.bind_eq_ok, Decoded.pure_eq] at h
      obtain ⟨d, hd, es, -, ⟨⟩⟩ := h
      obtain ⟨w, hw, hd'⟩ := field_image hms hd
      exact .application (y.path p) hdeps (decodePackage_image y hw hd') (y.entryPoints es)

theorem major?_of_checkMajor {version version' : FormatVersion}
    (h : checkMajor version = .ok version') : version'.major? = some 4 := by
  rw [checkMajor] at h
  split at h
  · rename_i hmajor
    cases h
    exact hmajor
  · cases h

theorem major?_of_decodeVersion {v : Json} {version : FormatVersion}
    (h : decodeVersion v = .ok version) : version.major? = some 4 := by
  rw [decodeVersion.eq_def] at h
  split at h
  · split at h
    · exact major?_of_checkMajor h
    · cases h
  · exact major?_of_checkMajor h
  · cases h

theorem major?_defaultV4 : FormatVersion.defaultV4.major? = some 4 := rfl

theorem decodeDocument_image (y : Yields classicForm P) {v : Json} {d : V4Document}
    (hv : v.Orderly) (h : decodeDocument v = .ok d) :
    d.version.major? = some 4 ∧ d.distribution.Satisfies P := by
  obtain ⟨ms, hms, hd⟩ := Decoded.bind_eq_ok.1 h
  obtain rfl := Shape.object_eq_ok.1 hms
  split at hd
  · split at hd
    · obtain ⟨d', hd', ⟨⟩⟩ := Decoded.bind_eq_ok.1 hd
      exact ⟨major?_defaultV4, decodeDistribution_image y hv hd'⟩
    · cases hd
  · simp only [Decoded.bind_eq_ok, Decoded.under_eq_ok, Decoded.pure_eq] at hd
    obtain ⟨version, hversion, w, hw, d', hd', ⟨⟩⟩ := hd
    exact ⟨major?_of_decodeVersion hversion,
      decodeDistribution_image y (Classic.orderly_of_member hv hw) hd'⟩

end IrDialects.V4
