import IrDialects.Proofs.V4.Content

/-!
# Siblings under one key

A tree whose V4 form repeats no key has siblings with different keys. So the names of siblings are
the only thing that can make the form of a tree repeat a key, if its attributes repeat none.
-/

namespace IrDialects

/-- Siblings that are written under keys have different keys. -/
def Conditions.apart {τ ν : Type} : Conditions τ ν where
  names ns := (ns.map Name.kebab).Nodup
  paths ps := (ps.map Path.text).Nodup

namespace V4

variable {P : Conditions TypeAttrs ValueAttrs} {num : String → Prop} {m : Mode}

section Nodes

variable {α : Type} {keys : List String → Prop} {tag : String} {ms : Members}

theorem forall_of_wrapped (h : (wrapped tag ms).All num keys) : ∀ p ∈ ms, p.2.All num keys := by
  simp only [wrapped, Json.all_object, List.forall_mem_singleton] at h
  exact h.2.2

/-- A list that is left out has no items. -/
theorem forall_of_member {key : String} {f : α → Json} {xs : List α}
    (h : ∀ p ∈ member m key (.array (xs.map f)) xs.isEmpty, p.2.All num keys) :
    ∀ x ∈ xs, (f x).All num keys := by
  cases xs with
  | nil => simp
  | cons x xs => exact Json.all_array_map.1 (h (key, _) (by simp [member]))

/-- The second halves of a list of pairs. -/
theorem forall_of_pairs {f g : α → Json} {xs : List α}
    (h : (Json.array (xs.map fun x => .array [f x, g x])).All num keys) :
    ∀ x ∈ xs, (g x).All num keys := by
  intro x hx
  exact Json.all_array.1 (Json.all_array_map.1 h x hx) (g x) (by simp)

/-- Siblings that are keyed by their names. -/
theorem apart_of_keyed {f : α → Name} {encode : α → Json} {xs : List α}
    (h : (Json.object (xs.map fun x => ((f x).kebab, encode x))).All num List.Nodup) :
    (.apart : Conditions TypeAttrs ValueAttrs).Keyed (xs.map f) ∧
      ∀ x ∈ xs, (encode x).All num List.Nodup := by
  obtain ⟨hkeys, hxs⟩ := Json.all_object.1 h
  refine ⟨⟨fun _ _ => trivial, ?_⟩, fun x hx => hxs _ (List.mem_map_of_mem hx)⟩
  simpa [Conditions.apart, Json.keys, Function.comp_def] using hkeys

/-- Siblings that are keyed by their paths. -/
theorem apart_of_keyedPaths {f : α → Path} {encode : α → Json} {xs : List α}
    (h : (Json.object (xs.map fun x => ((f x).text, encode x))).All num List.Nodup) :
    (.apart : Conditions TypeAttrs ValueAttrs).KeyedPaths (xs.map f) ∧
      ∀ x ∈ xs, (encode x).All num List.Nodup := by
  obtain ⟨hkeys, hxs⟩ := Json.all_object.1 h
  refine ⟨⟨fun _ _ => trivial, ?_⟩, fun x hx => hxs _ (List.mem_map_of_mem hx)⟩
  simpa [Conditions.apart, Json.keys, Function.comp_def] using hkeys

end Nodes

theorem apart_of_encodeType {t : V4Type} (ht : t.Satisfies P)
    (h : (encodeType m t).All num List.Nodup) : t.Satisfies (.apart : Conditions _ ValueAttrs) := by
  induction ht with
  | «variable» => exact .variable trivial trivial
  | reference _ _ _ ih =>
    rw [encodeType, encodeTypes_eq_map] at h
    have hms := forall_of_wrapped h
    simp only [List.forall_mem_cons, List.forall_mem_append] at hms
    exact .reference trivial trivial fun t ht => ih t ht (forall_of_member hms.2.1 t ht)
  | tuple _ _ ih =>
    rw [encodeType, encodeTypes_eq_map] at h
    have hms := forall_of_wrapped h
    simp only [List.forall_mem_cons, Json.all_array_map] at hms
    exact .tuple trivial fun t ht => ih t ht (hms.1 t ht)
  | record _ _ _ ih =>
    rw [encodeType, encodeFields_eq_map] at h
    have hms := forall_of_wrapped h
    obtain ⟨hkeys, hfs⟩ := apart_of_keyed (List.forall_mem_cons.1 hms).1
    exact .record trivial hkeys fun f hf => ih f hf (hfs f hf)
  | extensibleRecord _ _ _ _ ih =>
    rw [encodeType, encodeFields_eq_map] at h
    have hms := (List.forall_mem_cons.1 (forall_of_wrapped h)).2
    obtain ⟨hkeys, hfs⟩ := apart_of_keyed (List.forall_mem_cons.1 hms).1
    exact .extensibleRecord trivial trivial hkeys fun f hf => ih f hf (hfs f hf)
  | function _ _ _ ihx ihy =>
    rw [encodeType] at h
    have hms := forall_of_wrapped h
    simp only [List.forall_mem_cons] at hms
    exact .function trivial (ihx hms.1) (ihy hms.2.1)
  | unit => exact .unit trivial

/-- No sibling of a pattern is written under a key. -/
theorem apart_of_pattern {p : Pattern ValueAttrs} (hp : p.Satisfies P) :
    p.Satisfies (.apart : Conditions TypeAttrs _) := by
  induction hp with
  | wildcard => exact .wildcard trivial
  | emptyList => exact .emptyList trivial
  | unit => exact .unit trivial
  | as _ _ _ ih => exact .as trivial ih trivial
  | tuple _ _ ih => exact .tuple trivial ih
  | constructor _ _ _ ih => exact .constructor trivial trivial ih
  | headTail _ _ _ ihx ihy => exact .headTail trivial ihx ihy
  | literal => exact .literal trivial trivial

section Values

theorem apart_of_encodeInputs {is : List (Input TypeAttrs ValueAttrs)}
    (his : ∀ i ∈ is, i.Satisfies P)
    (h : (Json.object (is.map (encodeInput m))).All num List.Nodup) :
    (.apart : Conditions TypeAttrs ValueAttrs).Keyed (is.map Input.name) ∧
      ∀ i ∈ is, i.Satisfies (.apart : Conditions TypeAttrs ValueAttrs) := by
  obtain ⟨hkeys, hinputs⟩ := apart_of_keyed (f := Input.name) h
  refine ⟨hkeys, fun i hi => ⟨trivial, ?_⟩⟩
  have htype : (encodeType m i.type).All num List.Nodup :=
    (Json.all_object.1 (hinputs i hi)).2 ("type", _) (by simp)
  exact apart_of_encodeType (his i hi).type htype

theorem apart_of_encodeDefinition {d : V4Definition} (hd : d.Framed P)
    (h : (encodeDefinition m d).All num List.Nodup) :
    d.Framed (.apart : Conditions TypeAttrs ValueAttrs) ∧
      ∀ v, d.body = .expression v → (encodeValue m v).All num List.Nodup := by
  obtain ⟨is, t, b⟩ := d
  simp only [encodeDefinition, Json.all_object, List.forall_mem_cons] at h
  obtain ⟨-, his, ht, hb, -⟩ := h
  obtain ⟨hkeys, hinputs⟩ := apart_of_encodeInputs hd.inputs (Json.all_object.2 his)
  refine ⟨⟨hkeys, hinputs, apart_of_encodeType hd.output ht, fun i _ r _ f _ => trivial⟩, ?_⟩
  rintro v rfl
  rw [encodeBody] at hb
  exact forall_of_wrapped hb ("body", _) (by simp)

theorem apart_of_encodeValue {v : V4Value} (hv : v.Satisfies P)
    (h : (encodeValue m v).All num List.Nodup) :
    v.Satisfies (.apart : Conditions TypeAttrs ValueAttrs) := by
  induction hv with
  | literal => exact .literal trivial trivial
  | constructor => exact .constructor trivial trivial
  | tuple _ _ ih =>
    rw [encodeValue, encodeValues_eq_map] at h
    have hms := forall_of_wrapped h
    simp only [List.forall_mem_cons, Json.all_array_map] at hms
    exact .tuple trivial fun v hv => ih v hv (hms.1 v hv)
  | list _ _ ih =>
    rw [encodeValue, encodeValues_eq_map] at h
    have hms := forall_of_wrapped h
    simp only [List.forall_mem_cons, Json.all_array_map] at hms
    exact .list trivial fun v hv => ih v hv (hms.1 v hv)
  | record _ _ _ ih =>
    rw [encodeValue, encodeEntries_eq_map] at h
    have hms := forall_of_wrapped h
    obtain ⟨hkeys, hfs⟩ := apart_of_keyed (List.forall_mem_cons.1 hms).1
    exact .record trivial hkeys fun f hf => ih f hf (hfs f hf)
  | «variable» => exact .variable trivial trivial
  | reference => exact .reference trivial trivial
  | field _ _ _ ih =>
    rw [encodeValue] at h
    have hms := forall_of_wrapped h
    simp only [List.forall_mem_cons] at hms
    exact .field trivial (ih hms.1) trivial
  | fieldFunction => exact .fieldFunction trivial trivial
  | apply _ _ _ ihf ihx =>
    rw [encodeValue] at h
    have hms := forall_of_wrapped h
    simp only [List.forall_mem_cons] at hms
    exact .apply trivial (ihf hms.1) (ihx hms.2.1)
  | lambda _ hp _ ih =>
    rw [encodeValue] at h
    have hms := forall_of_wrapped h
    simp only [List.forall_mem_cons] at hms
    exact .lambda trivial (apart_of_pattern hp) (ih hms.2.1)
  | letDefinition _ _ hd _ _ ihv ihb =>
    rw [encodeValue] at h
    have hms := forall_of_wrapped h
    simp only [List.forall_mem_cons] at hms
    obtain ⟨hd', hbody⟩ := apart_of_encodeDefinition hd hms.2.1
    exact .letDefinition trivial trivial hd' (fun v hv => ihv v hv (hbody v hv)) (ihb hms.2.2.1)
  | letRecursion _ _ hds _ _ ihv ihb =>
    rw [encodeValue, encodeBindings_eq_map] at h
    have hms := forall_of_wrapped h
    simp only [List.forall_mem_cons] at hms
    have hds' := fun d hd => apart_of_encodeDefinition (hds d hd) (forall_of_pairs hms.1 d hd)
    exact .letRecursion trivial (fun _ _ => trivial) (fun d hd => (hds' d hd).1)
      (fun d hd v hv => ihv d hd v hv ((hds' d hd).2 v hv)) (ihb hms.2.1)
  | destructure _ hp _ _ ihv ihb =>
    rw [encodeValue] at h
    have hms := forall_of_wrapped h
    simp only [List.forall_mem_cons] at hms
    exact .destructure trivial (apart_of_pattern hp) (ihv hms.2.1) (ihb hms.2.2.1)
  | ifThenElse _ _ _ _ ihx iht ihe =>
    rw [encodeValue] at h
    have hms := forall_of_wrapped h
    simp only [List.forall_mem_cons] at hms
    exact .ifThenElse trivial (ihx hms.1) (iht hms.2.1) (ihe hms.2.2.1)
  | patternMatch _ _ hps _ ihv ihcs =>
    rw [encodeValue, encodeCases_eq_map] at h
    have hms := forall_of_wrapped h
    simp only [List.forall_mem_cons] at hms
    exact .patternMatch trivial (ihv hms.1) (fun c hc => apart_of_pattern (hps c hc))
      fun c hc => ihcs c hc (forall_of_pairs hms.2.1 c hc)
  | updateRecord _ _ _ _ ihv ihus =>
    rw [encodeValue, encodeUpdates_eq_map] at h
    have hms := forall_of_wrapped h
    simp only [List.forall_mem_cons] at hms
    exact .updateRecord trivial (ihv hms.1) (fun _ _ => trivial)
      fun u hu => ihus u hu (forall_of_pairs hms.2.1 u hu)
  | unit => exact .unit trivial
  | hole _ _ ht =>
    rw [encodeValue] at h
    have hms := (List.forall_mem_cons.1 (forall_of_wrapped h)).2
    refine .hole trivial (fun _ _ => trivial) fun t ht' => ?_
    have htype : (encodeType m t).All num List.Nodup :=
      hms ("tpe", _) (by simp [Option.mem_def.1 ht'])
    exact apart_of_encodeType (ht t ht') htype
  | native => exact .native trivial trivial
  | external => exact .external trivial

end Values

theorem apart_of_encodeConstructor {k : Constructor TypeAttrs} (hk : k.Satisfies P)
    (h : (encodeConstructor m k).All num List.Nodup) :
    k.Satisfies (.apart : Conditions TypeAttrs ValueAttrs) := by
  have hargs := forall_of_member (List.forall_mem_cons.1 (Json.all_object.1 h).2).2
  refine ⟨trivial, fun _ _ => trivial, fun f hf => ?_⟩
  have htype : (encodeType m f.2).All num List.Nodup :=
    Json.all_array.1 (hargs f hf) _ (by simp)
  exact apart_of_encodeType (hk.types f hf) htype

theorem all_of_encodeAccess {keys : List String → Prop} {a : Access} {v : Json}
    (h : (Classic.encodeAccess a v).All num keys) : v.All num keys :=
  (Json.all_object.1 h).2 ("value", v) (by simp)

theorem apart_of_encodeTypeDefinition {d : TypeDefinition TypeAttrs} (hd : d.Satisfies P)
    (h : (encodeTypeDefinition m d).All num List.Nodup) :
    d.Satisfies (.apart : Conditions TypeAttrs ValueAttrs) := by
  cases hd with
  | synonym _ ht =>
    have hms := forall_of_wrapped h
    simp only [List.forall_mem_cons] at hms
    exact .synonym (fun _ _ => trivial) (apart_of_encodeType ht hms.2.1)
  | custom _ hks =>
    have hms := forall_of_wrapped h
    simp only [List.forall_mem_cons] at hms
    have hks' := Json.all_array_map.1 (all_of_encodeAccess hms.2.1)
    exact .custom (fun _ _ => trivial) fun k hk => apart_of_encodeConstructor (hks k hk) (hks' k hk)
  | incomplete _ _ ht =>
    refine .incomplete (fun _ _ => trivial) (fun _ _ _ _ => trivial) fun t ht' => ?_
    have htype : (encodeType m t).All num List.Nodup :=
      forall_of_wrapped h ("partial", _) (by simp [Option.mem_def.1 ht'])
    exact apart_of_encodeType (ht t ht') htype

theorem apart_of_encodeTypeSpecification {s : TypeSpecification TypeAttrs} (hs : s.Satisfies P)
    (h : (encodeTypeSpecification m s).All num List.Nodup) :
    s.Satisfies (.apart : Conditions TypeAttrs ValueAttrs) := by
  cases hs with
  | synonym _ ht =>
    have hms := forall_of_wrapped h
    simp only [List.forall_mem_cons] at hms
    exact .synonym (fun _ _ => trivial) (apart_of_encodeType ht hms.2.1)
  | abstract => exact .abstract fun _ _ => trivial
  | custom _ hks =>
    have hms := forall_of_wrapped h
    simp only [List.forall_mem_cons, Json.all_array_map] at hms
    exact .custom (fun _ _ => trivial) fun k hk =>
      apart_of_encodeConstructor (hks k hk) (hms.2.1 k hk)

theorem apart_of_encodeValueSpecification {s : ValueSpecification TypeAttrs} (hs : s.Satisfies P)
    (h : (encodeValueSpecification m s).All num List.Nodup) :
    s.Satisfies (.apart : Conditions TypeAttrs ValueAttrs) := by
  rw [encodeValueSpecification, encodeFields_eq_map] at h
  have hms := (Json.all_object.1 h).2
  simp only [List.forall_mem_cons] at hms
  obtain ⟨hkeys, his⟩ := apart_of_keyed hms.1
  exact ⟨hkeys, fun f hf => apart_of_encodeType (hs.inputs f hf) (his f hf),
    apart_of_encodeType hs.output hms.2.1⟩

section Modules

theorem all_of_encodeSpecEntry {keys : List String → Prop} {doc : String} {v : Json}
    (h : (encodeSpecEntry m doc v).All num keys) : v.All num keys :=
  (Json.all_object.1 h).2 ("value", v) (by simp)

theorem all_of_encodeEntry {keys : List String → Prop} {a : Access} {doc : String} {v : Json}
    (h : (encodeEntry m a doc v).All num keys) : v.All num keys :=
  (Json.all_object.1 h).2 ("value", v) (by simp)

theorem apart_of_encodeModule {d : ModuleDefinition TypeAttrs ValueAttrs} (hd : d.Satisfies P)
    (h : (encodeModule m d).All num List.Nodup) : d.Satisfies .apart := by
  have hms := (Json.all_object.1 h).2
  simp only [List.forall_mem_cons] at hms
  obtain ⟨htypeKeys, htypes⟩ := apart_of_keyed hms.1
  obtain ⟨hvalueKeys, hvalues⟩ := apart_of_keyed hms.2.1
  refine ⟨htypeKeys, fun e he => ?_, hvalueKeys, fun e he => ?_⟩
  · exact apart_of_encodeTypeDefinition (hd.types e he) (all_of_encodeEntry (htypes e he))
  · obtain ⟨hframed, hbody⟩ :=
      apart_of_encodeDefinition (hd.values e he).framed (all_of_encodeEntry (hvalues e he))
    exact ⟨hframed, fun v hv => apart_of_encodeValue ((hd.values e he).expression v hv) (hbody v hv)⟩

theorem apart_of_encodeModuleSpec {s : ModuleSpecification TypeAttrs} (hs : s.Satisfies P)
    (h : (encodeModuleSpec m s).All num List.Nodup) :
    s.Satisfies (.apart : Conditions TypeAttrs ValueAttrs) := by
  have hms := (Json.all_object.1 h).2
  simp only [List.forall_mem_cons] at hms
  obtain ⟨htypeKeys, htypes⟩ := apart_of_keyed hms.1
  obtain ⟨hvalueKeys, hvalues⟩ := apart_of_keyed hms.2.1
  refine ⟨htypeKeys, fun e he => ?_, hvalueKeys, fun e he => ?_⟩
  · exact apart_of_encodeTypeSpecification (hs.types e he) (all_of_encodeSpecEntry (htypes e he))
  · exact apart_of_encodeValueSpecification (hs.values e he) (all_of_encodeSpecEntry (hvalues e he))

theorem apart_of_encodePackage {p : PackageDefinition TypeAttrs ValueAttrs} (hp : p.Satisfies P)
    (h : (encodePackage m p).All num List.Nodup) : p.Satisfies .apart := by
  have hms := (Json.all_object.1 h).2
  simp only [List.forall_mem_cons] at hms
  obtain ⟨hkeys, hmodules⟩ := apart_of_keyedPaths hms.1
  exact ⟨hkeys, fun e he =>
    apart_of_encodeModule (hp.modules e he) (all_of_encodeAccess (hmodules e he))⟩

theorem apart_of_encodePackageSpec {p : PackageSpecification TypeAttrs} (hp : p.Satisfies P)
    (h : (encodePackageSpec m p).All num List.Nodup) :
    p.Satisfies (.apart : Conditions TypeAttrs ValueAttrs) := by
  have hms := (Json.all_object.1 h).2
  simp only [List.forall_mem_cons] at hms
  obtain ⟨hkeys, hmodules⟩ := apart_of_keyedPaths hms.1
  exact ⟨hkeys, fun e he => apart_of_encodeModuleSpec (hp.modules e he) (hmodules e he)⟩

end Modules

theorem apart_of_encodeDistribution {d : V4Distribution} (hd : d.Satisfies P)
    (h : (encodeDistribution m d).All num List.Nodup) : d.Satisfies .apart := by
  have hdeps : ∀ ds : List (Dependency TypeAttrs), Dependency.AllSatisfy P ds →
      (Json.object (ds.map fun d => (d.name.text, encodePackageSpec m d.specification))).All num
        List.Nodup → Dependency.AllSatisfy (.apart : Conditions TypeAttrs ValueAttrs) ds := by
    intro ds hds h
    obtain ⟨hkeys, hspecs⟩ := apart_of_keyedPaths h
    exact ⟨hkeys, fun d hd => apart_of_encodePackageSpec (hds.specifications d hd) (hspecs d hd)⟩
  cases hd with
  | library _ hds hd =>
    have hms := forall_of_wrapped h
    simp only [distributionHead, List.cons_append, List.nil_append, List.forall_mem_cons] at hms
    exact .library trivial (hdeps _ hds hms.2.1) (apart_of_encodePackage hd hms.2.2.1)
  | specs _ hds hs =>
    have hms := forall_of_wrapped h
    simp only [distributionHead, List.cons_append, List.nil_append, List.forall_mem_cons] at hms
    exact .specs trivial (hdeps _ hds hms.2.1) (apart_of_encodePackageSpec hs hms.2.2.1)
  | application _ hds hd hes =>
    have hms := forall_of_wrapped h
    simp only [distributionHead, List.cons_append, List.nil_append, List.forall_mem_cons] at hms
    obtain ⟨hkeys, -⟩ := apart_of_keyed (f := EntryPoint.name) hms.2.2.2.1
    exact .application trivial (hdeps _ hds hms.2.1) (apart_of_encodePackage hd hms.2.2.1)
      ⟨hkeys, fun _ _ => trivial⟩

/-- If the form of a document repeats no key, then its siblings have different keys. -/
theorem apart_of_encodeDocument {d : V4Document} (hd : d.distribution.Satisfies P)
    (h : (encodeDocument m d).All num List.Nodup) : d.distribution.Satisfies .apart := by
  have hms := (Json.all_object.1 h).2
  simp only [List.forall_mem_cons] at hms
  exact apart_of_encodeDistribution hd hms.2.1

end V4

end IrDialects
