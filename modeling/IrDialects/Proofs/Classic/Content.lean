import IrDialects.Proofs.Classic.Expression
import IrDialects.Proofs.Classic.Value
import IrDialects.Proofs.Json.Image
import IrDialects.Classic.Document

/-!
# Numbers and keys of the Classic form

The Classic form of a tree has no numbers but those of its attributes and literals and the version of
a document. Attributes apart, the members of all its objects stand in one and the same order of keys,
so that no object repeats a key.
-/

namespace IrDialects

open Json.Reader (isNumber_toString isNumber_text)

/-- What a literal with a written form is written as can be written. -/
theorem Literal.Writable.all_encodePayload {keys : List String → Prop} {l : Literal}
    (h : l.Writable) : (Classic.encodePayload l).All Json.Reader.IsNumber keys := by
  cases l with
  | bool b => exact .bool b
  | char c => exact .string _
  | string s => exact .string s
  | integer n => exact .number (isNumber_toString h)
  | float x =>
    obtain ⟨negative, m, rfl⟩ := h
    exact .number (isNumber_text _ negative m)
  | decimal s => exact .string s

namespace Classic

variable {τ ν : Type}

/-- The keys of the Classic form in the order in which members are written. -/
def keyOrder : List String :=
  ["formatVersion", "distribution", "modules", "access", "types", "values", "inputTypes",
    "outputType", "body", "inputs", "output", "hint", "description", "target", "kind", "doc", "value"]

/-- Keys as the Classic form has them in an object. -/
abbrev Ordered : List String → Prop := Json.Ranked keyOrder.idxOf

/-- The attributes and literals that meet the conditions are written with numbers that satisfy `num`
and objects whose keys satisfy `keys`. -/
structure Contains (c : Codec τ ν) (P : Conditions τ ν) (num : String → Prop)
    (keys : List String → Prop) : Prop where
  typeAttrs : ∀ a, P.typeAttrs a → (c.typeAttrs.encode a).All num keys
  valueAttrs : ∀ a, P.valueAttrs a → (c.valueAttrs.encode a).All num keys
  literal : ∀ l, P.literal l → (encodePayload l).All num keys
  keys : ∀ ks, Ordered ks → keys ks

section Parts

variable {num : String → Prop} {keys : List String → Prop}

@[simp] theorem all_encodeName (n : Name) : (encodeName n).All num keys := by
  simp [encodeName]

@[simp] theorem all_encodePath (p : Path) : (encodePath p).All num keys := by
  simp [encodePath]

@[simp] theorem all_encodeFQName (f : FQName) : (encodeFQName f).All num keys := by
  simp [encodeFQName]

@[simp] theorem all_encodeNames (ns : List Name) : (encodeNames ns).All num keys := by
  simp [encodeNames]

@[simp] theorem all_encodeHoleReason (r : HoleReason) : (encodeHoleReason r).All num keys := by
  cases r <;> simp [encodeHoleReason]

@[simp] theorem all_encodeIncompleteness (i : Incompleteness) :
    (encodeIncompleteness i).All num keys := by
  cases i <;> simp [encodeIncompleteness]

@[simp] theorem all_encodeNativeHint (h : NativeHint) : (encodeNativeHint h).All num keys := by
  cases h <;> simp [encodeNativeHint]

theorem all_encodeNativeInfo (hkeys : ∀ ks, Ordered ks → keys ks) (i : NativeInfo) :
    (encodeNativeInfo i).All num keys := by
  by_cases h : i.description = ""
  · simp +decide [encodeNativeInfo, h, Json.keys, hkeys]
  · simp +decide [encodeNativeInfo, h, Json.keys, hkeys]

end Parts

variable {c : Codec τ ν} {P : Conditions τ ν} {num : String → Prop} {keys : List String → Prop}

theorem Contains.all_encodeLiteral (h : Contains c P num keys) {l : Literal} (hl : P.literal l) :
    (encodeLiteral l).All num keys := by
  simp [encodeLiteral, h.literal l hl]

theorem Contains.all_encodeType (h : Contains c P num keys) {t : TypeExpr τ} (ht : t.Satisfies P) :
    (encodeType c.typeAttrs t).All num keys := by
  induction ht with
  | «variable» ha _ => simp [encodeType, h.typeAttrs _ ha]
  | reference ha _ _ ih | tuple ha _ ih => simpa [encodeType, h.typeAttrs _ ha] using ih
  | record ha _ _ ih | extensibleRecord ha _ _ _ ih =>
    simpa [encodeType, h.typeAttrs _ ha] using fun n t hf => ih (n, t) hf
  | function ha _ _ ihx ihy => simp [encodeType, h.typeAttrs _ ha, ihx, ihy]
  | unit ha => simp [encodeType, h.typeAttrs _ ha]

theorem Contains.all_encodeOptionalType (h : Contains c P num keys) {t : Option (TypeExpr τ)}
    (ht : ∀ t' ∈ t, t'.Satisfies P) : (encodeOptionalType c.typeAttrs t).All num keys := by
  cases t with
  | none => exact .null
  | some t => exact h.all_encodeType (ht t rfl)

theorem Contains.all_encodeFields (h : Contains c P num keys) {fs : TypeFields τ}
    (hfs : ∀ f ∈ fs, f.2.Satisfies P) :
    (Json.array (encodeFields c.typeAttrs fs)).All num keys := by
  simpa using fun n t hf => h.all_encodeType (hfs (n, t) hf)

theorem Contains.all_encodePattern (h : Contains c P num keys) {p : Pattern ν} (hp : p.Satisfies P) :
    (encodePattern c.valueAttrs p).All num keys := by
  induction hp with
  | wildcard ha | emptyList ha | unit ha => simp [encodePattern, h.valueAttrs _ ha]
  | as ha _ _ ih => simp [encodePattern, h.valueAttrs _ ha, ih]
  | tuple ha _ ih | constructor ha _ _ ih => simpa [encodePattern, h.valueAttrs _ ha] using ih
  | headTail ha _ _ ihx ihy => simp [encodePattern, h.valueAttrs _ ha, ihx, ihy]
  | literal ha hl => simp [encodePattern, h.valueAttrs _ ha, h.all_encodeLiteral hl]

theorem Contains.all_encodeInput (h : Contains c P num keys) {i : Input τ ν} (hi : i.Satisfies P) :
    (encodeInput c i).All num keys := by
  simp [encodeInput, h.valueAttrs _ hi.attrs, h.all_encodeType hi.type]

theorem Contains.all_encodeBody (h : Contains c P num keys) {b : ValueBody τ ν}
    (hb : ∀ v, b = .expression v → (encodeValue c v).All num keys) :
    (encodeBody c b).All num keys := by
  cases b with
  | expression v => exact hb v rfl
  | native i => simp [encodeBody, all_encodeNativeInfo h.keys]
  | external s p => simp [encodeBody]
  | incomplete i => simp [encodeBody]

theorem Contains.all_encodeDefinition (h : Contains c P num keys) {d : ValueDefinition τ ν}
    (hd : d.Framed P) (hb : ∀ v, d.body = .expression v → (encodeValue c v).All num keys) :
    (encodeDefinition c d).All num keys := by
  obtain ⟨is, t, b⟩ := d
  have his : ∀ i ∈ is, (encodeInput c i).All num keys := fun i hi => h.all_encodeInput (hd.inputs i hi)
  have ht : (encodeType c.typeAttrs t).All num keys := h.all_encodeType hd.output
  have hbody := h.all_encodeBody hb
  simpa +decide [encodeDefinition, Json.keys, h.keys, ht] using ⟨his, hbody⟩

theorem Contains.all_encodeValue (h : Contains c P num keys) {v : Value τ ν} (hv : v.Satisfies P) :
    (encodeValue c v).All num keys := by
  induction hv with
  | literal ha hl => simp [encodeValue, h.valueAttrs _ ha, h.all_encodeLiteral hl]
  | constructor ha _ | «variable» ha _ | reference ha _ | fieldFunction ha _ | unit ha
  | external ha => simp [encodeValue, h.valueAttrs _ ha]
  | tuple ha _ ih | list ha _ ih => simpa [encodeValue, h.valueAttrs _ ha] using ih
  | record ha _ _ ih => simpa [encodeValue, h.valueAttrs _ ha] using fun n v hf => ih (n, v) hf
  | field ha _ _ ih => simp [encodeValue, h.valueAttrs _ ha, ih]
  | apply ha _ _ ihf ihx => simp [encodeValue, h.valueAttrs _ ha, ihf, ihx]
  | lambda ha hp _ ih => simp [encodeValue, h.valueAttrs _ ha, h.all_encodePattern hp, ih]
  | letDefinition ha _ hd _ _ ihv ihb =>
    simp [encodeValue, h.valueAttrs _ ha, h.all_encodeDefinition hd ihv, ihb]
  | letRecursion ha _ hds _ _ ihv ihb =>
    simpa [encodeValue, h.valueAttrs _ ha, ihb] using
      fun n d hd => h.all_encodeDefinition (hds (n, d) hd) (ihv (n, d) hd)
  | destructure ha hp _ _ ihv ihb =>
    simp [encodeValue, h.valueAttrs _ ha, h.all_encodePattern hp, ihv, ihb]
  | ifThenElse ha _ _ _ ihx iht ihe => simp [encodeValue, h.valueAttrs _ ha, ihx, iht, ihe]
  | patternMatch ha _ hps _ ihv ihcs =>
    simpa [encodeValue, h.valueAttrs _ ha, ihv] using
      fun p v hk => ⟨h.all_encodePattern (hps (p, v) hk), ihcs (p, v) hk⟩
  | updateRecord ha _ _ _ ihv ihus =>
    simpa [encodeValue, h.valueAttrs _ ha, ihv] using fun n v hu => ihus (n, v) hu
  | hole ha _ ht => simp [encodeValue, h.valueAttrs _ ha, h.all_encodeOptionalType ht]
  | native ha _ => simp [encodeValue, h.valueAttrs _ ha, all_encodeNativeInfo h.keys]

theorem Contains.all_encodeAccess (h : Contains c P num keys) {v : Json} (hv : v.All num keys)
    (a : Access) : (encodeAccess a v).All num keys := by
  simp +decide [encodeAccess, Json.keys, h.keys, hv]

theorem Contains.all_encodeDocumented (h : Contains c P num keys) {v : Json} (hv : v.All num keys)
    (doc : String) : (encodeDocumented doc v).All num keys := by
  simp +decide [encodeDocumented, Json.keys, h.keys, hv]

theorem Contains.all_encodeConstructor (h : Contains c P num keys) {k : Constructor τ}
    (hk : k.Satisfies P) : (encodeConstructor c.typeAttrs k).All num keys := by
  simpa [encodeConstructor] using h.all_encodeFields hk.types

theorem Contains.all_encodeTypeDefinition (h : Contains c P num keys) {d : TypeDefinition τ}
    (hd : d.Satisfies P) : (encodeTypeDefinition c.typeAttrs d).All num keys := by
  cases hd with
  | synonym _ ht => simp [encodeTypeDefinition, h.all_encodeType ht]
  | custom _ hks =>
    have hks' := h.all_encodeAccess (Json.all_array.2
      (List.forall_mem_map.2 fun k hk => h.all_encodeConstructor (hks k hk)))
    simp [encodeTypeDefinition, hks']
  | incomplete _ _ ht => simp [encodeTypeDefinition, h.all_encodeOptionalType ht]

theorem Contains.all_encodeTypeSpecification (h : Contains c P num keys) {s : TypeSpecification τ}
    (hs : s.Satisfies P) : (encodeTypeSpecification c.typeAttrs s).All num keys := by
  cases hs with
  | synonym _ ht => simp [encodeTypeSpecification, h.all_encodeType ht]
  | abstract _ => simp [encodeTypeSpecification]
  | custom _ hks =>
    simpa [encodeTypeSpecification] using fun k hk => h.all_encodeConstructor (hks k hk)

theorem Contains.all_encodeValueSpecification (h : Contains c P num keys)
    {s : ValueSpecification τ} (hs : s.Satisfies P) :
    (encodeValueSpecification c.typeAttrs s).All num keys := by
  have his := h.all_encodeFields hs.inputs
  have ht := h.all_encodeType hs.output
  rw [encodeValueSpecification, Json.all_object]
  exact ⟨h.keys _ (by simp +decide [Json.keys]), by simpa [ht] using his⟩

@[simp] theorem all_encodeDoc (doc : String) : (encodeDoc doc).All num keys := by
  by_cases h : doc = "" <;> simp [encodeDoc, h]

theorem Contains.all_encodeModule (h : Contains c P num keys) {m : ModuleDefinition τ ν}
    (hm : m.Satisfies P) : (encodeModule c m).All num keys := by
  have htypes : ∀ e ∈ m.types, (encodeTypeEntry c.typeAttrs e).All num keys := by
    intro e he
    have hdoc := h.all_encodeDocumented (h.all_encodeTypeDefinition (hm.types e he)) e.doc
    simp [encodeTypeEntry, h.all_encodeAccess hdoc]
  have hvalues : ∀ e ∈ m.values, (encodeValueEntry c e).All num keys := by
    intro e he
    have hd := h.all_encodeDefinition (hm.values e he).framed
      fun v hv => h.all_encodeValue ((hm.values e he).expression v hv)
    simp [encodeValueEntry, h.all_encodeAccess (h.all_encodeDocumented hd e.doc)]
  simpa +decide [encodeModule, Json.keys, h.keys] using ⟨htypes, hvalues⟩

theorem Contains.all_encodeModuleSpec (h : Contains c P num keys) {m : ModuleSpecification τ}
    (hm : m.Satisfies P) : (encodeModuleSpec c.typeAttrs m).All num keys := by
  have htypes : ∀ e ∈ m.types, (encodeTypeSpecEntry c.typeAttrs e).All num keys := by
    intro e he
    have hs := h.all_encodeTypeSpecification (hm.types e he)
    simp [encodeTypeSpecEntry, h.all_encodeDocumented hs]
  have hvalues : ∀ e ∈ m.values, (encodeValueSpecEntry c.typeAttrs e).All num keys := by
    intro e he
    have hs := h.all_encodeValueSpecification (hm.values e he)
    simp [encodeValueSpecEntry, h.all_encodeDocumented hs]
  simpa +decide [encodeModuleSpec, Json.keys, h.keys] using ⟨htypes, hvalues⟩

theorem Contains.all_encodePackage (h : Contains c P num keys) {p : PackageDefinition τ ν}
    (hp : p.Satisfies P) : (encodePackage c p).All num keys := by
  simpa +decide [encodePackage, Json.keys, h.keys] using
    fun e he => h.all_encodeAccess (h.all_encodeModule (hp.modules e he)) e.access

theorem Contains.all_encodePackageSpec (h : Contains c P num keys) {p : PackageSpecification τ}
    (hp : p.Satisfies P) : (encodePackageSpec c.typeAttrs p).All num keys := by
  simpa +decide [encodePackageSpec, Json.keys, h.keys] using
    fun e he => h.all_encodeModuleSpec (hp.modules e he)

theorem Contains.all_encodeDependencies (h : Contains c P num keys) {ds : List (Dependency τ)}
    (hds : Dependency.AllSatisfy P ds) :
    (Json.array (ds.map (encodeDependency c.typeAttrs))).All num keys := by
  simpa [encodeDependency] using fun d hd => h.all_encodePackageSpec (hds.specifications d hd)

theorem Contains.all_encodeEntryPoint (h : Contains c P num keys) (e : EntryPoint) :
    (encodeEntryPoint e).All num keys := by
  by_cases hd : e.doc = "" <;> simp +decide [encodeEntryPoint, hd, Json.keys, h.keys]

theorem Contains.all_encodeDistribution (h : Contains c P num keys) {d : Distribution τ ν}
    (hd : d.Satisfies P) : (encodeDistribution c d).All num keys := by
  cases hd with
  | library _ hds hd =>
    simpa [encodeDistribution, h.all_encodePackage hd] using h.all_encodeDependencies hds
  | specs _ hds hs =>
    simpa [encodeDistribution, h.all_encodePackageSpec hs] using h.all_encodeDependencies hds
  | application _ hds hd _ =>
    simpa [encodeDistribution, h.all_encodePackage hd, h.all_encodeEntryPoint] using
      h.all_encodeDependencies hds

/-- The version of a document is written as a number between 1 and 3. -/
theorem Contains.all_encodeDocument (h : Contains c P num keys)
    (hnum : ∀ n : Int, 1 ≤ n → n ≤ 3 → num (toString n)) {d : Document τ ν}
    (hd : d.distribution.Satisfies P) : (encodeDocument c d).All num keys := by
  have hversion : num (toString (writtenVersion d.version)) := by
    rw [writtenVersion.eq_def]
    split
    · split
      · rename_i hn
        exact hnum _ hn.1 hn.2
      · exact hnum 3 (by omega) (by omega)
    · exact hnum 3 (by omega) (by omega)
  have hnumber : (Json.ofInt (writtenVersion d.version)).All num keys := .number hversion
  simp +decide [encodeDocument, Json.keys, h.keys, hnumber, h.all_encodeDistribution hd]

end Classic

end IrDialects
