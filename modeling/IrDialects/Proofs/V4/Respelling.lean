import IrDialects.Proofs.V4.Document

/-!
# Respelling the names of V4 documents

The V4 form of a name is a string, and names with different words may have one string. What the form
of a tree is read as depends on the strings alone, so a tree need not have canonical names to be
written like one that has: it is enough that each of its names is written like a canonical name.
-/

namespace IrDialects

/-- The name is written like one that is canonical. -/
def Name.Plain (n : Name) : Prop := ∃ n' : Name, n'.Canonical ∧ n'.kebab = n.kebab

/-- The path is written like one that is canonical. -/
def Path.Plain (p : Path) : Prop := ∃ p' : Path, p'.Canonical ∧ p'.text = p.text

/-- The qualified name is written like one that is canonical. -/
def FQName.Plain (f : FQName) : Prop := ∃ f' : FQName, f'.Canonical ∧ f'.hashText = f.hashText

/-- A name is written like a canonical one exactly if its string is read as a name with that string. -/
theorem Name.plain_iff {n : Name} : n.Plain ↔ (parse n.kebab).kebab = n.kebab := by
  constructor
  · rintro ⟨n', hn', heq⟩
    rw [← heq, hn'.parse_kebab]
  · exact fun h => ⟨_, canonical_ofChars _, h⟩

theorem Path.plain_iff {p : Path} : p.Plain ↔ (parse p.text).text = p.text := by
  constructor
  · rintro ⟨p', hp', heq⟩
    rw [← heq, hp'.parse_text]
  · exact fun h => ⟨_, canonical_ofChars _, h⟩

theorem FQName.plain_iff {f : FQName} :
    f.Plain ↔ (parse? f.hashText).map hashText = some f.hashText := by
  constructor
  · rintro ⟨f', hf', heq⟩
    rw [← heq, hf'.parse?_hashText, Option.map_some]
  · intro h
    obtain ⟨f', hf', heq⟩ := Option.map_eq_some_iff.1 h
    exact ⟨f', canonical_of_parse? hf', heq⟩

instance : DecidablePred Name.Plain := fun _ => decidable_of_iff _ Name.plain_iff.symm

instance : DecidablePred Path.Plain := fun _ => decidable_of_iff _ Path.plain_iff.symm

instance : DecidablePred FQName.Plain := fun _ => decidable_of_iff _ FQName.plain_iff.symm

-- A string does not tell hyphens inside words from those between them. It does tell capitals, an
-- empty name at the end of a path, and that a qualified name has no local name.
example : (⟨["my-org"]⟩ : Name).Plain ∧ ¬ (⟨["My"]⟩ : Name).Plain ∧
    ¬ (⟨[⟨["my"]⟩, ⟨[]⟩]⟩ : Path).Plain ∧ ¬ (⟨⟨[]⟩, ⟨[]⟩, ⟨[]⟩⟩ : FQName).Plain := by
  decide

/-- Every identifier of a tree is written like one that is canonical. -/
def Conditions.plain {τ ν : Type} : Conditions τ ν where
  name := Name.Plain
  path := Path.Plain
  qualified := FQName.Plain

namespace V4

/-- The parts of a tree are read back once its names are respelled. -/
def respellable : Conditions TypeAttrs ValueAttrs :=
  { read with name := Name.Plain, path := Path.Plain, qualified := FQName.Plain }

theorem carried_respellable : read.Carried .plain respellable id id where
  typeAttrs _ ha _ := ha
  valueAttrs _ ha _ := ha
  literal _ hl _ := hl
  name _ _ hn := hn
  path _ _ hp := hp
  qualified _ _ hf := hf
  names _ _ _ := trivial
  paths _ _ _ := trivial

section Lists

variable {α β : Type}

/-- Something that satisfies `Q` is written like `x` in both modes. -/
def Respelled (Q : α → Prop) (encode : Mode → α → β) (x : α) : Prop :=
  ∃ x', Q x' ∧ ∀ m, encode m x' = encode m x

variable {Q : α → Prop} {encode : Mode → α → β} {xs : List α}

/-- A list is respelled item by item. -/
theorem exists_respelled_list (h : ∀ x ∈ xs, Respelled Q encode x) :
    ∃ xs' : List α, (∀ x ∈ xs', Q x) ∧ ∀ m, xs'.map (encode m) = xs.map (encode m) := by
  induction xs with
  | nil => exact ⟨[], by simp, fun _ => rfl⟩
  | cons x xs ih =>
    obtain ⟨⟨x', hx', hx⟩, hxs⟩ := List.forall_mem_cons.1 h
    obtain ⟨xs', hxs', heq⟩ := ih hxs
    exact ⟨x' :: xs', List.forall_mem_cons.2 ⟨hx', hxs'⟩, fun m => by
      rw [List.map_cons, List.map_cons, hx, heq]⟩

theorem isEmpty_respelled {xs' : List α} (h : ∀ m, xs'.map (encode m) = xs.map (encode m)) :
    xs'.isEmpty = xs.isEmpty := by
  simpa using congrArg List.isEmpty (h .compact)

end Lists

section Names

theorem exists_respelled_name {n : Name} (h : n.Plain) :
    ∃ n' : Name, n'.Canonical ∧ encodeName n' = encodeName n := by
  obtain ⟨n', hn', heq⟩ := h
  exact ⟨n', hn', by rw [encodeName, heq, encodeName]⟩

theorem exists_respelled_path {p : Path} (h : p.Plain) :
    ∃ p' : Path, p'.Canonical ∧ encodePath p' = encodePath p := by
  obtain ⟨p', hp', heq⟩ := h
  exact ⟨p', hp', by rw [encodePath, heq, encodePath]⟩

theorem exists_respelled_fqname {f : FQName} (h : f.Plain) :
    ∃ f' : FQName, f'.Canonical ∧ encodeFQName f' = encodeFQName f := by
  obtain ⟨f', hf', heq⟩ := h
  exact ⟨f', hf', by rw [encodeFQName, heq, encodeFQName]⟩

theorem exists_respelled_params {ps : List Name} (h : ∀ p ∈ ps, p.Plain) :
    ∃ ps' : List Name, (∀ p ∈ ps', p.Canonical) ∧ encodeParams ps' = encodeParams ps := by
  have hps : ∀ p ∈ ps, Respelled Name.Canonical (fun _ => encodeName) p := by
    intro p hp
    obtain ⟨p', hp', heq⟩ := exists_respelled_name (h p hp)
    exact ⟨p', hp', fun _ => heq⟩
  obtain ⟨ps', hps', heq⟩ := exists_respelled_list hps
  exact ⟨ps', hps', by rw [encodeParams, heq .compact, encodeParams]⟩

/-- The names of siblings that are read under their keys. -/
theorem keyed_legible {ns : List Name} (h : ∀ n ∈ ns, n.Canonical) : legible.Keyed ns :=
  ⟨h, trivial⟩

theorem keyedPaths_legible {ps : List Path} (h : ∀ p ∈ ps, p.Canonical) : legible.KeyedPaths ps :=
  ⟨h, trivial⟩

end Names

section Expressions

/-- Parts that stand beside their names, as members or as pairs. -/
theorem exists_respelled_named {α β : Type} {Q : α → Prop} {encode : Mode → α → Json}
    (place : String → Json → β) {fs : List (Name × α)} (hn : ∀ f ∈ fs, f.1.Plain)
    (h : ∀ f ∈ fs, Respelled Q encode f.2) :
    ∃ fs' : List (Name × α), (∀ f ∈ fs', f.1.Canonical ∧ Q f.2) ∧
      ∀ m, fs'.map (fun f => place f.1.kebab (encode m f.2)) =
        fs.map fun f => place f.1.kebab (encode m f.2) := by
  refine exists_respelled_list fun f hf => ?_
  obtain ⟨n', hn', hname⟩ := hn f hf
  obtain ⟨x', hx', hx⟩ := h f hf
  exact ⟨(n', x'), ⟨hn', hx'⟩, fun m => by simp only [hname, hx]⟩

theorem respelled_type {t : V4Type} (h : t.Satisfies respellable) :
    Respelled (TypeExpr.Satisfies legible) encodeType t := by
  -- Every node keeps its attribute; only the names in it are exchanged for canonical ones.
  induction h with
  | @«variable» a n ha hn =>
    obtain ⟨n', hn', hname⟩ := exists_respelled_name hn
    exact ⟨.variable a n', .variable ha hn', fun m => by rw [encodeType, hname, encodeType]⟩
  | @reference a f ts ha hf _ ih =>
    obtain ⟨f', hf', hname⟩ := exists_respelled_fqname hf
    obtain ⟨ts', hts', hts⟩ := exists_respelled_list ih
    exact ⟨.reference a f' ts', .reference ha hf' hts', fun m => by
      simp only [encodeType, encodeTypes_eq_map, hname, hts, isEmpty_respelled hts]⟩
  | @tuple a ts ha _ ih =>
    obtain ⟨ts', hts', hts⟩ := exists_respelled_list ih
    exact ⟨.tuple a ts', .tuple ha hts', fun m => by simp only [encodeType, encodeTypes_eq_map, hts]⟩
  | @record a fs ha hk _ ih =>
    obtain ⟨fs', hfs', hfs⟩ := exists_respelled_named Prod.mk (List.forall_mem_map.1 hk.each) ih
    refine ⟨.record a fs', .record ha ?_ fun f hf => (hfs' f hf).2, fun m => ?_⟩
    · exact keyed_legible (List.forall_mem_map.2 fun f hf => (hfs' f hf).1)
    · simp only [encodeType, encodeFields_eq_map, hfs]
  | @extensibleRecord a n fs ha hn hk _ ih =>
    obtain ⟨n', hn', hname⟩ := exists_respelled_name hn
    obtain ⟨fs', hfs', hfs⟩ := exists_respelled_named Prod.mk (List.forall_mem_map.1 hk.each) ih
    refine ⟨.extensibleRecord a n' fs', .extensibleRecord ha hn' ?_ fun f hf => (hfs' f hf).2,
      fun m => ?_⟩
    · exact keyed_legible (List.forall_mem_map.2 fun f hf => (hfs' f hf).1)
    · simp only [encodeType, encodeFields_eq_map, hname, hfs]
  | @function a x y ha _ _ ihx ihy =>
    obtain ⟨x', hx', hx⟩ := ihx
    obtain ⟨y', hy', hy⟩ := ihy
    exact ⟨.function a x' y', .function ha hx' hy', fun m => by simp only [encodeType, hx, hy]⟩
  | @unit a ha => exact ⟨.unit a, .unit ha, fun _ => rfl⟩

/-- A type that may be missing is respelled if there is one. -/
theorem exists_respelled_optional (key : String) {t : Option V4Type}
    (h : ∀ t' ∈ t, t'.Satisfies respellable) :
    ∃ t' : Option V4Type, (∀ u ∈ t', u.Satisfies legible) ∧ ∀ m,
      t'.toList.map (fun u => (key, encodeType m u)) = t.toList.map fun u => (key, encodeType m u) := by
  cases t with
  | none => exact ⟨none, by simp, fun _ => rfl⟩
  | some t =>
    obtain ⟨t', ht', ht⟩ := respelled_type (h t rfl)
    exact ⟨some t', by simpa using ht', fun m => by simp [ht]⟩

theorem respelled_pattern {p : Pattern ValueAttrs} (h : p.Satisfies respellable) :
    Respelled (Pattern.Satisfies legible) encodePattern p := by
  induction h with
  | @wildcard a ha => exact ⟨.wildcard a, .wildcard ha, fun _ => rfl⟩
  | @as a p n ha _ hn ih =>
    obtain ⟨p', hp', hp⟩ := ih
    obtain ⟨n', hn', hname⟩ := exists_respelled_name hn
    exact ⟨.as a p' n', .as ha hp' hn', fun m => by simp only [encodePattern, hp, hname]⟩
  | @tuple a ps ha _ ih =>
    obtain ⟨ps', hps', hps⟩ := exists_respelled_list ih
    exact ⟨.tuple a ps', .tuple ha hps', fun m => by
      simp only [encodePattern, encodePatterns_eq_map, hps]⟩
  | @constructor a f ps ha hf _ ih =>
    obtain ⟨f', hf', hname⟩ := exists_respelled_fqname hf
    obtain ⟨ps', hps', hps⟩ := exists_respelled_list ih
    exact ⟨.constructor a f' ps', .constructor ha hf' hps', fun m => by
      simp only [encodePattern, encodePatterns_eq_map, hname, hps, isEmpty_respelled hps]⟩
  | @emptyList a ha => exact ⟨.emptyList a, .emptyList ha, fun _ => rfl⟩
  | @headTail a x y ha _ _ ihx ihy =>
    obtain ⟨x', hx', hx⟩ := ihx
    obtain ⟨y', hy', hy⟩ := ihy
    exact ⟨.headTail a x' y', .headTail ha hx' hy', fun m => by simp only [encodePattern, hx, hy]⟩
  | @literal a l ha hl => exact ⟨.literal a l, .literal ha hl, fun _ => rfl⟩
  | @unit a ha => exact ⟨.unit a, .unit ha, fun _ => rfl⟩

end Expressions

section Values

theorem exists_respelled_holeReason {r : HoleReason} (h : r.Satisfies respellable) :
    ∃ r' : HoleReason, r'.Satisfies legible ∧ encodeHoleReason r' = encodeHoleReason r := by
  cases r with
  | unresolvedReference f =>
    obtain ⟨f', hf', hname⟩ := exists_respelled_fqname (h f rfl)
    refine ⟨.unresolvedReference f', ?_, by rw [encodeHoleReason, hname, encodeHoleReason]⟩
    rintro _ ⟨⟩
    exact hf'
  | deletedDuringRefactor t => exact ⟨.deletedDuringRefactor t, by rintro _ ⟨⟩, rfl⟩
  | typeMismatch e f => exact ⟨.typeMismatch e f, by rintro _ ⟨⟩, rfl⟩
  | draft => exact ⟨.draft, by rintro _ ⟨⟩, rfl⟩

theorem exists_respelled_incompleteness {i : Incompleteness} (h : i.Satisfies respellable) :
    ∃ i' : Incompleteness, i'.Satisfies legible ∧
      encodeIncompleteness i' = encodeIncompleteness i := by
  cases i with
  | hole r =>
    obtain ⟨r', hr', hr⟩ := exists_respelled_holeReason (h r rfl)
    refine ⟨.hole r', ?_, by rw [encodeIncompleteness, hr, encodeIncompleteness]⟩
    rintro _ ⟨⟩
    exact hr'
  | draft => exact ⟨.draft, by rintro _ ⟨⟩, rfl⟩

theorem respelled_input {i : Input TypeAttrs ValueAttrs} (hn : i.name.Plain)
    (h : i.Satisfies respellable) :
    Respelled (fun i => i.name.Canonical ∧ i.Satisfies legible) encodeInput i := by
  obtain ⟨n', hn', hname⟩ := hn
  obtain ⟨t', ht', ht⟩ := respelled_type h.type
  exact ⟨⟨n', i.attrs, t'⟩, ⟨hn', h.attrs, ht'⟩, fun m => by simp only [encodeInput, hname, ht]⟩

theorem respelled_body {b : V4Body} (hi : ∀ i, b = .incomplete i → i.Satisfies respellable)
    (hv : ∀ v, b = .expression v → Respelled (Value.Satisfies legible) encodeValue v) :
    Respelled (ValueBody.Satisfies legible) encodeBody b := by
  cases b with
  | expression v =>
    obtain ⟨v', hv', hv⟩ := hv v rfl
    exact ⟨.expression v', by simpa using hv', fun m => by simp only [encodeBody, hv]⟩
  | native i => exact ⟨.native i, by simp, fun _ => rfl⟩
  | external s p => exact ⟨.external s p, by simp, fun _ => rfl⟩
  | incomplete i =>
    obtain ⟨i', hi', hi⟩ := exists_respelled_incompleteness (hi i rfl)
    exact ⟨.incomplete i', by simpa using hi', fun m => by simp only [encodeBody, hi]⟩

theorem encodeDefinition_eq (m : Mode) (d : V4Definition) :
    encodeDefinition m d = .object [("input-types", .object (d.inputs.map (encodeInput m))),
      ("output-type", encodeType m d.output), ("body", encodeBody m d.body)] := by
  cases d
  rfl

theorem respelled_definition {d : V4Definition} (hd : d.Framed respellable)
    (hv : ∀ v, d.body = .expression v → Respelled (Value.Satisfies legible) encodeValue v) :
    Respelled (ValueDefinition.Satisfies legible) encodeDefinition d := by
  obtain ⟨is', his', his⟩ := exists_respelled_list fun i hi =>
    respelled_input (List.forall_mem_map.1 hd.keys.each i hi) (hd.inputs i hi)
  obtain ⟨t', ht', ht⟩ := respelled_type hd.output
  obtain ⟨b', hb', hb⟩ := respelled_body hd.incomplete hv
  refine ⟨.mk is' t' b', ⟨⟨?_, fun i hi => (his' i hi).2, ht', hb'.incomplete⟩, hb'.expression⟩,
    fun m => ?_⟩
  · exact keyed_legible (List.forall_mem_map.2 fun i hi => (his' i hi).1)
  · rw [encodeDefinition_eq m d, encodeDefinition, his, ht, hb]

theorem respelled_value {v : V4Value} (h : v.Satisfies respellable) :
    Respelled (Value.Satisfies legible) encodeValue v := by
  induction h with
  | @literal a l ha hl => exact ⟨.literal a l, .literal ha hl, fun _ => rfl⟩
  | @constructor a f ha hf =>
    obtain ⟨f', hf', hname⟩ := exists_respelled_fqname hf
    exact ⟨.constructor a f', .constructor ha hf', fun m => by simp only [encodeValue, hname]⟩
  | @tuple a vs ha _ ih =>
    obtain ⟨vs', hvs', hvs⟩ := exists_respelled_list ih
    exact ⟨.tuple a vs', .tuple ha hvs', fun m => by
      simp only [encodeValue, encodeValues_eq_map, hvs]⟩
  | @list a vs ha _ ih =>
    obtain ⟨vs', hvs', hvs⟩ := exists_respelled_list ih
    exact ⟨.list a vs', .list ha hvs', fun m => by
      simp only [encodeValue, encodeValues_eq_map, hvs]⟩
  | @record a fs ha hk _ ih =>
    obtain ⟨fs', hfs', hfs⟩ := exists_respelled_named Prod.mk (List.forall_mem_map.1 hk.each) ih
    refine ⟨.record a fs', .record ha ?_ fun f hf => (hfs' f hf).2, fun m => ?_⟩
    · exact keyed_legible (List.forall_mem_map.2 fun f hf => (hfs' f hf).1)
    · simp only [encodeValue, encodeEntries_eq_map, hfs]
  | @«variable» a n ha hn =>
    obtain ⟨n', hn', hname⟩ := exists_respelled_name hn
    exact ⟨.variable a n', .variable ha hn', fun m => by simp only [encodeValue, hname]⟩
  | @reference a f ha hf =>
    obtain ⟨f', hf', hname⟩ := exists_respelled_fqname hf
    exact ⟨.reference a f', .reference ha hf', fun m => by simp only [encodeValue, hname]⟩
  | @field a v n ha _ hn ih =>
    obtain ⟨v', hv', hv⟩ := ih
    obtain ⟨n', hn', hname⟩ := exists_respelled_name hn
    exact ⟨.field a v' n', .field ha hv' hn', fun m => by simp only [encodeValue, hv, hname]⟩
  | @fieldFunction a n ha hn =>
    obtain ⟨n', hn', hname⟩ := exists_respelled_name hn
    exact ⟨.fieldFunction a n', .fieldFunction ha hn', fun m => by simp only [encodeValue, hname]⟩
  | @apply a f x ha _ _ ihf ihx =>
    obtain ⟨f', hf', hf⟩ := ihf
    obtain ⟨x', hx', hx⟩ := ihx
    exact ⟨.apply a f' x', .apply ha hf' hx', fun m => by simp only [encodeValue, hf, hx]⟩
  | @lambda a p b ha hp _ ih =>
    obtain ⟨p', hp', hp⟩ := respelled_pattern hp
    obtain ⟨b', hb', hb⟩ := ih
    exact ⟨.lambda a p' b', .lambda ha hp' hb', fun m => by simp only [encodeValue, hp, hb]⟩
  | @letDefinition a n d b ha hn hd _ _ ihv ihb =>
    obtain ⟨n', hn', hname⟩ := exists_respelled_name hn
    obtain ⟨d', hd', hdef⟩ := respelled_definition hd ihv
    obtain ⟨b', hb', hb⟩ := ihb
    exact ⟨.letDefinition a n' d' b', .letDefinition ha hn' hd'.framed hd'.expression hb',
      fun m => by simp only [encodeValue, hname, hdef, hb]⟩
  | @letRecursion a ds b ha hn hd _ _ ihv ihb =>
    obtain ⟨ds', hds', hds⟩ := exists_respelled_named (fun s v => Json.array [.string s, v]) hn
      fun d hmem => respelled_definition (hd d hmem) (ihv d hmem)
    obtain ⟨b', hb', hb⟩ := ihb
    refine ⟨.letRecursion a ds' b', .letRecursion ha (fun d hd => (hds' d hd).1)
      (fun d hd => (hds' d hd).2.framed) (fun d hd => (hds' d hd).2.expression) hb', fun m => ?_⟩
    simp only [encodeValue, encodeBindings_eq_map, encodeName, hds, hb]
  | @destructure a p v b ha hp _ _ ihv ihb =>
    obtain ⟨p', hp', hp⟩ := respelled_pattern hp
    obtain ⟨v', hv', hv⟩ := ihv
    obtain ⟨b', hb', hb⟩ := ihb
    exact ⟨.destructure a p' v' b', .destructure ha hp' hv' hb', fun m => by
      simp only [encodeValue, hp, hv, hb]⟩
  | @ifThenElse a x t e ha _ _ _ ihx iht ihe =>
    obtain ⟨x', hx', hx⟩ := ihx
    obtain ⟨t', ht', ht⟩ := iht
    obtain ⟨e', he', he⟩ := ihe
    exact ⟨.ifThenElse a x' t' e', .ifThenElse ha hx' ht' he', fun m => by
      simp only [encodeValue, hx, ht, he]⟩
  | @patternMatch a v cs ha _ hps _ ihv ihcs =>
    obtain ⟨v', hv', hv⟩ := ihv
    have hcases : ∀ k ∈ cs, Respelled
        (fun k : Pattern ValueAttrs × V4Value => k.1.Satisfies legible ∧ k.2.Satisfies legible)
        (fun m k => Json.array [encodePattern m k.1, encodeValue m k.2]) k := by
      intro k hk
      obtain ⟨p', hp', hp⟩ := respelled_pattern (hps k hk)
      obtain ⟨b', hb', hb⟩ := ihcs k hk
      exact ⟨(p', b'), ⟨hp', hb'⟩, fun m => by simp only [hp, hb]⟩
    obtain ⟨cs', hcs', hcs⟩ := exists_respelled_list hcases
    exact ⟨.patternMatch a v' cs', .patternMatch ha hv' (fun k hk => (hcs' k hk).1)
      (fun k hk => (hcs' k hk).2), fun m => by simp only [encodeValue, encodeCases_eq_map, hv, hcs]⟩
  | @updateRecord a v us ha _ hns _ ihv ihus =>
    obtain ⟨v', hv', hv⟩ := ihv
    obtain ⟨us', hus', hus⟩ :=
      exists_respelled_named (fun s v => Json.array [.string s, v]) hns ihus
    refine ⟨.updateRecord a v' us', .updateRecord ha hv' (fun u hu => (hus' u hu).1)
      (fun u hu => (hus' u hu).2), fun m => ?_⟩
    simp only [encodeValue, encodeUpdates_eq_map, encodeName, hv, hus]
  | @unit a ha => exact ⟨.unit a, .unit ha, fun _ => rfl⟩
  | @hole a r t ha hr ht =>
    obtain ⟨r', hr', hr⟩ := exists_respelled_holeReason hr
    obtain ⟨t', ht', ht⟩ := exists_respelled_optional "tpe" ht
    exact ⟨.hole a r' t', .hole ha hr' ht', fun m => by simp only [encodeValue, hr, ht]⟩
  | @native a f i ha hf =>
    obtain ⟨f', hf', hname⟩ := exists_respelled_fqname hf
    exact ⟨.native a f' i, .native ha hf', fun m => by simp only [encodeValue, hname]⟩
  | @external a s p ha => exact ⟨.external a s p, .external ha, fun _ => rfl⟩

end Values

section Definitions

theorem respelled_constructor {k : Constructor TypeAttrs} (h : k.Satisfies respellable) :
    Respelled (Constructor.Satisfies legible) encodeConstructor k := by
  obtain ⟨n', hn', hname⟩ := h.name
  obtain ⟨as', has', has⟩ := exists_respelled_named (fun s v => Json.array [.string s, v]) h.names
    fun f hf => respelled_type (h.types f hf)
  refine ⟨⟨n', as'⟩, ⟨hn', fun f hf => (has' f hf).1, fun f hf => (has' f hf).2⟩, fun m => ?_⟩
  simp only [encodeConstructor, encodeArguments, encodeName, hname, has, isEmpty_respelled has]

theorem respelled_typeDefinition {d : TypeDefinition TypeAttrs} (h : d.Satisfies respellable) :
    Respelled (TypeDefinition.Satisfies legible) encodeTypeDefinition d := by
  cases h with
  | @synonym ps t hps ht =>
    obtain ⟨ps', hps', hps⟩ := exists_respelled_params hps
    obtain ⟨t', ht', ht⟩ := respelled_type ht
    exact ⟨.synonym ps' t', .synonym hps' ht', fun m => by simp only [encodeTypeDefinition, hps, ht]⟩
  | @custom ps a ks hps hks =>
    obtain ⟨ps', hps', hps⟩ := exists_respelled_params hps
    obtain ⟨ks', hks', hks⟩ := exists_respelled_list fun k hk => respelled_constructor (hks k hk)
    exact ⟨.custom ps' a ks', .custom hps' hks', fun m => by
      simp only [encodeTypeDefinition, hps, hks]⟩
  | @incomplete ps i t hps hi ht =>
    obtain ⟨ps', hps', hps⟩ := exists_respelled_params hps
    obtain ⟨i', hi', hi⟩ := exists_respelled_incompleteness hi
    obtain ⟨t', ht', ht⟩ := exists_respelled_optional "partial" ht
    exact ⟨.incomplete ps' i' t', .incomplete hps' hi' ht', fun m => by
      simp only [encodeTypeDefinition, hps, hi, ht]⟩

theorem respelled_typeSpecification {s : TypeSpecification TypeAttrs}
    (h : s.Satisfies respellable) :
    Respelled (TypeSpecification.Satisfies legible) encodeTypeSpecification s := by
  cases h with
  | @synonym ps t hps ht =>
    obtain ⟨ps', hps', hps⟩ := exists_respelled_params hps
    obtain ⟨t', ht', ht⟩ := respelled_type ht
    exact ⟨.synonym ps' t', .synonym hps' ht', fun m => by
      simp only [encodeTypeSpecification, hps, ht]⟩
  | @abstract ps hps =>
    obtain ⟨ps', hps', hps⟩ := exists_respelled_params hps
    exact ⟨.abstract ps', .abstract hps', fun m => by simp only [encodeTypeSpecification, hps]⟩
  | @custom ps ks hps hks =>
    obtain ⟨ps', hps', hps⟩ := exists_respelled_params hps
    obtain ⟨ks', hks', hks⟩ := exists_respelled_list fun k hk => respelled_constructor (hks k hk)
    exact ⟨.custom ps' ks', .custom hps' hks', fun m => by
      simp only [encodeTypeSpecification, hps, hks]⟩

theorem respelled_valueSpecification {s : ValueSpecification TypeAttrs}
    (h : s.Satisfies respellable) :
    Respelled (ValueSpecification.Satisfies legible) encodeValueSpecification s := by
  obtain ⟨is', his', his⟩ := exists_respelled_named Prod.mk (List.forall_mem_map.1 h.keys.each)
    fun f hf => respelled_type (h.inputs f hf)
  obtain ⟨t', ht', ht⟩ := respelled_type h.output
  refine ⟨⟨is', t'⟩, ⟨?_, fun f hf => (his' f hf).2, ht'⟩, fun m => ?_⟩
  · exact keyed_legible (List.forall_mem_map.2 fun f hf => (his' f hf).1)
  · simp only [encodeValueSpecification, encodeFields_eq_map, his, ht]

end Definitions

section Documents

theorem respelled_module {d : ModuleDefinition TypeAttrs ValueAttrs} (h : d.Satisfies respellable) :
    Respelled (ModuleDefinition.Satisfies legible) encodeModule d := by
  have htypes : ∀ e ∈ d.types, Respelled
      (fun e : TypeEntry TypeAttrs => e.name.Canonical ∧ e.definition.Satisfies legible)
      (fun m e => (e.name.kebab, encodeEntry m e.access e.doc (encodeTypeDefinition m e.definition)))
      e := by
    intro e he
    obtain ⟨n', hn', hname⟩ := List.forall_mem_map.1 h.typeKeys.each e he
    obtain ⟨d', hd', hd⟩ := respelled_typeDefinition (h.types e he)
    exact ⟨⟨n', e.access, e.doc, d'⟩, ⟨hn', hd'⟩, fun m => by simp only [hname, hd]⟩
  have hvalues : ∀ e ∈ d.values, Respelled
      (fun e : ValueEntry TypeAttrs ValueAttrs => e.name.Canonical ∧ e.definition.Satisfies legible)
      (fun m e => (e.name.kebab, encodeEntry m e.access e.doc (encodeDefinition m e.definition)))
      e := by
    intro e he
    obtain ⟨n', hn', hname⟩ := List.forall_mem_map.1 h.valueKeys.each e he
    obtain ⟨d', hd', hd⟩ := respelled_definition (h.values e he).framed fun v hv =>
      respelled_value ((h.values e he).expression v hv)
    exact ⟨⟨n', e.access, e.doc, d'⟩, ⟨hn', hd'⟩, fun m => by simp only [hname, hd]⟩
  obtain ⟨ts', hts', hts⟩ := exists_respelled_list htypes
  obtain ⟨vs', hvs', hvs⟩ := exists_respelled_list hvalues
  refine ⟨⟨ts', vs', d.doc⟩, ⟨?_, fun e he => (hts' e he).2, ?_, fun e he => (hvs' e he).2⟩,
    fun m => ?_⟩
  · exact keyed_legible (List.forall_mem_map.2 fun e he => (hts' e he).1)
  · exact keyed_legible (List.forall_mem_map.2 fun e he => (hvs' e he).1)
  · simp only [encodeModule, hts, hvs]

theorem respelled_moduleSpec {s : ModuleSpecification TypeAttrs} (h : s.Satisfies respellable) :
    Respelled (ModuleSpecification.Satisfies legible) encodeModuleSpec s := by
  have htypes : ∀ e ∈ s.types, Respelled
      (fun e : TypeSpecEntry TypeAttrs => e.name.Canonical ∧ e.specification.Satisfies legible)
      (fun m e => (e.name.kebab,
        encodeSpecEntry m e.doc (encodeTypeSpecification m e.specification))) e := by
    intro e he
    obtain ⟨n', hn', hname⟩ := List.forall_mem_map.1 h.typeKeys.each e he
    obtain ⟨s', hs', hs⟩ := respelled_typeSpecification (h.types e he)
    exact ⟨⟨n', e.doc, s'⟩, ⟨hn', hs'⟩, fun m => by simp only [hname, hs]⟩
  have hvalues : ∀ e ∈ s.values, Respelled
      (fun e : ValueSpecEntry TypeAttrs => e.name.Canonical ∧ e.specification.Satisfies legible)
      (fun m e => (e.name.kebab,
        encodeSpecEntry m e.doc (encodeValueSpecification m e.specification))) e := by
    intro e he
    obtain ⟨n', hn', hname⟩ := List.forall_mem_map.1 h.valueKeys.each e he
    obtain ⟨s', hs', hs⟩ := respelled_valueSpecification (h.values e he)
    exact ⟨⟨n', e.doc, s'⟩, ⟨hn', hs'⟩, fun m => by simp only [hname, hs]⟩
  obtain ⟨ts', hts', hts⟩ := exists_respelled_list htypes
  obtain ⟨vs', hvs', hvs⟩ := exists_respelled_list hvalues
  refine ⟨⟨ts', vs', s.doc⟩, ⟨?_, fun e he => (hts' e he).2, ?_, fun e he => (hvs' e he).2⟩,
    fun m => ?_⟩
  · exact keyed_legible (List.forall_mem_map.2 fun e he => (hts' e he).1)
  · exact keyed_legible (List.forall_mem_map.2 fun e he => (hvs' e he).1)
  · simp only [encodeModuleSpec, hts, hvs]

theorem respelled_package {p : PackageDefinition TypeAttrs ValueAttrs}
    (h : p.Satisfies respellable) :
    Respelled (PackageDefinition.Satisfies legible) encodePackage p := by
  have hmodules : ∀ e ∈ p.modules, Respelled
      (fun e : ModuleEntry TypeAttrs ValueAttrs => e.name.Canonical ∧ e.definition.Satisfies legible)
      (fun m e => (e.name.text, Classic.encodeAccess e.access (encodeModule m e.definition))) e := by
    intro e he
    obtain ⟨n', hn', hname⟩ := List.forall_mem_map.1 h.keys.each e he
    obtain ⟨d', hd', hd⟩ := respelled_module (h.modules e he)
    exact ⟨⟨n', e.access, d'⟩, ⟨hn', hd'⟩, fun m => by simp only [hname, hd]⟩
  obtain ⟨ms', hms', hms⟩ := exists_respelled_list hmodules
  refine ⟨⟨ms'⟩, ⟨?_, fun e he => (hms' e he).2⟩, fun m => by simp only [encodePackage, hms]⟩
  exact keyedPaths_legible (List.forall_mem_map.2 fun e he => (hms' e he).1)

theorem respelled_packageSpec {p : PackageSpecification TypeAttrs} (h : p.Satisfies respellable) :
    Respelled (PackageSpecification.Satisfies legible) encodePackageSpec p := by
  have hmodules : ∀ e ∈ p.modules, Respelled
      (fun e : ModuleSpecEntry TypeAttrs => e.name.Canonical ∧ e.specification.Satisfies legible)
      (fun m e => (e.name.text, encodeModuleSpec m e.specification)) e := by
    intro e he
    obtain ⟨n', hn', hname⟩ := List.forall_mem_map.1 h.keys.each e he
    obtain ⟨s', hs', hs⟩ := respelled_moduleSpec (h.modules e he)
    exact ⟨⟨n', s'⟩, ⟨hn', hs'⟩, fun m => by simp only [hname, hs]⟩
  obtain ⟨ms', hms', hms⟩ := exists_respelled_list hmodules
  refine ⟨⟨ms'⟩, ⟨?_, fun e he => (hms' e he).2⟩, fun m => by simp only [encodePackageSpec, hms]⟩
  exact keyedPaths_legible (List.forall_mem_map.2 fun e he => (hms' e he).1)

theorem exists_respelled_dependencies {ds : List (Dependency TypeAttrs)}
    (h : Dependency.AllSatisfy respellable ds) :
    ∃ ds' : List (Dependency TypeAttrs), Dependency.AllSatisfy legible ds' ∧ ∀ m,
      ds'.map (fun d => (d.name.text, encodePackageSpec m d.specification)) =
        ds.map fun d => (d.name.text, encodePackageSpec m d.specification) := by
  have hdeps : ∀ d ∈ ds, Respelled
      (fun d : Dependency TypeAttrs => d.name.Canonical ∧ d.specification.Satisfies legible)
      (fun m d => (d.name.text, encodePackageSpec m d.specification)) d := by
    intro d hd
    obtain ⟨n', hn', hname⟩ := List.forall_mem_map.1 h.keys.each d hd
    obtain ⟨s', hs', hs⟩ := respelled_packageSpec (h.specifications d hd)
    exact ⟨⟨n', s'⟩, ⟨hn', hs'⟩, fun m => by simp only [hname, hs]⟩
  obtain ⟨ds', hds', hds⟩ := exists_respelled_list hdeps
  refine ⟨ds', ⟨?_, fun d hd => (hds' d hd).2⟩, hds⟩
  exact keyedPaths_legible (List.forall_mem_map.2 fun d hd => (hds' d hd).1)

theorem exists_respelled_entryPoints {es : List EntryPoint}
    (h : EntryPoint.AllSatisfy respellable es) :
    ∃ es' : List EntryPoint, EntryPoint.AllSatisfy legible es' ∧
      ∀ m, es'.map (encodeEntryPoint m) = es.map (encodeEntryPoint m) := by
  have hpoints : ∀ e ∈ es, Respelled
      (fun e : EntryPoint => e.name.Canonical ∧ e.target.Canonical) encodeEntryPoint e := by
    intro e he
    obtain ⟨n', hn', hname⟩ := List.forall_mem_map.1 h.keys.each e he
    obtain ⟨f', hf', htarget⟩ := exists_respelled_fqname (h.targets e he)
    exact ⟨{ e with name := n', target := f' }, ⟨hn', hf'⟩, fun m => by
      simp only [encodeEntryPoint, hname, htarget]⟩
  obtain ⟨es', hes', hes⟩ := exists_respelled_list hpoints
  refine ⟨es', ⟨?_, fun e he => (hes' e he).2⟩, hes⟩
  exact keyed_legible (List.forall_mem_map.2 fun e he => (hes' e he).1)

/-- A distribution whose identifiers are written like canonical ones has the V4 form of a distribution
whose identifiers are canonical. -/
theorem respelled_distribution {d : V4Distribution} (h : d.Satisfies respellable) :
    Respelled (Distribution.Satisfies legible) encodeDistribution d := by
  cases h with
  | @library p ds d hp hds hd =>
    obtain ⟨p', hp', hp⟩ := exists_respelled_path hp
    obtain ⟨ds', hds', hds⟩ := exists_respelled_dependencies hds
    obtain ⟨d', hd', hd⟩ := respelled_package hd
    exact ⟨.library p' ds' d', .library hp' hds' hd', fun m => by
      simp only [encodeDistribution, distributionHead, hp, hds, hd]⟩
  | @specs p ds s hp hds hs =>
    obtain ⟨p', hp', hp⟩ := exists_respelled_path hp
    obtain ⟨ds', hds', hds⟩ := exists_respelled_dependencies hds
    obtain ⟨s', hs', hs⟩ := respelled_packageSpec hs
    exact ⟨.specs p' ds' s', .specs hp' hds' hs', fun m => by
      simp only [encodeDistribution, distributionHead, hp, hds, hs]⟩
  | @application p ds d es hp hds hd hes =>
    obtain ⟨p', hp', hp⟩ := exists_respelled_path hp
    obtain ⟨ds', hds', hds⟩ := exists_respelled_dependencies hds
    obtain ⟨d', hd', hd⟩ := respelled_package hd
    obtain ⟨es', hes', hes⟩ := exists_respelled_entryPoints hes
    exact ⟨.application p' ds' d' es', .application hp' hds' hd' hes', fun m => by
      simp only [encodeDistribution, distributionHead, hp, hds, hd, hes]⟩

end Documents

end V4

end IrDialects
