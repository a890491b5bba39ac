import IrDialects.Proofs.V4.Expression
import IrDialects.V4.Value

/-!
# Values of V4 documents

Values and value definitions whose names are canonical are read back from their V4 form. Every body
has a tag there, so a bare value cannot be taken for another kind of body.
-/

namespace IrDialects.V4

open Classic (exists_fuel depth_lt_of_pair)

variable {α : Type}

section Lists

variable (m : Mode)

@[simp] theorem encodeValues_eq_map (vs : List V4Value) :
    encodeValues m vs = vs.map (encodeValue m) := by
  induction vs with
  | nil => rfl
  | cons v vs ih => rw [encodeValues, ih, List.map_cons]

@[simp] theorem encodeEntries_eq_map (fs : List (Name × V4Value)) :
    encodeEntries m fs = fs.map fun f => (f.1.kebab, encodeValue m f.2) := by
  induction fs with
  | nil => rfl
  | cons f fs ih => rw [encodeEntries, ih, List.map_cons]

@[simp] theorem encodeUpdates_eq_map (us : List (Name × V4Value)) :
    encodeUpdates m us = us.map fun u => .array [encodeName u.1, encodeValue m u.2] := by
  induction us with
  | nil => rfl
  | cons u us ih => rw [encodeUpdates, ih, List.map_cons]

@[simp] theorem encodeCases_eq_map (cs : List (Pattern ValueAttrs × V4Value)) :
    encodeCases m cs = cs.map fun k => .array [encodePattern m k.1, encodeValue m k.2] := by
  induction cs with
  | nil => rfl
  | cons k cs ih => rw [encodeCases, ih, List.map_cons]

@[simp] theorem encodeBindings_eq_map (ds : List (Name × V4Definition)) :
    encodeBindings m ds = ds.map fun d => .array [encodeName d.1, encodeDefinition m d.2] := by
  induction ds with
  | nil => rfl
  | cons d ds ih => rw [encodeBindings, ih, List.map_cons]

end Lists

variable {m : Mode}

theorem camel?_typeAttributes :
    FieldName.camel? "type-attributes" = some "typeAttributes" := rfl

theorem decodeInput_encodeInput {i : Input TypeAttrs ValueAttrs} (hn : i.name.Canonical)
    (hi : i.Satisfies legible) : decodeInput (encodeInput m i).1 (encodeInput m i).2 = .ok i := by
  obtain ⟨n, a, t⟩ := i
  have ha : a.Readable := hi.attrs
  have ht := decodeType_encodeType m hi.type
  refine Decoded.bind_eq_ok.2 ⟨_, rfl, ?_⟩
  refine Decoded.bind_eq_ok.2 ⟨a, optional_member (m := m) ?_ ?_
    (decodeValueAttrs_encodeValueAttrs ha) ValueAttrs.eq_of_isEmpty ?_, ?_⟩
  · simp [Json.get?_append]
  · simp [encodeValueAttrs, attrObject]
  · simp [camel?_typeAttributes, Json.get?_append, get?_member_ne]
  · refine Decoded.bind_eq_ok.2 ⟨t, field_of_get? ?_ ht, ?_⟩
    · simp [Json.get?_append, get?_member_ne]
    · simp [encodeInput, hn.parse_kebab]

/-- Arguments are read back under their names. -/
theorem keyed_decodeInput {is : List (Input TypeAttrs ValueAttrs)}
    (hk : legible.Keyed (is.map Input.name)) (his : ∀ i ∈ is, i.Satisfies legible) :
    keyed decodeInput (.object (is.map (encodeInput m))) = .ok is :=
  keyed_map fun i hi =>
    decodeInput_encodeInput (hk.each i.name (List.mem_map_of_mem hi)) (his i hi)

theorem bodyNode_wrapped {child : Json → Decoded V4Value} (t : BodyTag) (ms : Members) :
    bodyNode child (wrapped t.name ms) = taggedBody child (wrapped t.name ms) := by
  simp [bodyNode, wrapped, hasBodyTag, BodyTag.find?_name]

theorem bodyNode_encodeBody {child : Json → Decoded V4Value} {b : V4Body}
    (hi : ∀ i, b = .incomplete i → i.Satisfies legible)
    (h : ∀ v, b = .expression v → child (encodeValue m v) = .ok v) :
    bodyNode child (encodeBody m b) = .ok b := by
  cases b with
  | expression v =>
    refine (bodyNode_wrapped .expression _).trans ?_
    refine Decoded.bind_eq_ok.2 ⟨_, unwrap_wrapped (BodyTag.find?_name .expression) _, ?_⟩
    exact Decoded.bind_eq_ok.2 ⟨v, field_of_get? (by simp) (h v rfl), rfl⟩
  | native i =>
    have hinfo := decodeNativeInfo_encodeNativeInfo m i
    refine (bodyNode_wrapped .native _).trans ?_
    refine Decoded.bind_eq_ok.2 ⟨_, unwrap_wrapped (BodyTag.find?_name .native) _, ?_⟩
    exact Decoded.bind_eq_ok.2 ⟨i, field_of_get? (by simp) hinfo, rfl⟩
  | external s p =>
    refine (bodyNode_wrapped .external _).trans ?_
    refine Decoded.bind_eq_ok.2 ⟨_, unwrap_wrapped (BodyTag.find?_name .external) _, ?_⟩
    refine Decoded.bind_eq_ok.2 ⟨s, field_of_get? (v := .string s) (by simp) rfl, ?_⟩
    exact Decoded.bind_eq_ok.2 ⟨p, field_of_get? (v := .string p) (by simp) rfl, rfl⟩
  | incomplete i =>
    have hi' := decodeIncompleteness_encodeIncompleteness (hi i rfl)
    refine (bodyNode_wrapped .incomplete _).trans ?_
    refine Decoded.bind_eq_ok.2 ⟨_, unwrap_wrapped (BodyTag.find?_name .incomplete) _, ?_⟩
    exact Decoded.bind_eq_ok.2 ⟨i, field_of_get? (by simp) hi', rfl⟩

theorem definitionNode_encodeDefinition {child : Json → Decoded V4Value} {d : V4Definition}
    (hd : d.Framed legible)
    (hchild : ∀ v, d.body = .expression v → child (encodeValue m v) = .ok v) :
    definitionNode child (encodeDefinition m d) = .ok d := by
  obtain ⟨is, t, b⟩ := d
  have his : keyed decodeInput (.object (is.map (encodeInput m))) = .ok is :=
    keyed_decodeInput hd.keys hd.inputs
  have ht : decodeType (encodeType m t) = .ok t := decodeType_encodeType m hd.output
  have hb : bodyNode child (encodeBody m b) = .ok b := bodyNode_encodeBody hd.incomplete hchild
  refine Decoded.bind_eq_ok.2 ⟨_, rfl, ?_⟩
  refine Decoded.bind_eq_ok.2 ⟨is, field_of_get? (by simp) his, ?_⟩
  refine Decoded.bind_eq_ok.2 ⟨t, field_of_get? (by simp) ht, ?_⟩
  exact Decoded.bind_eq_ok.2 ⟨b, field_of_get? (by simp) hb, rfl⟩

theorem namedPair_pair (what : String) {decode : Json → Decoded α} {n : Name} {v : Json} {x : α}
    (hn : n.Canonical) (h : decode v = .ok x) :
    namedPair what decode (.array [encodeName n, v]) = .ok (n, x) := by
  simp [namedPair, Shape.pair, Shape.array, decodeName_encodeName hn, h]

/-- The value that a definition is given by lies deeper than the definition. -/
theorem depth_expression_lt {d : V4Definition} {v : V4Value} (h : d.body = .expression v) :
    (encodeValue m v).depth < (encodeDefinition m d).depth := by
  obtain ⟨is, t, b⟩ := d
  cases h
  simp only [encodeDefinition, encodeBody, wrapped, Json.depth, Json.depthMembers]
  omega

/-- The fields of a record, written as members, are read back. -/
theorem decodeEntries_encodeEntries {child : Json → Decoded V4Value} {fs : List (Name × V4Value)}
    (hk : legible.Keyed (fs.map Prod.fst)) (h : ∀ f ∈ fs, child (encodeValue m f.2) = .ok f.2) :
    decodeEntries child (.object (encodeEntries m fs)) = .ok fs := by
  rw [encodeEntries_eq_map]
  refine keyed_map fun f hf => ?_
  have hn : f.1.Canonical := hk.each f.1 (List.mem_map_of_mem hf)
  simp [h f hf, hn]

theorem decodeCase_pair {child : Json → Decoded V4Value} {k : Pattern ValueAttrs × V4Value}
    (hp : k.1.Satisfies legible) (hv : child (encodeValue m k.2) = .ok k.2) :
    decodeCase child (.array [encodePattern m k.1, encodeValue m k.2]) = .ok k := by
  simp [decodeCase, Shape.pair, Shape.array, decodePattern_encodePattern m hp, hv]

theorem camel?_tpe : FieldName.camel? "tpe" = some "tpe" := rfl

/-- A type that may be missing is read back; no type is written as `null`. -/
theorem optional_type {t : Option V4Type} (ht : ∀ t' ∈ t, t'.Satisfies legible) {n : Node}
    {name : String} (h : Json.get? n.members name = t.map (encodeType m))
    (hc : FieldName.camel? name = some name) :
    n.optional name none (fun v => return some (← decodeType v)) = .ok t := by
  cases t with
  | none => exact optional_of_missing h (by simpa [hc] using h)
  | some t =>
    have hnull : encodeType m t ≠ .null := by cases t <;> simp [encodeType, wrapped]
    have hread := decodeType_encodeType m (ht t rfl)
    exact optional_of_get? h hnull (by simp [hread])

theorem valueAt_encodeValue {v : V4Value} (hv : v.Satisfies legible) (fuel : Nat)
    (hf : (encodeValue m v).depth < fuel) : valueAt fuel (encodeValue m v) = .ok v := by
  -- By the conditions on the value. Each value inside lies deeper, so less fuel is left but enough.
  induction hv generalizing fuel with
  | @literal a l ha hl =>
    obtain ⟨fuel, rfl⟩ := exists_fuel hf
    have hl' := decodeLiteral_encodeLiteral hl
    refine Decoded.bind_eq_ok.2 ⟨_, unwrap_wrapped (ValueTag.find?_name .literal) _, ?_⟩
    refine Decoded.bind_eq_ok.2 ⟨a, optional_valueAttrs ha (m := m) (by simp), ?_⟩
    exact Decoded.bind_eq_ok.2 ⟨l, field_of_get? (by simp) hl', rfl⟩
  | @constructor a f ha hq =>
    obtain ⟨fuel, rfl⟩ := exists_fuel hf
    have hname := decodeFQName_encodeFQName hq
    refine Decoded.bind_eq_ok.2 ⟨_, unwrap_wrapped (ValueTag.find?_name .constructor) _, ?_⟩
    refine Decoded.bind_eq_ok.2 ⟨a, optional_valueAttrs ha (m := m) (by simp), ?_⟩
    exact Decoded.bind_eq_ok.2 ⟨f, field_of_get? (by simp) hname, rfl⟩
  | @tuple a vs ha hvs ih =>
    obtain ⟨fuel, rfl⟩ := exists_fuel hf
    have hd := depth_first hf
    rw [encodeValues_eq_map] at hd
    have hvs' := list_map fun v hv => ih v hv fuel (depth_lt_of_array hd v hv)
    refine Decoded.bind_eq_ok.2 ⟨_, unwrap_wrapped (ValueTag.find?_name .tuple) _, ?_⟩
    refine Decoded.bind_eq_ok.2 ⟨a, optional_valueAttrs ha (m := m) (by simp), ?_⟩
    exact Decoded.bind_eq_ok.2 ⟨vs, field_of_get? (by simp) hvs', rfl⟩
  | @list a vs ha hvs ih =>
    obtain ⟨fuel, rfl⟩ := exists_fuel hf
    have hd := depth_first hf
    rw [encodeValues_eq_map] at hd
    have hvs' := list_map fun v hv => ih v hv fuel (depth_lt_of_array hd v hv)
    refine Decoded.bind_eq_ok.2 ⟨_, unwrap_wrapped (ValueTag.find?_name .list) _, ?_⟩
    refine Decoded.bind_eq_ok.2 ⟨a, optional_valueAttrs ha (m := m) (by simp), ?_⟩
    exact Decoded.bind_eq_ok.2 ⟨vs, field_of_get? (by simp) hvs', rfl⟩
  | @record a fs ha hk hfs ih =>
    obtain ⟨fuel, rfl⟩ := exists_fuel hf
    have hd := depth_first hf
    rw [encodeEntries_eq_map] at hd
    have hfs' := decodeEntries_encodeEntries hk fun f hf => ih f hf fuel (depth_lt_of_object hd f hf)
    refine Decoded.bind_eq_ok.2 ⟨_, unwrap_wrapped (ValueTag.find?_name .record) _, ?_⟩
    refine Decoded.bind_eq_ok.2 ⟨a, optional_valueAttrs ha (m := m) (by simp), ?_⟩
    exact Decoded.bind_eq_ok.2 ⟨fs, field_of_get? (by simp) hfs', rfl⟩
  | @«variable» a n ha hn =>
    obtain ⟨fuel, rfl⟩ := exists_fuel hf
    have hname := decodeName_encodeName hn
    refine Decoded.bind_eq_ok.2 ⟨_, unwrap_wrapped (ValueTag.find?_name .variable) _, ?_⟩
    refine Decoded.bind_eq_ok.2 ⟨a, optional_valueAttrs ha (m := m) (by simp), ?_⟩
    exact Decoded.bind_eq_ok.2 ⟨n, field_of_get? (by simp) hname, rfl⟩
  | @reference a f ha hq =>
    obtain ⟨fuel, rfl⟩ := exists_fuel hf
    have hname := decodeFQName_encodeFQName hq
    refine Decoded.bind_eq_ok.2 ⟨_, unwrap_wrapped (ValueTag.find?_name .reference) _, ?_⟩
    refine Decoded.bind_eq_ok.2 ⟨a, optional_valueAttrs ha (m := m) (by simp), ?_⟩
    exact Decoded.bind_eq_ok.2 ⟨f, field_of_get? (by simp) hname, rfl⟩
  | @field a v n ha hv hn ih =>
    obtain ⟨fuel, rfl⟩ := exists_fuel hf
    have hv' := ih fuel (Nat.lt_of_succ_lt (depth_first hf))
    have hname := decodeName_encodeName hn
    refine Decoded.bind_eq_ok.2 ⟨_, unwrap_wrapped (ValueTag.find?_name .field) _, ?_⟩
    refine Decoded.bind_eq_ok.2 ⟨a, optional_valueAttrs ha (m := m) (by simp), ?_⟩
    refine Decoded.bind_eq_ok.2 ⟨v, field_of_get? (by simp) hv', ?_⟩
    exact Decoded.bind_eq_ok.2 ⟨n, field_of_get? (by simp) hname, rfl⟩
  | @fieldFunction a n ha hn =>
    obtain ⟨fuel, rfl⟩ := exists_fuel hf
    have hname := decodeName_encodeName hn
    refine Decoded.bind_eq_ok.2 ⟨_, unwrap_wrapped (ValueTag.find?_name .fieldFunction) _, ?_⟩
    refine Decoded.bind_eq_ok.2 ⟨a, optional_valueAttrs ha (m := m) (by simp), ?_⟩
    exact Decoded.bind_eq_ok.2 ⟨n, field_of_get? (by simp) hname, rfl⟩
  | @apply a f x ha hfun hx ihf ihx =>
    obtain ⟨fuel, rfl⟩ := exists_fuel hf
    have hf' := ihf fuel (Nat.lt_of_succ_lt (depth_first hf))
    have hx' := ihx fuel (Nat.lt_of_succ_lt (depth_second hf))
    refine Decoded.bind_eq_ok.2 ⟨_, unwrap_wrapped (ValueTag.find?_name .apply) _, ?_⟩
    refine Decoded.bind_eq_ok.2 ⟨a, optional_valueAttrs ha (m := m) (by simp), ?_⟩
    refine Decoded.bind_eq_ok.2 ⟨f, field_of_get? (by simp) hf', ?_⟩
    exact Decoded.bind_eq_ok.2 ⟨x, field_of_get? (by simp) hx', rfl⟩
  | @lambda a p b ha hp hb ih =>
    obtain ⟨fuel, rfl⟩ := exists_fuel hf
    have hp' := decodePattern_encodePattern m hp
    have hb' := ih fuel (Nat.lt_of_succ_lt (depth_second hf))
    refine Decoded.bind_eq_ok.2 ⟨_, unwrap_wrapped (ValueTag.find?_name .lambda) _, ?_⟩
    refine Decoded.bind_eq_ok.2 ⟨a, optional_valueAttrs ha (m := m) (by simp), ?_⟩
    refine Decoded.bind_eq_ok.2 ⟨p, field_of_get? (by simp) hp', ?_⟩
    exact Decoded.bind_eq_ok.2 ⟨b, field_of_get? (by simp) hb', rfl⟩
  | @letDefinition a n d b ha hn hd hv hb ihv ihb =>
    obtain ⟨fuel, rfl⟩ := exists_fuel hf
    have hname := decodeName_encodeName hn
    have hdepth := depth_second hf
    have hd' := definitionNode_encodeDefinition hd fun v hv =>
      ihv v hv fuel ((depth_expression_lt hv).trans (Nat.lt_of_succ_lt hdepth))
    have hb' := ihb fuel (Nat.lt_of_succ_lt (depth_third hf))
    refine Decoded.bind_eq_ok.2 ⟨_, unwrap_wrapped (ValueTag.find?_name .letDefinition) _, ?_⟩
    refine Decoded.bind_eq_ok.2 ⟨a, optional_valueAttrs ha (m := m) (by simp), ?_⟩
    refine Decoded.bind_eq_ok.2 ⟨n, field_of_get? (by simp) hname, ?_⟩
    refine Decoded.bind_eq_ok.2 ⟨d, field_of_get? (by simp) hd', ?_⟩
    exact Decoded.bind_eq_ok.2 ⟨b, field_of_get? (by simp) hb', rfl⟩
  | @letRecursion a ds b ha hn hds hv hb ihv ihb =>
    obtain ⟨fuel, rfl⟩ := exists_fuel hf
    have hd := depth_first hf
    rw [encodeBindings_eq_map] at hd
    have hds' := list_map fun d hmem => namedPair_pair "let binding" (hn d hmem)
      (definitionNode_encodeDefinition (hds d hmem) fun v hv => ihv d hmem v hv fuel
        ((depth_expression_lt hv).trans (depth_lt_of_pair (depth_lt_of_array hd d hmem)).2))
    have hb' := ihb fuel (Nat.lt_of_succ_lt (depth_second hf))
    refine Decoded.bind_eq_ok.2 ⟨_, unwrap_wrapped (ValueTag.find?_name .letRecursion) _, ?_⟩
    refine Decoded.bind_eq_ok.2 ⟨a, optional_valueAttrs ha (m := m) (by simp), ?_⟩
    refine Decoded.bind_eq_ok.2 ⟨ds, field_of_get? (by simp) hds', ?_⟩
    exact Decoded.bind_eq_ok.2 ⟨b, field_of_get? (by simp) hb', rfl⟩
  | @destructure a p v b ha hp hv hb ihv ihb =>
    obtain ⟨fuel, rfl⟩ := exists_fuel hf
    have hp' := decodePattern_encodePattern m hp
    have hv' := ihv fuel (Nat.lt_of_succ_lt (depth_second hf))
    have hb' := ihb fuel (Nat.lt_of_succ_lt (depth_third hf))
    refine Decoded.bind_eq_ok.2 ⟨_, unwrap_wrapped (ValueTag.find?_name .destructure) _, ?_⟩
    refine Decoded.bind_eq_ok.2 ⟨a, optional_valueAttrs ha (m := m) (by simp), ?_⟩
    refine Decoded.bind_eq_ok.2 ⟨p, field_of_get? (by simp) hp', ?_⟩
    refine Decoded.bind_eq_ok.2 ⟨v, field_of_get? (by simp) hv', ?_⟩
    exact Decoded.bind_eq_ok.2 ⟨b, field_of_get? (by simp) hb', rfl⟩
  | @ifThenElse a x t e ha hx ht he ihx iht ihe =>
    obtain ⟨fuel, rfl⟩ := exists_fuel hf
    have hx' := ihx fuel (Nat.lt_of_succ_lt (depth_first hf))
    have ht' := iht fuel (Nat.lt_of_succ_lt (depth_second hf))
    have he' := ihe fuel (Nat.lt_of_succ_lt (depth_third hf))
    refine Decoded.bind_eq_ok.2 ⟨_, unwrap_wrapped (ValueTag.find?_name .ifThenElse) _, ?_⟩
    refine Decoded.bind_eq_ok.2 ⟨a, optional_valueAttrs ha (m := m) (by simp), ?_⟩
    refine Decoded.bind_eq_ok.2 ⟨x, field_of_get? (by simp) hx', ?_⟩
    refine Decoded.bind_eq_ok.2 ⟨t, field_of_get? (by simp) ht', ?_⟩
    exact Decoded.bind_eq_ok.2 ⟨e, field_of_get? (by simp) he', rfl⟩
  | @patternMatch a v cs ha hv hps hcs ihv ihcs =>
    obtain ⟨fuel, rfl⟩ := exists_fuel hf
    have hv' := ihv fuel (Nat.lt_of_succ_lt (depth_first hf))
    have hd := depth_second hf
    rw [encodeCases_eq_map] at hd
    have hcs' := list_map fun k hk => decodeCase_pair (hps k hk)
      (ihcs k hk fuel (depth_lt_of_pair (depth_lt_of_array hd k hk)).2)
    refine Decoded.bind_eq_ok.2 ⟨_, unwrap_wrapped (ValueTag.find?_name .patternMatch) _, ?_⟩
    refine Decoded.bind_eq_ok.2 ⟨a, optional_valueAttrs ha (m := m) (by simp), ?_⟩
    refine Decoded.bind_eq_ok.2 ⟨v, field_of_get? (by simp) hv', ?_⟩
    exact Decoded.bind_eq_ok.2 ⟨cs, field_of_get? (by simp) hcs', rfl⟩
  | @updateRecord a v us ha hv hns hus ihv ihus =>
    obtain ⟨fuel, rfl⟩ := exists_fuel hf
    have hv' := ihv fuel (Nat.lt_of_succ_lt (depth_first hf))
    have hd := depth_second hf
    rw [encodeUpdates_eq_map] at hd
    have hus' := list_map fun u hu => namedPair_pair "record entry" (hns u hu)
      (ihus u hu fuel (depth_lt_of_pair (depth_lt_of_array hd u hu)).2)
    refine Decoded.bind_eq_ok.2 ⟨_, unwrap_wrapped (ValueTag.find?_name .updateRecord) _, ?_⟩
    refine Decoded.bind_eq_ok.2 ⟨a, optional_valueAttrs ha (m := m) (by simp), ?_⟩
    refine Decoded.bind_eq_ok.2 ⟨v, field_of_get? (by simp) hv', ?_⟩
    exact Decoded.bind_eq_ok.2 ⟨us, field_of_get? (by simp) hus', rfl⟩
  | @unit a ha =>
    obtain ⟨fuel, rfl⟩ := exists_fuel hf
    refine Decoded.bind_eq_ok.2 ⟨_, unwrap_wrapped (ValueTag.find?_name .unit) _, ?_⟩
    exact Decoded.bind_eq_ok.2 ⟨a, optional_valueAttrs ha (m := m) rfl, rfl⟩
  | @hole a r t ha hr ht =>
    obtain ⟨fuel, rfl⟩ := exists_fuel hf
    have hr' := decodeHoleReason_encodeHoleReason hr
    refine Decoded.bind_eq_ok.2 ⟨_, unwrap_wrapped (ValueTag.find?_name .hole) _, ?_⟩
    refine Decoded.bind_eq_ok.2 ⟨a, optional_valueAttrs ha (m := m) ?_, ?_⟩
    · cases t <;> simp
    refine Decoded.bind_eq_ok.2 ⟨r, field_of_get? (by simp) hr', ?_⟩
    refine Decoded.bind_eq_ok.2 ⟨t, optional_type ht (m := m) ?_ camel?_tpe, rfl⟩
    cases t <;> simp [valueAttrMember, get?_member_ne]
  | @native a f i ha hq =>
    obtain ⟨fuel, rfl⟩ := exists_fuel hf
    have hname := decodeFQName_encodeFQName hq
    have hi := decodeNativeInfo_encodeNativeInfo m i
    refine Decoded.bind_eq_ok.2 ⟨_, unwrap_wrapped (ValueTag.find?_name .native) _, ?_⟩
    refine Decoded.bind_eq_ok.2 ⟨a, optional_valueAttrs ha (m := m) (by simp), ?_⟩
    refine Decoded.bind_eq_ok.2 ⟨f, field_of_get? (by simp) hname, ?_⟩
    exact Decoded.bind_eq_ok.2 ⟨i, field_of_get? (by simp) hi, rfl⟩
  | @external a s p ha =>
    obtain ⟨fuel, rfl⟩ := exists_fuel hf
    refine Decoded.bind_eq_ok.2 ⟨_, unwrap_wrapped (ValueTag.find?_name .external) _, ?_⟩
    refine Decoded.bind_eq_ok.2 ⟨a, optional_valueAttrs ha (m := m) (by simp), ?_⟩
    refine Decoded.bind_eq_ok.2 ⟨s, field_of_get? (v := .string s) (by simp) rfl, ?_⟩
    exact Decoded.bind_eq_ok.2 ⟨p, field_of_get? (v := .string p) (by simp) rfl, rfl⟩

theorem decodeValue_encodeValue (m : Mode) {v : V4Value} (hv : v.Satisfies legible) :
    decodeValue (encodeValue m v) = .ok v :=
  valueAt_encodeValue hv _ (Nat.lt_succ_self _)

theorem decodeDefinition_encodeDefinition (m : Mode) {d : V4Definition}
    (hd : d.Satisfies legible) : decodeDefinition (encodeDefinition m d) = .ok d :=
  definitionNode_encodeDefinition hd.framed fun v hv =>
    valueAt_encodeValue (hd.expression v hv) _ ((depth_expression_lt hv).trans (Nat.lt_succ_self _))

end IrDialects.V4
