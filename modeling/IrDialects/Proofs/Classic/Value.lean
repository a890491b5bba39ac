import IrDialects.Proofs.Classic.Expression

/-!
# Values in the Classic form

Reading the Classic form of a value gives the value back. A body that is a bare value is told from the
other bodies by its tag, which no value has.
-/

namespace IrDialects.Classic

variable {τ ν σ μ α β : Type}

section Lists

variable (c : Codec τ ν)

@[simp] theorem encodeValues_eq_map (vs : List (Value τ ν)) :
    encodeValues c vs = vs.map (encodeValue c) := by
  induction vs with
  | nil => rfl
  | cons v vs ih => rw [encodeValues, ih, List.map_cons]

@[simp] theorem encodeEntries_eq_map (fs : List (Name × Value τ ν)) :
    encodeEntries c fs = fs.map fun f => .array [encodeName f.1, encodeValue c f.2] := by
  induction fs with
  | nil => rfl
  | cons f fs ih => rw [encodeEntries, ih, List.map_cons]

@[simp] theorem encodeCases_eq_map (cs : List (Pattern ν × Value τ ν)) :
    encodeCases c cs =
      cs.map fun k => .array [encodePattern c.valueAttrs k.1, encodeValue c k.2] := by
  induction cs with
  | nil => rfl
  | cons k cs ih => rw [encodeCases, ih, List.map_cons]

@[simp] theorem encodeBindings_eq_map (ds : List (Name × ValueDefinition τ ν)) :
    encodeBindings c ds = ds.map fun d => .array [encodeName d.1, encodeDefinition c d.2] := by
  induction ds with
  | nil => rfl
  | cons d ds ih => rw [encodeBindings, ih, List.map_cons]

end Lists

section Translation

variable {e : Codec σ μ} {c : Codec τ ν} {φ : σ → τ} {ψ : μ → ν} {P : Conditions σ μ}

theorem namedPair_pair (what : String) {decode : Json → Decoded α} {n : Name} {v : Json} {x : α}
    (h : decode v = .ok x) : namedPair what decode (.array [encodeName n, v]) = .ok (n, x) := by
  simp [namedPair, Shape.pair, Shape.array, h]

/-- Named things, written as pairs, are read one by one. -/
theorem list_namedPair (what what' : String) {decode : Json → Decoded β} {encode : α → Json}
    {k : α → β} {xs : List (Name × α)} (h : ∀ x ∈ xs, decode (encode x.2) = .ok (k x.2)) :
    Shape.list what (namedPair what' decode)
      (.array (xs.map fun x => .array [encodeName x.1, encode x.2])) =
        .ok (xs.map fun x => (x.1, k x.2)) :=
  Shape.list_map_map what fun x hx => namedPair_pair what' (h x hx)

theorem Translates.decodeInput (h : Translates e c φ ψ P) {i : Input σ μ} (hi : i.Satisfies P) :
    decodeInput c (encodeInput e i) = .ok (i.mapAttrs φ ψ) := by
  simp [Classic.decodeInput, encodeInput, Input.mapAttrs, Shape.array, h.valueAttrs _ hi.attrs,
    h.decodeType hi.type]

/-- A bare value is not taken for another kind of body. -/
theorem bodyTag?_encodeValue (v : Value σ μ) : bodyTag? (encodeValue e v) = none := by
  have key (t : ValueTag) (fields : List Json) :
      bodyTag? (.array (.string t.name :: fields)) = none := by
    simp [bodyTag?, BodyTag.find?_valueTag]
  cases v with
  | literal => exact key .literal _
  | constructor => exact key .constructor _
  | tuple => exact key .tuple _
  | list => exact key .list _
  | record => exact key .record _
  | «variable» => exact key .variable _
  | reference => exact key .reference _
  | field => exact key .field _
  | fieldFunction => exact key .fieldFunction _
  | apply => exact key .apply _
  | lambda => exact key .lambda _
  | letDefinition => exact key .letDefinition _
  | letRecursion => exact key .letRecursion _
  | destructure => exact key .destructure _
  | ifThenElse => exact key .ifThenElse _
  | patternMatch => exact key .patternMatch _
  | updateRecord => exact key .updateRecord _
  | unit => exact key .unit _
  | hole => exact key .hole _
  | native => exact key .native _
  | external => exact key .external _

theorem bodyNode_tagged {child : Json → Decoded (Value τ ν)} (t : BodyTag) (fields : List Json) :
    bodyNode child (.array (.string t.name :: fields)) = taggedBody child t fields := by
  simp [bodyNode, bodyTag?, BodyTag.find?_name]

theorem bodyNode_encodeBody {child : Json → Decoded (Value τ ν)} {b : ValueBody σ μ}
    (h : ∀ v, b = .expression v → child (encodeValue e v) = .ok (v.mapAttrs φ ψ)) :
    bodyNode child (encodeBody e b) = .ok (b.mapAttrs φ ψ) := by
  cases b with
  | expression v =>
    simp [bodyNode, encodeBody, bodyTag?_encodeValue, h v rfl, ValueBody.mapAttrs]
  | native i =>
    refine (bodyNode_tagged .native _).trans ?_
    simp [taggedBody, Shape.one, ValueBody.mapAttrs]
  | external s p =>
    refine (bodyNode_tagged .external _).trans ?_
    simp [taggedBody, Shape.two, Shape.string, ValueBody.mapAttrs]
  | incomplete i =>
    refine (bodyNode_tagged .incomplete _).trans ?_
    simp [taggedBody, Shape.one, ValueBody.mapAttrs]

theorem Translates.definitionNode (h : Translates e c φ ψ P) {child : Json → Decoded (Value τ ν)}
    {d : ValueDefinition σ μ} (hd : d.Framed P)
    (hchild : ∀ v, d.body = .expression v → child (encodeValue e v) = .ok (v.mapAttrs φ ψ)) :
    definitionNode c child (encodeDefinition e d) = .ok (d.mapAttrs φ ψ) := by
  obtain ⟨is, t, b⟩ := d
  have his := Shape.list_map_map "input types" fun i hi => h.decodeInput (hd.inputs i hi)
  have ht := h.decodeType hd.output
  have hb := bodyNode_encodeBody hchild
  simp only [ValueDefinition.inputs, ValueDefinition.output, ValueDefinition.body] at his ht hb
  simp [Classic.definitionNode, encodeDefinition, ValueDefinition.mapAttrs, Shape.object,
    Shape.member, his, ht, hb]

/-- Cases of a match, written as pairs, are read one by one. -/
theorem Translates.list_decodeCase (h : Translates e c φ ψ P) (what : String)
    {child : Json → Decoded (Value τ ν)} {cs : List (Pattern μ × Value σ μ)}
    (hp : ∀ k ∈ cs, k.1.Satisfies P)
    (hv : ∀ k ∈ cs, child (encodeValue e k.2) = .ok (k.2.mapAttrs φ ψ)) :
    Shape.list what (decodeCase c child)
      (.array (cs.map fun k => .array [encodePattern e.valueAttrs k.1, encodeValue e k.2])) =
        .ok (cs.map fun k => (k.1.mapAttrs ψ, k.2.mapAttrs φ ψ)) :=
  Shape.list_map_map what fun k hk => by
    simp [decodeCase, Shape.pair, Shape.array, h.decodePattern (hp k hk), hv k hk]

/-- The value that a definition is given by lies deeper than the definition. -/
theorem depth_expression_lt {d : ValueDefinition σ μ} {v : Value σ μ} {fuel : Nat}
    (h : d.body = .expression v) (hd : (encodeDefinition e d).depth < fuel) :
    (encodeValue e v).depth < fuel := by
  obtain ⟨is, t, b⟩ := d
  cases h
  rw [encodeDefinition, encodeBody] at hd
  exact (Json.depth_lt_of_mem_object (m := ("body", encodeValue e v)) (by simp)).trans hd

theorem Translates.valueAt (h : Translates e c φ ψ P) {v : Value σ μ} (hv : v.Satisfies P)
    (fuel : Nat) (hf : (encodeValue e v).depth < fuel) :
    valueAt c fuel (encodeValue e v) = .ok (v.mapAttrs φ ψ) := by
  induction hv generalizing fuel with
  | @literal a l ha hl =>
    obtain ⟨fuel, rfl⟩ := exists_fuel hf
    refine Decoded.bind_eq_ok.2 ⟨_, Shape.tagged_ok (ValueTag.find?_name .literal) _, ?_⟩
    simp [Value.mapAttrs, Shape.two, h.valueAttrs a ha, decodeLiteral_encodeLiteral (h.literal l hl)]
  | @constructor a f ha hq =>
    obtain ⟨fuel, rfl⟩ := exists_fuel hf
    refine Decoded.bind_eq_ok.2 ⟨_, Shape.tagged_ok (ValueTag.find?_name .constructor) _, ?_⟩
    simp [Value.mapAttrs, Shape.two, h.valueAttrs a ha]
  | @tuple a vs ha hvs ih =>
    obtain ⟨fuel, rfl⟩ := exists_fuel hf
    refine Decoded.bind_eq_ok.2 ⟨_, Shape.tagged_ok (ValueTag.find?_name .tuple) _, ?_⟩
    rw [encodeValue, encodeValues_eq_map] at hf
    obtain ⟨-, -, hd⟩ := forall_depth_lt hf
    have hvs' := Shape.list_map_map "tuple elements" fun v hv => ih v hv fuel (depth_lt_of_map hd v hv)
    simp [Value.mapAttrs, Shape.two, h.valueAttrs a ha, hvs']
  | @list a vs ha hvs ih =>
    obtain ⟨fuel, rfl⟩ := exists_fuel hf
    refine Decoded.bind_eq_ok.2 ⟨_, Shape.tagged_ok (ValueTag.find?_name .list) _, ?_⟩
    rw [encodeValue, encodeValues_eq_map] at hf
    obtain ⟨-, -, hd⟩ := forall_depth_lt hf
    have hvs' := Shape.list_map_map "list items" fun v hv => ih v hv fuel (depth_lt_of_map hd v hv)
    simp [Value.mapAttrs, Shape.two, h.valueAttrs a ha, hvs']
  | @record a fs ha hk hfs ih =>
    obtain ⟨fuel, rfl⟩ := exists_fuel hf
    refine Decoded.bind_eq_ok.2 ⟨_, Shape.tagged_ok (ValueTag.find?_name .record) _, ?_⟩
    rw [encodeValue, encodeEntries_eq_map] at hf
    obtain ⟨-, -, hd⟩ := forall_depth_lt hf
    have hfs' := list_namedPair "record fields" "record entry" fun f hf =>
      ih f hf fuel (depth_lt_of_pair (depth_lt_of_map hd f hf)).2
    simp [Value.mapAttrs, Shape.two, h.valueAttrs a ha, hfs']
  | @«variable» a n ha hn =>
    obtain ⟨fuel, rfl⟩ := exists_fuel hf
    refine Decoded.bind_eq_ok.2 ⟨_, Shape.tagged_ok (ValueTag.find?_name .variable) _, ?_⟩
    simp [Value.mapAttrs, Shape.two, h.valueAttrs a ha]
  | @reference a f ha hq =>
    obtain ⟨fuel, rfl⟩ := exists_fuel hf
    refine Decoded.bind_eq_ok.2 ⟨_, Shape.tagged_ok (ValueTag.find?_name .reference) _, ?_⟩
    simp [Value.mapAttrs, Shape.two, h.valueAttrs a ha]
  | @field a v n ha hv hn ih =>
    obtain ⟨fuel, rfl⟩ := exists_fuel hf
    refine Decoded.bind_eq_ok.2 ⟨_, Shape.tagged_ok (ValueTag.find?_name .field) _, ?_⟩
    rw [encodeValue] at hf
    obtain ⟨-, -, hd, -⟩ := forall_depth_lt hf
    simp [Value.mapAttrs, Shape.three, h.valueAttrs a ha, ih fuel hd]
  | @fieldFunction a n ha hn =>
    obtain ⟨fuel, rfl⟩ := exists_fuel hf
    refine Decoded.bind_eq_ok.2 ⟨_, Shape.tagged_ok (ValueTag.find?_name .fieldFunction) _, ?_⟩
    simp [Value.mapAttrs, Shape.two, h.valueAttrs a ha]
  | @apply a f x ha hf' hx ihf ihx =>
    obtain ⟨fuel, rfl⟩ := exists_fuel hf
    refine Decoded.bind_eq_ok.2 ⟨_, Shape.tagged_ok (ValueTag.find?_name .apply) _, ?_⟩
    rw [encodeValue] at hf
    obtain ⟨-, -, hdf, hdx⟩ := forall_depth_lt hf
    simp [Value.mapAttrs, Shape.three, h.valueAttrs a ha, ihf fuel hdf, ihx fuel hdx]
  | @lambda a p b ha hp hb ih =>
    obtain ⟨fuel, rfl⟩ := exists_fuel hf
    refine Decoded.bind_eq_ok.2 ⟨_, Shape.tagged_ok (ValueTag.find?_name .lambda) _, ?_⟩
    rw [encodeValue] at hf
    obtain ⟨-, -, -, hd⟩ := forall_depth_lt hf
    simp [Value.mapAttrs, Shape.three, h.valueAttrs a ha, h.decodePattern hp, ih fuel hd]
  | @letDefinition a n d b ha hn hd' hbody hb ihd ihb =>
    obtain ⟨fuel, rfl⟩ := exists_fuel hf
    refine Decoded.bind_eq_ok.2 ⟨_, Shape.tagged_ok (ValueTag.find?_name .letDefinition) _, ?_⟩
    rw [encodeValue] at hf
    obtain ⟨-, -, -, hdd, hdb⟩ := forall_depth_lt hf
    have hdef := h.definitionNode hd' fun v hv =>
      ihd v hv fuel (depth_expression_lt hv hdd)
    simp [Value.mapAttrs, Shape.four, h.valueAttrs a ha, hdef, ihb fuel hdb]
  | @letRecursion a ds b ha hn hds hbody hb ihd ihb =>
    obtain ⟨fuel, rfl⟩ := exists_fuel hf
    refine Decoded.bind_eq_ok.2 ⟨_, Shape.tagged_ok (ValueTag.find?_name .letRecursion) _, ?_⟩
    rw [encodeValue, encodeBindings_eq_map] at hf
    obtain ⟨-, -, hdd, hdb⟩ := forall_depth_lt hf
    have hds' := list_namedPair "let bindings" "let binding" fun d hd =>
      h.definitionNode (hds d hd) fun v hv =>
        ihd d hd v hv fuel (depth_expression_lt hv (depth_lt_of_pair (depth_lt_of_map hdd d hd)).2)
    simp [Value.mapAttrs, Shape.three, h.valueAttrs a ha, hds', ihb fuel hdb]
  | @destructure a p v b ha hp hv hb ihv ihb =>
    obtain ⟨fuel, rfl⟩ := exists_fuel hf
    refine Decoded.bind_eq_ok.2 ⟨_, Shape.tagged_ok (ValueTag.find?_name .destructure) _, ?_⟩
    rw [encodeValue] at hf
    obtain ⟨-, -, -, hdv, hdb⟩ := forall_depth_lt hf
    simp [Value.mapAttrs, Shape.four, h.valueAttrs a ha,
      h.decodePattern hp, ihv fuel hdv, ihb fuel hdb]
  | @ifThenElse a x t e ha hx ht he ihx iht ihe =>
    obtain ⟨fuel, rfl⟩ := exists_fuel hf
    refine Decoded.bind_eq_ok.2 ⟨_, Shape.tagged_ok (ValueTag.find?_name .ifThenElse) _, ?_⟩
    rw [encodeValue] at hf
    obtain ⟨-, -, hdx, hdt, hde⟩ := forall_depth_lt hf
    simp [Value.mapAttrs, Shape.four, h.valueAttrs a ha, ihx fuel hdx, iht fuel hdt, ihe fuel hde]
  | @patternMatch a v cs ha hv hps hbs ihv ihc =>
    obtain ⟨fuel, rfl⟩ := exists_fuel hf
    refine Decoded.bind_eq_ok.2 ⟨_, Shape.tagged_ok (ValueTag.find?_name .patternMatch) _, ?_⟩
    rw [encodeValue, encodeCases_eq_map] at hf
    obtain ⟨-, -, hdv, hdc⟩ := forall_depth_lt hf
    have hcs := h.list_decodeCase "match cases" hps fun k hk =>
      ihc k hk fuel (depth_lt_of_pair (depth_lt_of_map hdc k hk)).2
    simp [Value.mapAttrs, Shape.three, h.valueAttrs a ha, ihv fuel hdv, hcs]
  | @updateRecord a v us ha hv hn hus ihv ihu =>
    obtain ⟨fuel, rfl⟩ := exists_fuel hf
    refine Decoded.bind_eq_ok.2 ⟨_, Shape.tagged_ok (ValueTag.find?_name .updateRecord) _, ?_⟩
    rw [encodeValue, encodeEntries_eq_map] at hf
    obtain ⟨-, -, hdv, hdu⟩ := forall_depth_lt hf
    have hus' := list_namedPair "record updates" "record entry" fun u hu =>
      ihu u hu fuel (depth_lt_of_pair (depth_lt_of_map hdu u hu)).2
    simp [Value.mapAttrs, Shape.three, h.valueAttrs a ha, ihv fuel hdv, hus']
  | @unit a ha =>
    obtain ⟨fuel, rfl⟩ := exists_fuel hf
    refine Decoded.bind_eq_ok.2 ⟨_, Shape.tagged_ok (ValueTag.find?_name .unit) _, ?_⟩
    simp [Value.mapAttrs, Shape.one, h.valueAttrs a ha]
  | @hole a r t ha hr ht =>
    obtain ⟨fuel, rfl⟩ := exists_fuel hf
    refine Decoded.bind_eq_ok.2 ⟨_, Shape.tagged_ok (ValueTag.find?_name .hole) _, ?_⟩
    simp [Value.mapAttrs, Shape.three, h.valueAttrs a ha, h.decodeOptionalType ht]
  | @native a f i ha hq =>
    obtain ⟨fuel, rfl⟩ := exists_fuel hf
    refine Decoded.bind_eq_ok.2 ⟨_, Shape.tagged_ok (ValueTag.find?_name .native) _, ?_⟩
    simp [Value.mapAttrs, Shape.three, h.valueAttrs a ha]
  | @external a s p ha =>
    obtain ⟨fuel, rfl⟩ := exists_fuel hf
    refine Decoded.bind_eq_ok.2 ⟨_, Shape.tagged_ok (ValueTag.find?_name .external) _, ?_⟩
    simp [Value.mapAttrs, Shape.three, h.valueAttrs a ha, Shape.string]

theorem Translates.decodeValue (h : Translates e c φ ψ P) {v : Value σ μ} (hv : v.Satisfies P) :
    decodeValue c (encodeValue e v) = .ok (v.mapAttrs φ ψ) :=
  h.valueAt hv _ (Nat.lt_succ_self _)

theorem Translates.decodeBody (h : Translates e c φ ψ P) {b : ValueBody σ μ} (hb : b.Satisfies P) :
    decodeBody c (encodeBody e b) = .ok (b.mapAttrs φ ψ) := by
  refine bodyNode_encodeBody fun v hv => h.valueAt (hb.expression v hv) _ ?_
  rw [hv, encodeBody]
  exact Nat.lt_succ_self _

theorem Translates.decodeDefinition (h : Translates e c φ ψ P) {d : ValueDefinition σ μ}
    (hd : d.Satisfies P) : decodeDefinition c (encodeDefinition e d) = .ok (d.mapAttrs φ ψ) :=
  h.definitionNode hd.framed fun v hv =>
    h.valueAt (hd.expression v hv) _ (depth_expression_lt hv (Nat.lt_succ_self _))

end Translation

section RoundTrip

variable {c : Codec τ ν} {P : Conditions τ ν}

theorem decodeValue_encodeValue (h : Readable c P) {v : Value τ ν} (hv : v.Satisfies P) :
    decodeValue c (encodeValue c v) = .ok v := by
  simpa using h.translates.decodeValue hv

theorem decodeBody_encodeBody (h : Readable c P) {b : ValueBody τ ν} (hb : b.Satisfies P) :
    decodeBody c (encodeBody c b) = .ok b := by
  simpa [ValueBody.mapAttrs_id] using h.translates.decodeBody hb

theorem decodeDefinition_encodeDefinition (h : Readable c P) {d : ValueDefinition τ ν}
    (hd : d.Satisfies P) : decodeDefinition c (encodeDefinition c d) = .ok d := by
  simpa using h.translates.decodeDefinition hd

end RoundTrip

end IrDialects.Classic
