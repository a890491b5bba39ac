import IrDialects.Proofs.Classic.Value
import IrDialects.Proofs.V4.SpelledParts

/-!
# V4 readers know every spelling

Every JSON value that spells a type, a pattern or a value is read as just that, whatever mixture of
spellings it uses. A reader goes one level down with each unit of fuel: if it reads the spellings of
what is inside a node, then it reads the spellings of the node.
-/

namespace IrDialects.V4

/-- In the Classic form, too, attributes are read from their spellings. -/
theorem translates_spelled : Classic.Translates spelledForm classicForm Prod.snd Prod.snd spelled :=
  ⟨fun a => reads_typeAttrs a.1 a.2 (Nat.lt_succ_self _),
    fun a => reads_valueAttrs a.1 a.2 (Nat.lt_succ_self _), fun _ hl => hl⟩

section Types

variable {b : Nat} {R : Json → V4Type → Prop} {child : Json → Decoded V4Type}

theorem taggedType_of_members {tag : TypeTag} {v o : Json} {t : V4Type} (hr : Reads b R child)
    (hd : v.depth < b + 1) (hw : Wraps TypeTag.table tag v o)
    (ha : MayHave SpellsTypeAttrs {} o "attrs" t.attributes) (hm : TypeMembers R tag o t) :
    taggedType child v = .ok t := by
  refine hw.unwrap_bind hd fun n ho => ?_
  have hattrs := reads_typeAttrs.optional typeAttrs_null ho ha
  refine Decoded.bind_eq_ok.2 ⟨_, hattrs, ?_⟩
  cases hm with
  | «variable» hn => exact Decoded.bind_eq_ok.2 ⟨_, reads_name.field ho hn, rfl⟩
  | reference hf hts =>
    refine Decoded.bind_eq_ok.2 ⟨_, reads_fqname.field ho hf, ?_⟩
    exact Decoded.bind_eq_ok.2 ⟨_, hr.items.optional items_null ho hts, rfl⟩
  | tuple hts => exact Decoded.bind_eq_ok.2 ⟨_, hr.items.field ho hts, rfl⟩
  | record hfs => exact Decoded.bind_eq_ok.2 ⟨_, hr.entries.field ho hfs, rfl⟩
  | extensibleRecord hn hfs =>
    refine Decoded.bind_eq_ok.2 ⟨_, reads_name.field ho hn, ?_⟩
    exact Decoded.bind_eq_ok.2 ⟨_, hr.entries.field ho hfs, rfl⟩
  | function hx hy =>
    refine Decoded.bind_eq_ok.2 ⟨_, hr.field ho hx, ?_⟩
    exact Decoded.bind_eq_ok.2 ⟨_, hr.field ho hy, rfl⟩
  | unit => rfl

theorem typeShorthand_kebab {n : Name} (hn : n.Canonical) (hw : n.words ≠ []) :
    typeShorthand n.kebab = .ok (.variable {} n) := by
  simp [typeShorthand, FQName.parse?_kebab hn, hn, Name.isEmpty, hw]

theorem Reads.typeNode (hr : Reads b SpellsType child) :
    Reads (b + 1) SpellsType (typeNode child) := by
  intro v t hd h
  cases h with
  | node hw ha hm =>
    obtain ⟨ms, rfl⟩ := hw.exists_eq_object
    exact taggedType_of_members hr hd hw ha hm
  | @classic s h =>
    have hclassic : V4.typeNode child (Classic.encodeType spelledForm.typeAttrs s) =
        Classic.decodeType classicForm.typeAttrs (Classic.encodeType spelledForm.typeAttrs s) := by
      cases s <;> rfl
    rw [hclassic, translates_spelled.decodeType h]
  | name hn hw => exact typeShorthand_kebab hn hw
  | qualified h => simp only [V4.typeNode, typeShorthand, h.parse?]

theorem reads_typeAt (fuel : Nat) : Reads fuel SpellsType (typeAt fuel) := by
  induction fuel with
  | zero => exact fun _ _ hd => absurd hd (Nat.not_lt_zero _)
  | succ fuel ih => exact ih.typeNode

theorem reads_type : Reads b SpellsType decodeType := fun v t _ h =>
  reads_typeAt (v.depth + 1) v t (Nat.lt_succ_self _) h

end Types

section Patterns

variable {b : Nat} {R : Json → Pattern ValueAttrs → Prop}
  {child : Json → Decoded (Pattern ValueAttrs)}

theorem taggedPattern_of_members {tag : PatternTag} {v o : Json} {p : Pattern ValueAttrs}
    (hr : Reads b R child) (hd : v.depth < b + 1) (hw : Wraps PatternTag.table tag v o)
    (ha : MayHave SpellsValueAttrs {} o "attrs" p.attributes) (hm : PatternMembers R tag o p) :
    taggedPattern child v = .ok p := by
  refine hw.unwrap_bind hd fun n ho => ?_
  have hattrs := reads_valueAttrs.optional valueAttrs_null ho ha
  refine Decoded.bind_eq_ok.2 ⟨_, hattrs, ?_⟩
  cases hm with
  | wildcard => rfl
  | as hp hn =>
    refine Decoded.bind_eq_ok.2 ⟨_, hr.field ho hp, ?_⟩
    exact Decoded.bind_eq_ok.2 ⟨_, reads_name.field ho hn, rfl⟩
  | tuple hps => exact Decoded.bind_eq_ok.2 ⟨_, hr.items.field ho hps, rfl⟩
  | constructor hf hps =>
    refine Decoded.bind_eq_ok.2 ⟨_, reads_fqname.field ho hf, ?_⟩
    exact Decoded.bind_eq_ok.2 ⟨_, hr.items.optional items_null ho hps, rfl⟩
  | emptyList => rfl
  | headTail hp hq =>
    refine Decoded.bind_eq_ok.2 ⟨_, hr.field ho hp, ?_⟩
    exact Decoded.bind_eq_ok.2 ⟨_, hr.field ho hq, rfl⟩
  | literal hl => exact Decoded.bind_eq_ok.2 ⟨_, reads_literal.field ho hl, rfl⟩
  | unit => rfl

theorem Reads.patternNode (hr : Reads b SpellsPattern child) :
    Reads (b + 1) SpellsPattern (patternNode child) := by
  intro v p hd h
  cases h with
  | node hw ha hm =>
    obtain ⟨ms, rfl⟩ := hw.exists_eq_object
    exact taggedPattern_of_members hr hd hw ha hm
  | @classic q h =>
    have hclassic : V4.patternNode child (Classic.encodePattern spelledForm.valueAttrs q) =
        Classic.decodePattern classicForm.valueAttrs
          (Classic.encodePattern spelledForm.valueAttrs q) := by
      cases q <;> rfl
    rw [hclassic, translates_spelled.decodePattern h]

theorem reads_patternAt (fuel : Nat) : Reads fuel SpellsPattern (patternAt fuel) := by
  induction fuel with
  | zero => exact fun _ _ hd => absurd hd (Nat.not_lt_zero _)
  | succ fuel ih => exact ih.patternNode

theorem reads_pattern : Reads b SpellsPattern decodePattern := fun v p _ h =>
  reads_patternAt (v.depth + 1) v p (Nat.lt_succ_self _) h

end Patterns

section Definitions

variable {b : Nat} {R : Json → V4Value → Prop} {child : Json → Decoded V4Value}

theorem reads_inputs : Reads b (Keyed Input.name SpellsInput) (keyed decodeInput) := by
  refine reads_keyed fun v i hd hn h => ?_
  cases h with
  | @mk ms n a t hk ha ht =>
    refine Decoded.bind_eq_ok.2 ⟨_, rfl, ?_⟩
    have ho : Opens b (.object ms) ⟨"input type", ms, false⟩ := ⟨rfl, hk, hd.le⟩
    have hattrs := reads_valueAttrs.optional valueAttrs_null ho ha
    refine Decoded.bind_eq_ok.2 ⟨_, hattrs, ?_⟩
    refine Decoded.bind_eq_ok.2 ⟨_, reads_type.field ho ht, ?_⟩
    rw [hn.parse_kebab]
    rfl

theorem bodyNode_of_wraps {tag : BodyTag} {v o : Json} (h : Wraps BodyTag.table tag v o) :
    bodyNode child v = taggedBody child v := by
  cases h with
  | object hf => simp [bodyNode, hasBodyTag, hf]
  | null hf => simp [bodyNode, hasBodyTag, hf]

theorem bodyNode_encodeBody_classic (body : ValueBody (Json × TypeAttrs) (Json × ValueAttrs)) :
    V4.bodyNode child (Classic.encodeBody spelledForm body) =
      Classic.decodeBody classicForm (Classic.encodeBody spelledForm body) := by
  cases body with
  | expression x => cases x <;> rfl
  | native i => rfl
  | external s t => rfl
  | incomplete i => rfl

/-- Bodies are read if values are, and if no value is taken for another kind of body. -/
theorem Reads.bodyNode (hr : Reads b R child)
    (hbare : ∀ v x, R v x → child v = .ok x → bodyNode child v = .ok (.expression x)) :
    Reads b (SpellsBody R) (bodyNode child) := by
  intro v body hd h
  cases h with
  | expression hw hx =>
    rw [bodyNode_of_wraps hw]
    refine hw.unwrap_bind (Nat.lt_succ_of_lt hd) fun n ho => ?_
    exact Decoded.bind_eq_ok.2 ⟨_, hr.field ho hx, rfl⟩
  | native hw hi =>
    rw [bodyNode_of_wraps hw]
    refine hw.unwrap_bind (Nat.lt_succ_of_lt hd) fun n ho => ?_
    exact Decoded.bind_eq_ok.2 ⟨_, reads_nativeInfo.field ho hi, rfl⟩
  | external hw hs ht =>
    rw [bodyNode_of_wraps hw]
    refine hw.unwrap_bind (Nat.lt_succ_of_lt hd) fun n ho => ?_
    refine Decoded.bind_eq_ok.2 ⟨_, reads_text.field ho hs, ?_⟩
    exact Decoded.bind_eq_ok.2 ⟨_, reads_text.field ho ht, rfl⟩
  | incomplete hw hi =>
    rw [bodyNode_of_wraps hw]
    refine hw.unwrap_bind (Nat.lt_succ_of_lt hd) fun n ho => ?_
    exact Decoded.bind_eq_ok.2 ⟨_, reads_incompleteness.field ho hi, rfl⟩
  | bare h => exact hbare v _ h (hr v _ hd h)
  | classic h =>
    rw [bodyNode_encodeBody_classic, translates_spelled.decodeBody h]

theorem Reads.definitionNode (hr : Reads b (SpellsBody R) (V4.bodyNode child)) :
    Reads b (SpellsDefinition R) (definitionNode child) := by
  intro v d hd h
  cases h with
  | @mk ms is t body hk his ht hb =>
    refine Decoded.bind_eq_ok.2 ⟨_, rfl, ?_⟩
    have ho : Opens b (.object ms) ⟨"value definition", ms, false⟩ := ⟨rfl, hk, hd.le⟩
    refine Decoded.bind_eq_ok.2 ⟨_, reads_inputs.field ho his, ?_⟩
    refine Decoded.bind_eq_ok.2 ⟨_, reads_type.field ho ht, ?_⟩
    exact Decoded.bind_eq_ok.2 ⟨_, hr.field ho hb, rfl⟩

end Definitions

section Values

variable {b : Nat} {R : Json → V4Value → Prop} {child : Json → Decoded V4Value}

theorem Reads.decodeCase (hr : Reads b R child) :
    Reads b (Pair SpellsPattern R) (decodeCase child) := by
  rintro _ _ hd ⟨hp, hx⟩
  obtain ⟨hdp, hdx⟩ := Classic.depth_lt_of_pair hd
  simp [V4.decodeCase, Shape.pair, Shape.array, reads_pattern _ _ hdp hp, hr _ _ hdx hx]

theorem reads_present {α : Type} {R : Json → α → Prop} {decode : Json → Decoded α}
    (hr : Reads b R decode) : Reads b (Present R) (fun v => return some (← decode v)) := by
  rintro v _ hd ⟨h⟩
  simp [hr v _ hd h]

theorem not_spellsType_null (t : V4Type) : ¬ SpellsType .null t := by
  intro h
  generalize hv : Json.null = v at h
  cases h with
  | node hw =>
    obtain ⟨ms, rfl⟩ := hw.exists_eq_object
    cases hv
  | @classic s => cases s <;> cases hv
  | name => cases hv
  | qualified => cases hv

theorem taggedValue_of_members {tag : ValueTag} {v o : Json} {x : V4Value} (hr : Reads b R child)
    (hdef : Reads b (SpellsDefinition R) (definitionNode child)) (hd : v.depth < b + 1)
    (hw : Wraps ValueTag.table tag v o) (ha : MayHave SpellsValueAttrs {} o "attrs" x.attributes)
    (hm : ValueMembers R tag o x) : taggedValue child v = .ok x := by
  refine hw.unwrap_bind hd fun n ho => ?_
  have hattrs := reads_valueAttrs.optional valueAttrs_null ho ha
  refine Decoded.bind_eq_ok.2 ⟨_, hattrs, ?_⟩
  -- The fields of each node are read in the order in which `ValueMembers` lists them.
  cases hm with
  | literal hl => exact Decoded.bind_eq_ok.2 ⟨_, reads_literal.field ho hl, rfl⟩
  | constructor hf => exact Decoded.bind_eq_ok.2 ⟨_, reads_fqname.field ho hf, rfl⟩
  | tuple hvs => exact Decoded.bind_eq_ok.2 ⟨_, hr.items.field ho hvs, rfl⟩
  | list hvs => exact Decoded.bind_eq_ok.2 ⟨_, hr.items.field ho hvs, rfl⟩
  | record hfs => exact Decoded.bind_eq_ok.2 ⟨_, hr.entries.field ho hfs, rfl⟩
  | «variable» hn => exact Decoded.bind_eq_ok.2 ⟨_, reads_name.field ho hn, rfl⟩
  | reference hf => exact Decoded.bind_eq_ok.2 ⟨_, reads_fqname.field ho hf, rfl⟩
  | field hx hn =>
    refine Decoded.bind_eq_ok.2 ⟨_, hr.field ho hx, ?_⟩
    exact Decoded.bind_eq_ok.2 ⟨_, reads_name.field ho hn, rfl⟩
  | fieldFunction hn => exact Decoded.bind_eq_ok.2 ⟨_, reads_name.field ho hn, rfl⟩
  | apply hf hx =>
    refine Decoded.bind_eq_ok.2 ⟨_, hr.field ho hf, ?_⟩
    exact Decoded.bind_eq_ok.2 ⟨_, hr.field ho hx, rfl⟩
  | lambda hp hb =>
    refine Decoded.bind_eq_ok.2 ⟨_, reads_pattern.field ho hp, ?_⟩
    exact Decoded.bind_eq_ok.2 ⟨_, hr.field ho hb, rfl⟩
  | letDefinition hn hdef' hb =>
    refine Decoded.bind_eq_ok.2 ⟨_, reads_name.field ho hn, ?_⟩
    refine Decoded.bind_eq_ok.2 ⟨_, hdef.field ho hdef', ?_⟩
    exact Decoded.bind_eq_ok.2 ⟨_, hr.field ho hb, rfl⟩
  | letRecursion hds hb =>
    refine Decoded.bind_eq_ok.2 ⟨_, (hdef.namedPair "let binding").items.field ho hds, ?_⟩
    exact Decoded.bind_eq_ok.2 ⟨_, hr.field ho hb, rfl⟩
  | destructure hp hx hb =>
    refine Decoded.bind_eq_ok.2 ⟨_, reads_pattern.field ho hp, ?_⟩
    refine Decoded.bind_eq_ok.2 ⟨_, hr.field ho hx, ?_⟩
    exact Decoded.bind_eq_ok.2 ⟨_, hr.field ho hb, rfl⟩
  | ifThenElse hc hx hy =>
    refine Decoded.bind_eq_ok.2 ⟨_, hr.field ho hc, ?_⟩
    refine Decoded.bind_eq_ok.2 ⟨_, hr.field ho hx, ?_⟩
    exact Decoded.bind_eq_ok.2 ⟨_, hr.field ho hy, rfl⟩
  | patternMatch hx hcs =>
    refine Decoded.bind_eq_ok.2 ⟨_, hr.field ho hx, ?_⟩
    exact Decoded.bind_eq_ok.2 ⟨_, hr.decodeCase.items.field ho hcs, rfl⟩
  | updateRecord hx hus =>
    refine Decoded.bind_eq_ok.2 ⟨_, hr.field ho hx, ?_⟩
    exact Decoded.bind_eq_ok.2 ⟨_, (hr.namedPair "record entry").items.field ho hus, rfl⟩
  | unit => rfl
  | hole hreason ht =>
    refine Decoded.bind_eq_ok.2 ⟨_, reads_holeReason.field ho hreason, ?_⟩
    have hnull := present_null not_spellsType_null
    exact Decoded.bind_eq_ok.2 ⟨_, (reads_present reads_type).optional hnull ho ht, rfl⟩
  | native hf hi =>
    refine Decoded.bind_eq_ok.2 ⟨_, reads_fqname.field ho hf, ?_⟩
    exact Decoded.bind_eq_ok.2 ⟨_, reads_nativeInfo.field ho hi, rfl⟩
  | external hs ht =>
    refine Decoded.bind_eq_ok.2 ⟨_, reads_text.field ho hs, ?_⟩
    exact Decoded.bind_eq_ok.2 ⟨_, reads_text.field ho ht, rfl⟩

theorem valueShorthand_kebab {n : Name} (hn : n.Canonical) (hw : n.words ≠ []) :
    valueShorthand n.kebab = .ok (.variable {} n) := by
  simp [valueShorthand, FQName.parse?_kebab hn, hn, Name.isEmpty, hw]

/-- No spelling of a value is taken for a body with a tag of its own. -/
theorem bodyNode_of_spellsValue {v : Json} {x : V4Value} (h : SpellsValue v x)
    (hx : child v = .ok x) : V4.bodyNode child v = .ok (.expression x) := by
  cases h with
  | node hw =>
    cases hw with
    | object hf => simp [V4.bodyNode, hasBodyTag, BodyTag.find?_eq_none hf, hx]
    | null hf => simp [V4.bodyNode, hasBodyTag, BodyTag.find?_eq_none hf, hx]
  | @classic y h =>
    have hbody : ValueBody.Satisfies spelled (.expression y) := ValueBody.satisfies_expression.2 h
    exact (bodyNode_encodeBody_classic (.expression y)).trans (translates_spelled.decodeBody hbody)
  | name => exact Decoded.bind_eq_ok.2 ⟨_, hx, rfl⟩
  | qualified => exact Decoded.bind_eq_ok.2 ⟨_, hx, rfl⟩

theorem Reads.valueNode (hr : Reads b SpellsValue child) :
    Reads (b + 1) SpellsValue (valueNode child) := by
  intro v x hd h
  cases h with
  | node hw ha hm =>
    obtain ⟨ms, rfl⟩ := hw.exists_eq_object
    have hbody := hr.bodyNode fun _ _ => bodyNode_of_spellsValue
    exact taggedValue_of_members hr hbody.definitionNode hd hw ha hm
  | @classic y h =>
    have hclassic : V4.valueNode child (Classic.encodeValue spelledForm y) =
        Classic.decodeValue classicForm (Classic.encodeValue spelledForm y) := by
      cases y <;> rfl
    rw [hclassic, translates_spelled.decodeValue h]
  | name hn hw => exact valueShorthand_kebab hn hw
  | qualified h => simp only [V4.valueNode, valueShorthand, h.parse?]

theorem reads_valueAt (fuel : Nat) : Reads fuel SpellsValue (valueAt fuel) := by
  induction fuel with
  | zero => exact fun _ _ hd => absurd hd (Nat.not_lt_zero _)
  | succ fuel ih => exact ih.valueNode

end Values

/-- Whatever mixture of spellings a tree is written in, it is read as that tree. -/
theorem every_spelling_is_read :
    (∀ v t, SpellsType v t → decodeType v = .ok t) ∧
    (∀ v p, SpellsPattern v p → decodePattern v = .ok p) ∧
    ∀ v x, SpellsValue v x → decodeValue v = .ok x :=
  ⟨fun v t => reads_type v t (Nat.lt_succ_self _), fun v p => reads_pattern v p (Nat.lt_succ_self _),
    fun v x => reads_valueAt (v.depth + 1) v x (Nat.lt_succ_self _)⟩

section Mixture

/-- The qualified name `a:b#c`. -/
def sampleName : FQName := ⟨⟨[⟨["a"]⟩]⟩, ⟨[⟨["b"]⟩]⟩, ⟨["c"]⟩⟩

theorem canonical_sampleName : sampleName.Canonical :=
  ⟨by decide, by decide, by decide, by decide⟩

/-- An argument `x` with the type of that name. -/
def sampleInput : Input TypeAttrs ValueAttrs := ⟨⟨["x"]⟩, {}, .reference {} sampleName []⟩

def mixedInput : Json := .object [("type", .string "a:b#c"), ("typeAttributes", .null)]

theorem spells_mixedInput : SpellsInput mixedInput sampleInput := by
  have htype : SpellsQualifiedText "a:b#c" sampleName := .hash canonical_sampleName
  exact .mk (by decide) (.omitted (.null (.camel (by decide) camel?_typeAttributes (by simp))))
    (.mk (.hyphenated (by simp)) (.qualified htype))

/-- A type with a variable as a text and a unit in the Classic form. -/
def mixedType : Json :=
  .object [("tuple", .object [("elements",
    .array [.string "t", .array [.string "Unit", .array []]])])]

theorem spells_mixedType :
    SpellsType mixedType (.tuple {} [.variable {} ⟨["t"]⟩, .unit {}]) := by
  have hvariable : SpellsType (.string "t") (.variable {} ⟨["t"]⟩) :=
    .name (n := ⟨["t"]⟩) (by decide) (by decide)
  have hunit : SpellsType (.array [.string "Unit", .array []]) (.unit {}) :=
    .classic (t := .unit (.array [], {})) (.unit (.empty rfl))
  exact .node (.object rfl (by decide)) (.omitted (.missing (by decide) (by decide)))
    (.tuple (.mk (.hyphenated (by simp)) (.cons hvariable (.cons hunit .nil))))

/-- The attribute of a function, with what it is inferred to be. -/
def inferred : ValueAttrs := { inferredType := some (.string "t") }

/-- A value with a name as an array, a branch in the Classic form, a branch as a text and a member
that means nothing. The attributes in the Classic branch have spellings of their own. -/
def mixedValue : Json :=
  .object [("if_then_else", .object [
    ("elseBranch", .string "some-name"),
    ("note", .bool true),
    ("condition", .object [("Reference", .object [("attrs", .array []),
      ("fqname", .array [.array [.array [.string "a"]], .array [.array [.string "b"]],
        .array [.string "c"]])])]),
    ("then-branch", .array [.string "Lambda", .object [("inferredType", .string "t")],
      .array [.string "WildcardPattern", .array []],
      .array [.string "Variable", .null, .array [.string "f"]]])])]

theorem spells_mixedValue :
    SpellsValue mixedValue (.ifThenElse {} (.reference {} sampleName)
      (.lambda inferred (.wildcard {}) (.variable {} ⟨["f"]⟩))
      (.variable {} ⟨["some", "name"]⟩)) := by
  have hattrs : SpellsValueAttrs (.array []) {} := .empty rfl
  have hwords : SpellsFQName (.array [.array [.array [.string "a"]], .array [.array [.string "b"]],
      .array [.string "c"]]) sampleName := .words (f := sampleName)
  have hcondition : SpellsValue (.object [("Reference", .object [("attrs", .array []),
      ("fqname", .array [.array [.array [.string "a"]], .array [.array [.string "b"]],
        .array [.string "c"]])])]) (.reference {} sampleName) :=
    .node (.object rfl (by decide)) (.given (.hyphenated (by simp)) hattrs)
      (.reference (.mk (.hyphenated (by simp)) hwords))
  have hkept : FieldName.camel? "inferred-type" = some "inferredType" := rfl
  have hinferred : SpellsValueAttrs (.object [("inferredType", .string "t")]) inferred :=
    .object (by decide) (.omitted (.missing (by decide) (by decide)))
      (.given (.camel (by decide) hkept (by simp)) (.mk (.mk (by simp))))
      (.omitted (.missing (by decide) (by decide)))
  have hthen : SpellsValue (.array [.string "Lambda", .object [("inferredType", .string "t")],
      .array [.string "WildcardPattern", .array []],
      .array [.string "Variable", .null, .array [.string "f"]]])
      (.lambda inferred (.wildcard {}) (.variable {} ⟨["f"]⟩)) :=
    .classic (x := .lambda (.object [("inferredType", .string "t")], inferred)
        (.wildcard (.array [], {})) (.variable (.null, {}) ⟨["f"]⟩))
      (.lambda hinferred (.wildcard hattrs) (.variable (.empty rfl) trivial))
  have helse : SpellsValue (.string "some-name") (.variable {} ⟨["some", "name"]⟩) :=
    .name (n := ⟨["some", "name"]⟩) (by decide) (by decide)
  have hcamel : FieldName.camel? "else-branch" = some "elseBranch" := rfl
  exact .node (.object rfl (by decide)) (.omitted (.missing (by decide) (by decide)))
    (.ifThenElse (.mk (.hyphenated (by simp)) hcondition) (.mk (.hyphenated (by simp)) hthen)
      (.mk (.camel (by decide) hcamel (by simp)) helse))

/-- A definition with its members in camel case and hyphenated, and with a bare body. -/
def mixedDefinition : Json :=
  .object [("inputTypes", .object [("x", mixedInput)]), ("output-type", mixedType),
    ("body", mixedValue)]

/-- A value that uses all these spellings side by side. -/
def mixture : Json :=
  .object [("LETDEFINITION", .object [("body", .string "a:b:c"), ("definition", mixedDefinition),
    ("name", .array [.string "Foo"])])]

/-- The value that it spells. -/
def unmixed : V4Value :=
  .letDefinition {} ⟨["Foo"]⟩
    (.mk [sampleInput] (.tuple {} [.variable {} ⟨["t"]⟩, .unit {}])
      (.expression (.ifThenElse {} (.reference {} sampleName)
        (.lambda inferred (.wildcard {}) (.variable {} ⟨["f"]⟩))
        (.variable {} ⟨["some", "name"]⟩))))
    (.reference {} sampleName)

theorem mixture_is_read : SpellsValue mixture unmixed ∧ decodeValue mixture = .ok unmixed := by
  have hinputs : Keyed Input.name SpellsInput (.object [("x", mixedInput)]) [sampleInput] :=
    .cons (x := sampleInput) (by decide) spells_mixedInput .nil
  have hcamel : FieldName.camel? "input-types" = some "inputTypes" := rfl
  have hdefinition : SpellsDefinition SpellsValue mixedDefinition
      (.mk [sampleInput] (.tuple {} [.variable {} ⟨["t"]⟩, .unit {}])
        (.expression (.ifThenElse {} (.reference {} sampleName)
          (.lambda inferred (.wildcard {}) (.variable {} ⟨["f"]⟩))
          (.variable {} ⟨["some", "name"]⟩)))) :=
    .mk (by decide) (.mk (.camel (by decide) hcamel (by simp)) hinputs)
      (.mk (.hyphenated (by simp)) spells_mixedType)
      (.mk (.hyphenated (by simp)) (.bare spells_mixedValue))
  have hname : SpellsName (.array [.string "Foo"]) ⟨["Foo"]⟩ := .words (n := ⟨["Foo"]⟩)
  have hbody : SpellsQualifiedText "a:b:c" sampleName := .colons canonical_sampleName
  have h : SpellsValue mixture unmixed :=
    .node (.object rfl (by decide)) (.omitted (.missing (by decide) (by decide)))
      (.letDefinition (.mk (.hyphenated (by simp)) hname) (.mk (.hyphenated (by simp)) hdefinition)
        (.mk (.hyphenated (by simp)) (.qualified hbody)))
  exact ⟨h, every_spelling_is_read.2.2 mixture unmixed h⟩

end Mixture

section NamelessStep

/-- A qualified name whose package path has a step without a word. -/
def namelessStep : FQName := ⟨⟨[⟨[]⟩]⟩, ⟨[⟨["m"]⟩]⟩, ⟨["x"]⟩⟩

/-- The text `:m#x` does not show such a step, although all words are canonical, so that a reference
by this text has another name. -/
theorem namelessStep_is_lost :
    (∀ n ∈ namelessStep.packagePath.names ++ namelessStep.modulePath.names, n.Canonical) ∧
      namelessStep.localName.Canonical ∧ namelessStep.localName.words ≠ [] ∧
      decodeType (.string namelessStep.hashText) ≠ .ok (.reference {} namelessStep []) := by
  refine ⟨by decide, by decide, by decide, fun h => ?_⟩
  have hcanonical : FQName.Canonical ⟨⟨[]⟩, namelessStep.modulePath, namelessStep.localName⟩ :=
    ⟨by decide, by decide, by decide, by decide⟩
  have hread : decodeType (.string namelessStep.hashText) =
      .ok (.reference {} ⟨⟨[]⟩, namelessStep.modulePath, namelessStep.localName⟩ []) :=
    reads_type (b := 1) _ _ Nat.zero_lt_one (.qualified (.hash hcanonical))
  rw [hread] at h
  cases h

end NamelessStep

end IrDialects.V4
