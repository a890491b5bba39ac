import IrDialects.Proofs.Classic.DocumentImage
import IrDialects.Proofs.V4.Node
import IrDialects.V4.Document

/-!
# Trees read from the V4 form

Whatever is read from the V4 form of a value that a document can have meets every condition that the
attributes read from such values and the literals with a written form meet. The same conditions serve
the subtrees that are written in the Classic form.
-/

namespace IrDialects

namespace V4

open Classic (Yields)

variable {α : Type} {P : Conditions TypeAttrs ValueAttrs}

section Nodes

theorem orderly_of_unwrap {table : TagTable α} {name : α → String} {v : Json} {tag : α} {n : Node}
    (hv : v.Orderly) (h : unwrap table name v = .ok (tag, n)) : (Json.object n.members).Orderly := by
  obtain ⟨s, body, rfl, hm | rfl⟩ := unwrap_eq_ok h
  · rw [hm]
    exact .object List.nodup_nil (by simp)
  · exact (Json.all_object.1 hv).2 (s, _) (List.mem_singleton_self _)

theorem record_eq_ok {what : String} {v : Json} {n : Node} (h : record what v = .ok n) :
    v = .object n.members := by
  simp only [record, Decoded.bind_eq_ok, Shape.object_eq_ok, Decoded.pure_eq] at h
  obtain ⟨ms, rfl, ⟨⟩⟩ := h
  rfl

theorem orderly_of_find? {ms : Members} (hms : (Json.object ms).Orderly) {name key : String}
    {v : Json} (h : FieldName.find? ms name = some (key, v)) : v.Orderly :=
  (Json.all_object.1 hms).2 (key, v) (FieldName.mem_of_find? h)

variable {n : Node} {name : String} {decode : Json → Decoded α} {x : α}

theorem field_image (hn : (Json.object n.members).Orderly) (h : n.field name decode = .ok x) :
    ∃ v, v.Orderly ∧ decode v = .ok x := by
  obtain ⟨key, v, hv, hx⟩ := field_eq_ok.1 h
  exact ⟨v, orderly_of_find? hn hv, hx⟩

theorem optional_image {default : α} {Q : α → Prop} (hn : (Json.object n.members).Orderly)
    (h : n.optional name default decode = .ok x) (hdefault : Q default)
    (hQ : ∀ v x, v.Orderly → decode v = .ok x → Q x) : Q x := by
  rcases optional_eq_ok h with rfl | ⟨key, v, hv, hx⟩
  · exact hdefault
  · exact hQ v x (orderly_of_find? hn hv) hx

theorem keyed_image {decode : String → Json → Decoded α} {v : Json} {xs : List α} {Q : α → Prop}
    (h : keyed decode v = .ok xs) (hv : v.Orderly)
    (hQ : ∀ k w x, w.Orderly → decode k w = .ok x → Q x) : ∀ x ∈ xs, Q x := by
  obtain ⟨ms, hms, hxs⟩ := Decoded.bind_eq_ok.1 h
  obtain rfl := Shape.object_eq_ok.1 hms
  have hall := (Json.all_object.1 hv).2
  have hread := eachMember_eq_ok.1 hxs
  clear h hms hv hxs
  induction hread with
  | nil => simp
  | cons hx _ ih =>
    rw [List.forall_mem_cons] at hall ⊢
    exact ⟨hQ _ _ _ hall.1 hx, ih hall.2⟩

theorem typeAttrs_empty (y : Yields classicForm P) : P.typeAttrs {} := by
  have hempty : decodeTypeAttrs .null = .ok {} := by
    simp [decodeTypeAttrs, attrMembers, Json.isEmpty, sourceOf, keptMember, extensionsOf,
      FieldName.find?_nil]
  exact y.typeAttrs .null {} .null hempty

theorem valueAttrs_empty (y : Yields classicForm P) : P.valueAttrs {} := by
  have hempty : decodeValueAttrs .null = .ok {} := by
    simp [decodeValueAttrs, attrMembers, Json.isEmpty, sourceOf, keptMember, extensionsOf,
      FieldName.find?_nil]
  exact y.valueAttrs .null {} .null hempty

theorem optional_typeAttrs_image (y : Yields classicForm P) {a : TypeAttrs}
    (hn : (Json.object n.members).Orderly) (h : n.optional "attrs" {} decodeTypeAttrs = .ok a) :
    P.typeAttrs a :=
  optional_image hn h (typeAttrs_empty y) y.typeAttrs

theorem optional_valueAttrs_image (y : Yields classicForm P) {a : ValueAttrs}
    (hn : (Json.object n.members).Orderly) (h : n.optional name {} decodeValueAttrs = .ok a) :
    P.valueAttrs a :=
  optional_image hn h (valueAttrs_empty y) y.valueAttrs

theorem list_field_image {xs : List α} {Q : α → Prop} (hn : (Json.object n.members).Orderly)
    (h : n.field name (list decode) = .ok xs) (hQ : ∀ v x, v.Orderly → decode v = .ok x → Q x) :
    ∀ x ∈ xs, Q x := by
  obtain ⟨v, hv, hxs⟩ := field_image hn h
  exact Shape.list_image hxs hv hQ

theorem list_optional_image {xs : List α} {Q : α → Prop} (hn : (Json.object n.members).Orderly)
    (h : n.optional name [] (list decode) = .ok xs)
    (hQ : ∀ v x, v.Orderly → decode v = .ok x → Q x) : ∀ x ∈ xs, Q x :=
  optional_image (Q := fun xs => ∀ x ∈ xs, Q x) hn h (by simp)
    fun _ _ hv hxs => Shape.list_image hxs hv hQ

end Nodes

theorem decodeFields_image {child : Json → Decoded V4Type} {v : Json} {fs : TypeFields TypeAttrs}
    (hv : v.Orderly) (hchild : ∀ w t, w.Orderly → child w = .ok t → t.Satisfies P)
    (h : decodeFields child v = .ok fs) : ∀ f ∈ fs, f.2.Satisfies P := by
  refine keyed_image h hv fun k w f hw hf => ?_
  obtain ⟨t, ht, ⟨⟩⟩ := Decoded.bind_eq_ok.1 hf
  exact hchild w t hw ht

theorem typeShorthand_image (y : Yields classicForm P) {s : String} {t : V4Type}
    (h : typeShorthand s = .ok t) : t.Satisfies P := by
  have ha := typeAttrs_empty y
  rw [typeShorthand] at h
  split at h
  · cases h
    exact .reference ha (y.qualified _) (by simp)
  · dsimp only at h
    split at h
    · cases h
    · cases h
      exact .variable ha (y.name _)

theorem taggedType_image (y : Yields classicForm P) {child : Json → Decoded V4Type} {v : Json}
    {t : V4Type} (hv : v.Orderly) (hchild : ∀ w t, w.Orderly → child w = .ok t → t.Satisfies P)
    (h : taggedType child v = .ok t) : t.Satisfies P := by
  obtain ⟨⟨tag, n⟩, hn, h⟩ := Decoded.bind_eq_ok.1 h
  have hms := orderly_of_unwrap hv hn
  obtain ⟨a, ha, h⟩ := Decoded.bind_eq_ok.1 h
  have hattrs := optional_typeAttrs_image y hms ha
  cases tag with
  | «variable» =>
    obtain ⟨x, -, ⟨⟩⟩ := Decoded.bind_eq_ok.1 h
    exact .variable hattrs (y.name x)
  | reference =>
    simp only [Decoded.bind_eq_ok, Decoded.pure_eq] at h
    obtain ⟨f, -, ts, hts, ⟨⟩⟩ := h
    exact .reference hattrs (y.qualified f) (list_optional_image hms hts hchild)
  | tuple =>
    obtain ⟨ts, hts, ⟨⟩⟩ := Decoded.bind_eq_ok.1 h
    exact .tuple hattrs (list_field_image hms hts hchild)
  | record =>
    obtain ⟨fs, hfs, ⟨⟩⟩ := Decoded.bind_eq_ok.1 h
    obtain ⟨w, hw, hfs'⟩ := field_image hms hfs
    exact .record hattrs (y.keyed _) (decodeFields_image hw hchild hfs')
  | extensibleRecord =>
    simp only [Decoded.bind_eq_ok, Decoded.pure_eq] at h
    obtain ⟨r, -, fs, hfs, ⟨⟩⟩ := h
    obtain ⟨w, hw, hfs'⟩ := field_image hms hfs
    exact .extensibleRecord hattrs (y.name r) (y.keyed _) (decodeFields_image hw hchild hfs')
  | function =>
    simp only [Decoded.bind_eq_ok, Decoded.pure_eq] at h
    obtain ⟨x, hx, z, hz, ⟨⟩⟩ := h
    obtain ⟨w, hw, hx'⟩ := field_image hms hx
    obtain ⟨u, hu, hz'⟩ := field_image hms hz
    exact .function hattrs (hchild w x hw hx') (hchild u z hu hz')
  | unit =>
    cases h
    exact .unit hattrs

theorem typeAt_image (y : Yields classicForm P) {fuel : Nat} {v : Json} {t : V4Type}
    (hv : v.Orderly) (h : typeAt fuel v = .ok t) : t.Satisfies P := by
  induction fuel generalizing v t with
  | zero => cases h
  | succ fuel ih =>
    rw [typeAt, typeNode.eq_def] at h
    split at h
    · exact Classic.decodeType_image y hv h
    · exact typeShorthand_image y h
    · exact taggedType_image y hv (fun w t hw ht => ih hw ht) h

theorem decodeType_image (y : Yields classicForm P) {v : Json} {t : V4Type} (hv : v.Orderly)
    (h : decodeType v = .ok t) : t.Satisfies P :=
  typeAt_image y hv h

theorem optional_type_image (y : Yields classicForm P) {n : Node} {name : String}
    {t : Option V4Type} (hn : (Json.object n.members).Orderly)
    (h : n.optional name none (fun v => return some (← decodeType v)) = .ok t) :
    ∀ t' ∈ t, t'.Satisfies P := by
  refine optional_image (Q := fun t => ∀ t' ∈ t, t'.Satisfies P) hn h (by simp) ?_
  intro v t hv ht
  obtain ⟨t', ht', ⟨⟩⟩ := Decoded.bind_eq_ok.1 ht
  simpa using decodeType_image y hv ht'

theorem writable_of_decodeLiteral {v : Json} {l : Literal} (hv : v.Orderly)
    (h : decodeLiteral v = .ok l) : l.Writable := by
  rw [decodeLiteral.eq_def] at h
  split at h
  · exact Classic.writable_of_decodeLiteral hv h
  · obtain ⟨⟨tag, n⟩, hn, h⟩ := Decoded.bind_eq_ok.1 h
    obtain ⟨w, hw, hl⟩ := field_image (orderly_of_unwrap hv hn) h
    exact Classic.writable_of_decodePayload hw hl

theorem taggedPattern_image (y : Yields classicForm P)
    {child : Json → Decoded (Pattern ValueAttrs)} {v : Json} {p : Pattern ValueAttrs}
    (hv : v.Orderly) (hchild : ∀ w p, w.Orderly → child w = .ok p → p.Satisfies P)
    (h : taggedPattern child v = .ok p) : p.Satisfies P := by
  obtain ⟨⟨tag, n⟩, hn, h⟩ := Decoded.bind_eq_ok.1 h
  have hms := orderly_of_unwrap hv hn
  obtain ⟨a, ha, h⟩ := Decoded.bind_eq_ok.1 h
  have hattrs := optional_valueAttrs_image y hms ha
  cases tag with
  | wildcard =>
    cases h
    exact .wildcard hattrs
  | as =>
    simp only [Decoded.bind_eq_ok, Decoded.pure_eq] at h
    obtain ⟨q, hq, x, -, ⟨⟩⟩ := h
    obtain ⟨w, hw, hq'⟩ := field_image hms hq
    exact .as hattrs (hchild w q hw hq') (y.name x)
  | tuple =>
    obtain ⟨ps, hps, ⟨⟩⟩ := Decoded.bind_eq_ok.1 h
    exact .tuple hattrs (list_field_image hms hps hchild)
  | constructor =>
    simp only [Decoded.bind_eq_ok, Decoded.pure_eq] at h
    obtain ⟨f, -, ps, hps, ⟨⟩⟩ := h
    exact .constructor hattrs (y.qualified f) (list_optional_image hms hps hchild)
  | emptyList =>
    cases h
    exact .emptyList hattrs
  | headTail =>
    simp only [Decoded.bind_eq_ok, Decoded.pure_eq] at h
    obtain ⟨x, hx, z, hz, ⟨⟩⟩ := h
    obtain ⟨w, hw, hx'⟩ := field_image hms hx
    obtain ⟨u, hu, hz'⟩ := field_image hms hz
    exact .headTail hattrs (hchild w x hw hx') (hchild u z hu hz')
  | literal =>
    obtain ⟨l, hl, ⟨⟩⟩ := Decoded.bind_eq_ok.1 h
    obtain ⟨w, hw, hl'⟩ := field_image hms hl
    exact .literal hattrs (y.literal l (writable_of_decodeLiteral hw hl'))
  | unit =>
    cases h
    exact .unit hattrs

theorem patternAt_image (y : Yields classicForm P) {fuel : Nat} {v : Json}
    {p : Pattern ValueAttrs} (hv : v.Orderly) (h : patternAt fuel v = .ok p) : p.Satisfies P := by
  induction fuel generalizing v p with
  | zero => cases h
  | succ fuel ih =>
    rw [patternAt, patternNode.eq_def] at h
    split at h
    · exact Classic.decodePattern_image y hv h
    · exact taggedPattern_image y hv (fun w p hw hp => ih hw hp) h

theorem decodePattern_image (y : Yields classicForm P) {v : Json} {p : Pattern ValueAttrs}
    (hv : v.Orderly) (h : decodePattern v = .ok p) : p.Satisfies P :=
  patternAt_image y hv h

theorem decodeInput_image (y : Yields classicForm P) {key : String} {v : Json}
    {i : Input TypeAttrs ValueAttrs} (hv : v.Orderly) (h : decodeInput key v = .ok i) :
    i.Satisfies P := by
  obtain ⟨n, hn, hi⟩ := Decoded.bind_eq_ok.1 h
  obtain rfl := record_eq_ok hn
  simp only [Decoded.bind_eq_ok, Decoded.pure_eq] at hi
  obtain ⟨a, ha, t, ht, ⟨⟩⟩ := hi
  obtain ⟨w, hw, ht'⟩ := field_image hv ht
  exact ⟨optional_valueAttrs_image y hv ha, decodeType_image y hw ht'⟩

section Bodies

variable {child : Json → Decoded V4Value}

theorem taggedBody_image (y : Yields classicForm P) {v : Json} {b : V4Body} (hv : v.Orderly)
    (hchild : ∀ w x, w.Orderly → child w = .ok x → x.Satisfies P)
    (h : taggedBody child v = .ok b) : b.Satisfies P := by
  obtain ⟨⟨tag, n⟩, hn, h⟩ := Decoded.bind_eq_ok.1 h
  have hms := orderly_of_unwrap hv hn
  cases tag with
  | expression =>
    obtain ⟨x, hx, ⟨⟩⟩ := Decoded.bind_eq_ok.1 h
    obtain ⟨w, hw, hx'⟩ := field_image hms hx
    exact ValueBody.satisfies_expression.2 (hchild w x hw hx')
  | native =>
    obtain ⟨i, -, ⟨⟩⟩ := Decoded.bind_eq_ok.1 h
    exact ValueBody.satisfies_native i
  | external =>
    simp only [Decoded.bind_eq_ok, Decoded.pure_eq] at h
    obtain ⟨s, -, p, -, ⟨⟩⟩ := h
    exact ValueBody.satisfies_external s p
  | incomplete =>
    obtain ⟨i, -, ⟨⟩⟩ := Decoded.bind_eq_ok.1 h
    exact ValueBody.satisfies_incomplete.2 (y.incompleteness i)

theorem bodyNode_image (y : Yields classicForm P) {v : Json} {b : V4Body} (hv : v.Orderly)
    (hchild : ∀ w x, w.Orderly → child w = .ok x → x.Satisfies P)
    (h : bodyNode child v = .ok b) : b.Satisfies P := by
  rw [bodyNode.eq_def] at h
  split at h
  · exact Classic.bodyNode_image y hv (fun w x hw hx => Classic.valueAt_image y hw hx) h
  · split at h
    · exact taggedBody_image y hv hchild h
    · obtain ⟨x, hx, ⟨⟩⟩ := Decoded.bind_eq_ok.1 h
      exact ValueBody.satisfies_expression.2 (hchild v x hv hx)

theorem definitionNode_image (y : Yields classicForm P) {v : Json} {d : V4Definition}
    (hv : v.Orderly) (hchild : ∀ w x, w.Orderly → child w = .ok x → x.Satisfies P)
    (h : definitionNode child v = .ok d) : d.Satisfies P := by
  obtain ⟨n, hn, hd⟩ := Decoded.bind_eq_ok.1 h
  obtain rfl := record_eq_ok hn
  simp only [Decoded.bind_eq_ok, Decoded.pure_eq] at hd
  obtain ⟨is, his, t, ht, b, hb, ⟨⟩⟩ := hd
  obtain ⟨w, hw, his'⟩ := field_image hv his
  obtain ⟨u, hu, ht'⟩ := field_image hv ht
  obtain ⟨z, hz, hb'⟩ := field_image hv hb
  have hbody := bodyNode_image y hz hchild hb'
  refine ⟨⟨y.keyed _, ?_, decodeType_image y hu ht', hbody.incomplete⟩, hbody.expression⟩
  exact keyed_image his' hw fun k w i hw hi => decodeInput_image y hw hi

theorem namedPair_image {what : String} {decode : Json → Decoded α} {v : Json} {n : Name} {x : α}
    (hv : v.Orderly) (h : namedPair what decode v = .ok (n, x)) :
    ∃ w, w.Orderly ∧ decode w = .ok x := by
  simp only [namedPair, Decoded.bind_eq_ok, Decoded.underIndex_eq_ok, Prod.exists,
    Shape.pair_eq_ok, Decoded.pure_eq] at h
  obtain ⟨a, w, rfl, n', -, x', hx, ⟨⟩⟩ := h
  exact ⟨w, hv.fields, hx⟩

theorem decodeCase_image (y : Yields classicForm P) {v : Json}
    {k : Pattern ValueAttrs × V4Value} (hv : v.Orderly)
    (hchild : ∀ w x, w.Orderly → child w = .ok x → x.Satisfies P)
    (h : decodeCase child v = .ok k) : k.1.Satisfies P ∧ k.2.Satisfies P := by
  simp only [decodeCase, Decoded.bind_eq_ok, Decoded.underIndex_eq_ok, Prod.exists,
    Shape.pair_eq_ok, Decoded.pure_eq] at h
  obtain ⟨p, b, rfl, p', hp, b', hb, ⟨⟩⟩ := h
  exact ⟨decodePattern_image y (Json.all_array.1 hv p (by simp)) hp, hchild b b' hv.fields hb⟩

theorem decodeEntries_image {v : Json} {fs : List (Name × V4Value)} (hv : v.Orderly)
    (hchild : ∀ w x, w.Orderly → child w = .ok x → x.Satisfies P)
    (h : decodeEntries child v = .ok fs) : ∀ f ∈ fs, f.2.Satisfies P := by
  refine keyed_image h hv fun k w f hw hf => ?_
  obtain ⟨x, hx, ⟨⟩⟩ := Decoded.bind_eq_ok.1 hf
  exact hchild w x hw hx

theorem valueShorthand_image (y : Yields classicForm P) {s : String} {x : V4Value}
    (h : valueShorthand s = .ok x) : x.Satisfies P := by
  have ha := valueAttrs_empty y
  rw [valueShorthand] at h
  split at h
  · cases h
    exact .reference ha (y.qualified _)
  · dsimp only at h
    split at h
    · cases h
    · cases h
      exact .variable ha (y.name _)

theorem list_namedPair_image {what : String} {decode : Json → Decoded α} {n : Node} {name : String}
    {xs : List (Name × α)} {Q : α → Prop} (hn : (Json.object n.members).Orderly)
    (h : n.field name (list (namedPair what decode)) = .ok xs)
    (hQ : ∀ v x, v.Orderly → decode v = .ok x → Q x) : ∀ x ∈ xs, Q x.2 :=
  list_field_image hn h fun v x hv hx => by
    obtain ⟨w, hw, hx'⟩ := namedPair_image hv hx
    exact hQ w x.2 hw hx'

theorem taggedValue_image (y : Yields classicForm P) {v : Json} {x : V4Value} (hv : v.Orderly)
    (hchild : ∀ w x, w.Orderly → child w = .ok x → x.Satisfies P)
    (h : taggedValue child v = .ok x) : x.Satisfies P := by
  obtain ⟨⟨tag, n⟩, hn, h⟩ := Decoded.bind_eq_ok.1 h
  -- The attribute is read first in every node, so it is settled before the cases.
  have hms := orderly_of_unwrap hv hn
  obtain ⟨a, ha, h⟩ := Decoded.bind_eq_ok.1 h
  have hattrs := optional_valueAttrs_image y hms ha
  cases tag with
  | literal =>
    obtain ⟨l, hl, ⟨⟩⟩ := Decoded.bind_eq_ok.1 h
    obtain ⟨w, hw, hl'⟩ := field_image hms hl
    exact .literal hattrs (y.literal l (writable_of_decodeLiteral hw hl'))
  | constructor =>
    obtain ⟨f, -, ⟨⟩⟩ := Decoded.bind_eq_ok.1 h
    exact .constructor hattrs (y.qualified f)
  | tuple =>
    obtain ⟨vs, hvs, ⟨⟩⟩ := Decoded.bind_eq_ok.1 h
    exact .tuple hattrs (list_field_image hms hvs hchild)
  | list =>
    obtain ⟨vs, hvs, ⟨⟩⟩ := Decoded.bind_eq_ok.1 h
    exact .list hattrs (list_field_image hms hvs hchild)
  | record =>
    obtain ⟨fs, hfs, ⟨⟩⟩ := Decoded.bind_eq_ok.1 h
    obtain ⟨w, hw, hfs'⟩ := field_image hms hfs
    exact .record hattrs (y.keyed _) (decodeEntries_image hw hchild hfs')
  | «variable» =>
    obtain ⟨n, -, ⟨⟩⟩ := Decoded.bind_eq_ok.1 h
    exact .variable hattrs (y.name n)
  | reference =>
    obtain ⟨f, -, ⟨⟩⟩ := Decoded.bind_eq_ok.1 h
    exact .reference hattrs (y.qualified f)
  | field =>
    simp only [Decoded.bind_eq_ok, Decoded.pure_eq] at h
    obtain ⟨r, hr, z, -, ⟨⟩⟩ := h
    obtain ⟨w, hw, hr'⟩ := field_image hms hr
    exact .field hattrs (hchild w r hw hr') (y.name z)
  | fieldFunction =>
    obtain ⟨n, -, ⟨⟩⟩ := Decoded.bind_eq_ok.1 h
    exact .fieldFunction hattrs (y.name n)
  | apply =>
    simp only [Decoded.bind_eq_ok, Decoded.pure_eq] at h
    obtain ⟨f, hf, z, hz, ⟨⟩⟩ := h
    obtain ⟨w, hw, hf'⟩ := field_image hms hf
    obtain ⟨u, hu, hz'⟩ := field_image hms hz
    exact .apply hattrs (hchild w f hw hf') (hchild u z hu hz')
  | lambda =>
    simp only [Decoded.bind_eq_ok, Decoded.pure_eq] at h
    obtain ⟨p, hp, b, hb, ⟨⟩⟩ := h
    obtain ⟨w, hw, hp'⟩ := field_image hms hp
    obtain ⟨u, hu, hb'⟩ := field_image hms hb
    exact .lambda hattrs (decodePattern_image y hw hp') (hchild u b hu hb')
  | letDefinition =>
    simp only [Decoded.bind_eq_ok, Decoded.pure_eq] at h
    obtain ⟨z, -, d, hd, b, hb, ⟨⟩⟩ := h
    obtain ⟨w, hw, hd'⟩ := field_image hms hd
    obtain ⟨u, hu, hb'⟩ := field_image hms hb
    have hdef := definitionNode_image y hw hchild hd'
    exact .letDefinition hattrs (y.name z) hdef.framed hdef.expression (hchild u b hu hb')
  | letRecursion =>
    simp only [Decoded.bind_eq_ok, Decoded.pure_eq] at h
    obtain ⟨ds, hds, b, hb, ⟨⟩⟩ := h
    obtain ⟨u, hu, hb'⟩ := field_image hms hb
    have hdefs := list_namedPair_image hms hds fun w d hw hd => definitionNode_image y hw hchild hd
    exact .letRecursion hattrs (fun d _ => y.name d.1) (fun d hd => (hdefs d hd).framed)
      (fun d hd => (hdefs d hd).expression) (hchild u b hu hb')
  | destructure =>
    simp only [Decoded.bind_eq_ok, Decoded.pure_eq] at h
    obtain ⟨p, hp, z, hz, b, hb, ⟨⟩⟩ := h
    obtain ⟨w, hw, hp'⟩ := field_image hms hp
    obtain ⟨u, hu, hz'⟩ := field_image hms hz
    obtain ⟨t, ht, hb'⟩ := field_image hms hb
    exact .destructure hattrs (decodePattern_image y hw hp') (hchild u z hu hz') (hchild t b ht hb')
  | ifThenElse =>
    simp only [Decoded.bind_eq_ok, Decoded.pure_eq] at h
    obtain ⟨z, hz, t, ht, e, he, ⟨⟩⟩ := h
    obtain ⟨w, hw, hz'⟩ := field_image hms hz
    obtain ⟨u, hu, ht'⟩ := field_image hms ht
    obtain ⟨r, hr, he'⟩ := field_image hms he
    exact .ifThenElse hattrs (hchild w z hw hz') (hchild u t hu ht') (hchild r e hr he')
  | patternMatch =>
    simp only [Decoded.bind_eq_ok, Decoded.pure_eq] at h
    obtain ⟨z, hz, cs, hcs, ⟨⟩⟩ := h
    obtain ⟨w, hw, hz'⟩ := field_image hms hz
    have hcases := list_field_image hms hcs fun u k hu hk => decodeCase_image y hu hchild hk
    exact .patternMatch hattrs (hchild w z hw hz') (fun k hk => (hcases k hk).1)
      fun k hk => (hcases k hk).2
  | updateRecord =>
    simp only [Decoded.bind_eq_ok, Decoded.pure_eq] at h
    obtain ⟨r, hr, us, hus, ⟨⟩⟩ := h
    obtain ⟨w, hw, hr'⟩ := field_image hms hr
    exact .updateRecord hattrs (hchild w r hw hr') (fun u _ => y.name u.1)
      (list_namedPair_image hms hus hchild)
  | unit =>
    cases h
    exact .unit hattrs
  | hole =>
    simp only [Decoded.bind_eq_ok, Decoded.pure_eq] at h
    obtain ⟨r, -, t, ht, ⟨⟩⟩ := h
    exact .hole hattrs (y.holeReason r) (optional_type_image y hms ht)
  | native =>
    simp only [Decoded.bind_eq_ok, Decoded.pure_eq] at h
    obtain ⟨f, -, i, -, ⟨⟩⟩ := h
    exact .native hattrs (y.qualified f)
  | external =>
    simp only [Decoded.bind_eq_ok, Decoded.pure_eq] at h
    obtain ⟨s, -, p, -, ⟨⟩⟩ := h
    exact .external hattrs

end Bodies

theorem valueAt_image (y : Yields classicForm P) {fuel : Nat} {v : Json} {x : V4Value}
    (hv : v.Orderly) (h : valueAt fuel v = .ok x) : x.Satisfies P := by
  induction fuel generalizing v x with
  | zero => cases h
  | succ fuel ih =>
    rw [valueAt, valueNode.eq_def] at h
    split at h
    · exact Classic.valueAt_image y hv h
    · exact valueShorthand_image y h
    · exact taggedValue_image y hv (fun w x hw hx => ih hw hx) h

theorem decodeDefinition_image (y : Yields classicForm P) {v : Json} {d : V4Definition}
    (hv : v.Orderly) (h : decodeDefinition v = .ok d) : d.Satisfies P :=
  definitionNode_image y hv (fun _ _ hw hx => valueAt_image y hw hx) h

end V4

end IrDialects
