import IrDialects.Proofs.V4.Agreement

/-!
# Both modes say the same

A tree is read from its compact and from its expanded form with one outcome, be it a tree or an
issue, whatever names and attributes it has. The forms differ in members that stand for a default.
-/

namespace IrDialects.V4

open Classic (depth_lt_of_pair)

variable {α : Type} {b b' : Nat}

section Types

variable {m m' : Mode} {child child' : Json → Decoded V4Type}

/-- Fields with types on which readers agree. -/
theorem agree_fields (hchild : ∀ t, Agree b b' child child' (encodeType m t) (encodeType m' t))
    (fs : TypeFields TypeAttrs) : Agree b b' (decodeFields child) (decodeFields child')
      (.object (encodeFields m fs)) (.object (encodeFields m' fs)) := by
  rw [encodeFields_eq_map, encodeFields_eq_map]
  refine agree_keyed fun f _ hd hd' => ?_
  rw [hchild f.2 hd hd']

theorem agree_typeNode (hchild : ∀ t, Agree b b' child child' (encodeType m t) (encodeType m' t))
    (t : V4Type) :
    Agree (b + 1) (b' + 1) (typeNode child) (typeNode child') (encodeType m t) (encodeType m' t) := by
  intro hd hd'
  cases t with
  | «variable» a n =>
    refine agree_wrapped (TypeTag.find?_name .variable) hd hd' fun h => ?_
    refine Decoded.bind_eq_bind (h.typeAttrs m m' a (by simp) (by simp)) fun _ => ?_
    exact Decoded.bind_eq_bind (h.same (encodeName n) (by simp) (by simp)) fun _ => rfl
  | reference a f ts =>
    have hts := agree_list fun t (_ : t ∈ ts) => hchild t
    refine agree_wrapped (TypeTag.find?_name .reference) hd hd' fun h => ?_
    refine Decoded.bind_eq_bind (h.typeAttrs m m' a ?_ ?_) fun _ => ?_
    · simp [Json.get?_append, get?_member_ne]
    · simp [Json.get?_append, get?_member_ne]
    refine Decoded.bind_eq_bind (h.same (encodeFQName f) (by simp) (by simp)) fun _ => ?_
    refine Decoded.bind_eq_bind (h.args m m' hts ?_ ?_) fun _ => rfl
    · simp [Json.get?_append, typeAttrMember, get?_member_ne]
    · simp [Json.get?_append, typeAttrMember, get?_member_ne]
  | tuple a ts =>
    have hts := agree_list fun t (_ : t ∈ ts) => hchild t
    refine agree_wrapped (TypeTag.find?_name .tuple) hd hd' fun h => ?_
    refine Decoded.bind_eq_bind (h.typeAttrs m m' a (by simp) (by simp)) fun _ => ?_
    exact Decoded.bind_eq_bind (h.field (by simp) (by simp) hts) fun _ => rfl
  | record a fs =>
    refine agree_wrapped (TypeTag.find?_name .record) hd hd' fun h => ?_
    refine Decoded.bind_eq_bind (h.typeAttrs m m' a (by simp) (by simp)) fun _ => ?_
    exact Decoded.bind_eq_bind (h.field (by simp) (by simp) (agree_fields hchild fs)) fun _ => rfl
  | extensibleRecord a n fs =>
    refine agree_wrapped (TypeTag.find?_name .extensibleRecord) hd hd' fun h => ?_
    refine Decoded.bind_eq_bind (h.typeAttrs m m' a (by simp) (by simp)) fun _ => ?_
    refine Decoded.bind_eq_bind (h.same (encodeName n) (by simp) (by simp)) fun _ => ?_
    exact Decoded.bind_eq_bind (h.field (by simp) (by simp) (agree_fields hchild fs)) fun _ => rfl
  | function a x y =>
    refine agree_wrapped (TypeTag.find?_name .function) hd hd' fun h => ?_
    refine Decoded.bind_eq_bind (h.typeAttrs m m' a (by simp) (by simp)) fun _ => ?_
    refine Decoded.bind_eq_bind (h.field (by simp) (by simp) (hchild x)) fun _ => ?_
    exact Decoded.bind_eq_bind (h.field (by simp) (by simp) (hchild y)) fun _ => rfl
  | unit a =>
    refine agree_wrapped (TypeTag.find?_name .unit) hd hd' fun h => ?_
    exact Decoded.bind_eq_bind (h.typeAttrs m m' a rfl rfl) fun _ => rfl

theorem decodeType_modes (m m' : Mode) (t : V4Type) :
    decodeType (encodeType m t) = decodeType (encodeType m' t) :=
  agree_at (fun _ => rfl) agree_typeNode _ _ t (Nat.lt_succ_self _) (Nat.lt_succ_self _)

end Types

section Patterns

variable {m m' : Mode} {child child' : Json → Decoded (Pattern ValueAttrs)}

theorem agree_patternNode
    (hchild : ∀ p, Agree b b' child child' (encodePattern m p) (encodePattern m' p))
    (p : Pattern ValueAttrs) : Agree (b + 1) (b' + 1) (patternNode child) (patternNode child')
      (encodePattern m p) (encodePattern m' p) := by
  intro hd hd'
  cases p with
  | wildcard a =>
    refine agree_wrapped (PatternTag.find?_name .wildcard) hd hd' fun h => ?_
    exact Decoded.bind_eq_bind (h.valueAttrs m m' a rfl rfl) fun _ => rfl
  | as a p n =>
    refine agree_wrapped (PatternTag.find?_name .as) hd hd' fun h => ?_
    refine Decoded.bind_eq_bind (h.valueAttrs m m' a (by simp) (by simp)) fun _ => ?_
    refine Decoded.bind_eq_bind (h.field (by simp) (by simp) (hchild p)) fun _ => ?_
    exact Decoded.bind_eq_bind (h.same (encodeName n) (by simp) (by simp)) fun _ => rfl
  | tuple a ps =>
    have hps := agree_list fun x (_ : x ∈ ps) => hchild x
    refine agree_wrapped (PatternTag.find?_name .tuple) hd hd' fun h => ?_
    refine Decoded.bind_eq_bind (h.valueAttrs m m' a (by simp) (by simp)) fun _ => ?_
    exact Decoded.bind_eq_bind (h.field (by simp) (by simp) hps) fun _ => rfl
  | constructor a f ps =>
    have hps := agree_list fun x (_ : x ∈ ps) => hchild x
    refine agree_wrapped (PatternTag.find?_name .constructor) hd hd' fun h => ?_
    refine Decoded.bind_eq_bind (h.valueAttrs m m' a ?_ ?_) fun _ => ?_
    · simp [Json.get?_append, get?_member_ne]
    · simp [Json.get?_append, get?_member_ne]
    refine Decoded.bind_eq_bind (h.same (encodeFQName f) (by simp) (by simp)) fun _ => ?_
    refine Decoded.bind_eq_bind (h.args m m' hps ?_ ?_) fun _ => rfl
    · simp [Json.get?_append, valueAttrMember, get?_member_ne]
    · simp [Json.get?_append, valueAttrMember, get?_member_ne]
  | emptyList a =>
    refine agree_wrapped (PatternTag.find?_name .emptyList) hd hd' fun h => ?_
    exact Decoded.bind_eq_bind (h.valueAttrs m m' a rfl rfl) fun _ => rfl
  | headTail a x y =>
    refine agree_wrapped (PatternTag.find?_name .headTail) hd hd' fun h => ?_
    refine Decoded.bind_eq_bind (h.valueAttrs m m' a (by simp) (by simp)) fun _ => ?_
    refine Decoded.bind_eq_bind (h.field (by simp) (by simp) (hchild x)) fun _ => ?_
    exact Decoded.bind_eq_bind (h.field (by simp) (by simp) (hchild y)) fun _ => rfl
  | literal a l =>
    refine agree_wrapped (PatternTag.find?_name .literal) hd hd' fun h => ?_
    refine Decoded.bind_eq_bind (h.valueAttrs m m' a (by simp) (by simp)) fun _ => ?_
    exact Decoded.bind_eq_bind (h.same (encodeLiteral l) (by simp) (by simp)) fun _ => rfl
  | unit a =>
    refine agree_wrapped (PatternTag.find?_name .unit) hd hd' fun h => ?_
    exact Decoded.bind_eq_bind (h.valueAttrs m m' a rfl rfl) fun _ => rfl

theorem decodePattern_modes (m m' : Mode) (p : Pattern ValueAttrs) :
    decodePattern (encodePattern m p) = decodePattern (encodePattern m' p) :=
  agree_at (fun _ => rfl) agree_patternNode _ _ p (Nat.lt_succ_self _) (Nat.lt_succ_self _)

end Patterns

section Values

variable {m m' : Mode} {child child' : Json → Decoded V4Value}

theorem decodeNativeInfo_modes (m m' : Mode) (i : NativeInfo) :
    decodeNativeInfo (encodeNativeInfo m i) = decodeNativeInfo (encodeNativeInfo m' i) := by
  rw [decodeNativeInfo_encodeNativeInfo, decodeNativeInfo_encodeNativeInfo]

theorem decodeInput_modes (m m' : Mode) (key : String) (i : Input TypeAttrs ValueAttrs) :
    decodeInput key (encodeInput m i).2 = decodeInput key (encodeInput m' i).2 := by
  refine agree_record (Nat.lt_succ_self _) (Nat.lt_succ_self _) fun h => ?_
  refine Decoded.bind_eq_bind (h.valueAttrsAt m m' i.attrs ?_ ?_ ?_) fun _ => ?_
  · simp [Json.get?_append]
  · simp [Json.get?_append]
  · simp [camel?_typeAttributes, Json.get?_append, get?_member_ne]
  · refine Decoded.bind_eq_bind (h.field ?_ ?_ (.of_eq (decodeType_modes m m' i.type))) fun _ => rfl
    · simp [Json.get?_append, get?_member_ne]
    · simp [Json.get?_append, get?_member_ne]

theorem bodyNode_congr (tag : BodyTag) {ms ms' : Members}
    (h : taggedBody child (wrapped tag.name ms) = taggedBody child' (wrapped tag.name ms')) :
    bodyNode child (wrapped tag.name ms) = bodyNode child' (wrapped tag.name ms') := by
  rw [bodyNode_wrapped, bodyNode_wrapped, h]

theorem agree_bodyNode (hchild : ∀ v, Agree b b' child child' (encodeValue m v) (encodeValue m' v))
    (x : V4Body) :
    Agree b b' (bodyNode child) (bodyNode child') (encodeBody m x) (encodeBody m' x) := by
  intro hd hd'
  have hs := Nat.lt_succ_of_lt hd
  have hs' := Nat.lt_succ_of_lt hd'
  cases x with
  | expression v =>
    refine bodyNode_congr .expression (agree_wrapped (BodyTag.find?_name .expression) hs hs' fun h => ?_)
    exact Decoded.bind_eq_bind (h.field (by simp) (by simp) (hchild v)) fun _ => rfl
  | native i =>
    refine bodyNode_congr .native (agree_wrapped (BodyTag.find?_name .native) hs hs' fun h => ?_)
    have hinfo := decodeNativeInfo_modes m m' i
    exact Decoded.bind_eq_bind (h.field (by simp) (by simp) (.of_eq hinfo)) fun _ => rfl
  | external s p =>
    refine bodyNode_congr .external (agree_wrapped (BodyTag.find?_name .external) hs hs' fun h => ?_)
    refine Decoded.bind_eq_bind (h.same (.string s) (by simp) (by simp)) fun _ => ?_
    exact Decoded.bind_eq_bind (h.same (.string p) (by simp) (by simp)) fun _ => rfl
  | incomplete i =>
    refine bodyNode_congr .incomplete (agree_wrapped (BodyTag.find?_name .incomplete) hs hs' fun h => ?_)
    exact Decoded.bind_eq_bind (h.same (encodeIncompleteness i) (by simp) (by simp)) fun _ => rfl

theorem agree_definitionNode
    (hchild : ∀ v, Agree b b' child child' (encodeValue m v) (encodeValue m' v))
    (d : V4Definition) : Agree b b' (definitionNode child) (definitionNode child')
      (encodeDefinition m d) (encodeDefinition m' d) := by
  intro hd hd'
  obtain ⟨is, t, x⟩ := d
  have hinputs : Agree b b' (keyed decodeInput) (keyed decodeInput)
      (.object (is.map (encodeInput m))) (.object (is.map (encodeInput m'))) :=
    agree_keyed fun i _ => .of_eq (decodeInput_modes m m' i.name.kebab i)
  refine agree_record (Nat.lt_succ_of_lt hd) (Nat.lt_succ_of_lt hd') fun h => ?_
  refine Decoded.bind_eq_bind (h.field (by simp) (by simp) hinputs) fun _ => ?_
  refine Decoded.bind_eq_bind (h.field (by simp) (by simp) (.of_eq (decodeType_modes m m' t)))
    fun _ => ?_
  exact Decoded.bind_eq_bind (h.field (by simp) (by simp) (agree_bodyNode hchild x)) fun _ => rfl

/-- A pair of a name and something on which readers agree. -/
theorem agree_namedPair {read read' : Json → Decoded α} {v v' : Json} (what : String) (n : Name)
    (h : Agree b b' read read' v v') : Agree b b' (namedPair what read) (namedPair what read')
      (.array [encodeName n, v]) (.array [encodeName n, v']) := by
  intro hd hd'
  have hv := h (depth_lt_of_pair hd).2 (depth_lt_of_pair hd').2
  simp only [namedPair, Shape.pair, Shape.array, Decoded.ok_bind, Decoded.pure_eq, hv]

theorem agree_case (k : Pattern ValueAttrs × V4Value)
    (h : Agree b b' child child' (encodeValue m k.2) (encodeValue m' k.2)) :
    Agree b b' (decodeCase child) (decodeCase child')
      (.array [encodePattern m k.1, encodeValue m k.2])
      (.array [encodePattern m' k.1, encodeValue m' k.2]) := by
  intro hd hd'
  have hv := h (depth_lt_of_pair hd).2 (depth_lt_of_pair hd').2
  have hp := decodePattern_modes m m' k.1
  simp only [decodeCase, Shape.pair, Shape.array, Decoded.ok_bind, Decoded.pure_eq, hv, hp]

theorem agree_entries (hchild : ∀ v, Agree b b' child child' (encodeValue m v) (encodeValue m' v))
    (fs : List (Name × V4Value)) : Agree b b' (decodeEntries child) (decodeEntries child')
      (.object (encodeEntries m fs)) (.object (encodeEntries m' fs)) := by
  rw [encodeEntries_eq_map, encodeEntries_eq_map]
  refine agree_keyed fun f _ hd hd' => ?_
  rw [hchild f.2 hd hd']

/-- A type that may be missing. -/
theorem Alike.type {n n' : Node} {name : String} (h : Alike b b' n n') (m m' : Mode)
    (t : Option V4Type) (hc : FieldName.camel? name = some name)
    (hn : Json.get? n.members name = t.map (encodeType m))
    (hn' : Json.get? n'.members name = t.map (encodeType m')) :
    n.optional name none (fun v => return some (← decodeType v)) =
      n'.optional name none (fun v => return some (← decodeType v)) := by
  cases t with
  | none =>
    rw [optional_of_missing hn (by simpa [hc] using hn),
      optional_of_missing hn' (by simpa [hc] using hn')]
  | some t =>
    have hnull (m : Mode) : encodeType m t ≠ .null := by cases t <;> simp [encodeType, wrapped]
    refine h.optional hn hn' (hnull m) (hnull m') (.of_eq ?_)
    exact Decoded.bind_eq_bind (decodeType_modes m m' t) fun _ => rfl

theorem agree_valueNode (hchild : ∀ v, Agree b b' child child' (encodeValue m v) (encodeValue m' v))
    (v : V4Value) : Agree (b + 1) (b' + 1) (valueNode child) (valueNode child')
      (encodeValue m v) (encodeValue m' v) := by
  have hdefinition := agree_definitionNode hchild
  have hpattern (p : Pattern ValueAttrs) :
      Agree b b' decodePattern decodePattern (encodePattern m p) (encodePattern m' p) :=
    .of_eq (decodePattern_modes m m' p)
  -- The two texts have the same tag, and members are missing in one of them only if they are empty.
  intro hd hd'
  cases v with
  | literal a l =>
    refine agree_wrapped (ValueTag.find?_name .literal) hd hd' fun h => ?_
    refine Decoded.bind_eq_bind (h.valueAttrs m m' a (by simp) (by simp)) fun _ => ?_
    exact Decoded.bind_eq_bind (h.same (encodeLiteral l) (by simp) (by simp)) fun _ => rfl
  | constructor a f =>
    refine agree_wrapped (ValueTag.find?_name .constructor) hd hd' fun h => ?_
    refine Decoded.bind_eq_bind (h.valueAttrs m m' a (by simp) (by simp)) fun _ => ?_
    exact Decoded.bind_eq_bind (h.same (encodeFQName f) (by simp) (by simp)) fun _ => rfl
  | tuple a vs =>
    have hvs := agree_list fun x (_ : x ∈ vs) => hchild x
    refine agree_wrapped (ValueTag.find?_name .tuple) hd hd' fun h => ?_
    refine Decoded.bind_eq_bind (h.valueAttrs m m' a (by simp) (by simp)) fun _ => ?_
    exact Decoded.bind_eq_bind (h.field (by simp) (by simp) hvs) fun _ => rfl
  | list a vs =>
    have hvs := agree_list fun x (_ : x ∈ vs) => hchild x
    refine agree_wrapped (ValueTag.find?_name .list) hd hd' fun h => ?_
    refine Decoded.bind_eq_bind (h.valueAttrs m m' a (by simp) (by simp)) fun _ => ?_
    exact Decoded.bind_eq_bind (h.field (by simp) (by simp) hvs) fun _ => rfl
  | record a fs =>
    refine agree_wrapped (ValueTag.find?_name .record) hd hd' fun h => ?_
    refine Decoded.bind_eq_bind (h.valueAttrs m m' a (by simp) (by simp)) fun _ => ?_
    exact Decoded.bind_eq_bind (h.field (by simp) (by simp) (agree_entries hchild fs)) fun _ => rfl
  | «variable» a n =>
    refine agree_wrapped (ValueTag.find?_name .variable) hd hd' fun h => ?_
    refine Decoded.bind_eq_bind (h.valueAttrs m m' a (by simp) (by simp)) fun _ => ?_
    exact Decoded.bind_eq_bind (h.same (encodeName n) (by simp) (by simp)) fun _ => rfl
  | reference a f =>
    refine agree_wrapped (ValueTag.find?_name .reference) hd hd' fun h => ?_
    refine Decoded.bind_eq_bind (h.valueAttrs m m' a (by simp) (by simp)) fun _ => ?_
    exact Decoded.bind_eq_bind (h.same (encodeFQName f) (by simp) (by simp)) fun _ => rfl
  | field a v n =>
    refine agree_wrapped (ValueTag.find?_name .field) hd hd' fun h => ?_
    refine Decoded.bind_eq_bind (h.valueAttrs m m' a (by simp) (by simp)) fun _ => ?_
    refine Decoded.bind_eq_bind (h.field (by simp) (by simp) (hchild v)) fun _ => ?_
    exact Decoded.bind_eq_bind (h.same (encodeName n) (by simp) (by simp)) fun _ => rfl
  | fieldFunction a n =>
    refine agree_wrapped (ValueTag.find?_name .fieldFunction) hd hd' fun h => ?_
    refine Decoded.bind_eq_bind (h.valueAttrs m m' a (by simp) (by simp)) fun _ => ?_
    exact Decoded.bind_eq_bind (h.same (encodeName n) (by simp) (by simp)) fun _ => rfl
  | apply a f x =>
    refine agree_wrapped (ValueTag.find?_name .apply) hd hd' fun h => ?_
    refine Decoded.bind_eq_bind (h.valueAttrs m m' a (by simp) (by simp)) fun _ => ?_
    refine Decoded.bind_eq_bind (h.field (by simp) (by simp) (hchild f)) fun _ => ?_
    exact Decoded.bind_eq_bind (h.field (by simp) (by simp) (hchild x)) fun _ => rfl
  | lambda a p b =>
    refine agree_wrapped (ValueTag.find?_name .lambda) hd hd' fun h => ?_
    refine Decoded.bind_eq_bind (h.valueAttrs m m' a (by simp) (by simp)) fun _ => ?_
    refine Decoded.bind_eq_bind (h.field (by simp) (by simp) (hpattern p)) fun _ => ?_
    exact Decoded.bind_eq_bind (h.field (by simp) (by simp) (hchild b)) fun _ => rfl
  | letDefinition a n d b =>
    refine agree_wrapped (ValueTag.find?_name .letDefinition) hd hd' fun h => ?_
    refine Decoded.bind_eq_bind (h.valueAttrs m m' a (by simp) (by simp)) fun _ => ?_
    refine Decoded.bind_eq_bind (h.same (encodeName n) (by simp) (by simp)) fun _ => ?_
    refine Decoded.bind_eq_bind (h.field (by simp) (by simp) (hdefinition d)) fun _ => ?_
    exact Decoded.bind_eq_bind (h.field (by simp) (by simp) (hchild b)) fun _ => rfl
  | letRecursion a ds b =>
    have hds := agree_list fun d (_ : d ∈ ds) =>
      agree_namedPair "let binding" d.1 (hdefinition d.2)
    refine agree_wrapped (ValueTag.find?_name .letRecursion) hd hd' fun h => ?_
    refine Decoded.bind_eq_bind (h.valueAttrs m m' a (by simp) (by simp)) fun _ => ?_
    refine Decoded.bind_eq_bind (h.field (by simp) (by simp) hds) fun _ => ?_
    exact Decoded.bind_eq_bind (h.field (by simp) (by simp) (hchild b)) fun _ => rfl
  | destructure a p v b =>
    refine agree_wrapped (ValueTag.find?_name .destructure) hd hd' fun h => ?_
    refine Decoded.bind_eq_bind (h.valueAttrs m m' a (by simp) (by simp)) fun _ => ?_
    refine Decoded.bind_eq_bind (h.field (by simp) (by simp) (hpattern p)) fun _ => ?_
    refine Decoded.bind_eq_bind (h.field (by simp) (by simp) (hchild v)) fun _ => ?_
    exact Decoded.bind_eq_bind (h.field (by simp) (by simp) (hchild b)) fun _ => rfl
  | ifThenElse a x t e =>
    refine agree_wrapped (ValueTag.find?_name .ifThenElse) hd hd' fun h => ?_
    refine Decoded.bind_eq_bind (h.valueAttrs m m' a (by simp) (by simp)) fun _ => ?_
    refine Decoded.bind_eq_bind (h.field (by simp) (by simp) (hchild x)) fun _ => ?_
    refine Decoded.bind_eq_bind (h.field (by simp) (by simp) (hchild t)) fun _ => ?_
    exact Decoded.bind_eq_bind (h.field (by simp) (by simp) (hchild e)) fun _ => rfl
  | patternMatch a v cs =>
    have hcs := agree_list fun k (_ : k ∈ cs) => agree_case k (hchild k.2)
    refine agree_wrapped (ValueTag.find?_name .patternMatch) hd hd' fun h => ?_
    refine Decoded.bind_eq_bind (h.valueAttrs m m' a (by simp) (by simp)) fun _ => ?_
    refine Decoded.bind_eq_bind (h.field (by simp) (by simp) (hchild v)) fun _ => ?_
    exact Decoded.bind_eq_bind (h.field (by simp) (by simp) hcs) fun _ => rfl
  | updateRecord a v us =>
    have hus := agree_list fun u (_ : u ∈ us) =>
      agree_namedPair "record entry" u.1 (hchild u.2)
    refine agree_wrapped (ValueTag.find?_name .updateRecord) hd hd' fun h => ?_
    refine Decoded.bind_eq_bind (h.valueAttrs m m' a (by simp) (by simp)) fun _ => ?_
    refine Decoded.bind_eq_bind (h.field (by simp) (by simp) (hchild v)) fun _ => ?_
    exact Decoded.bind_eq_bind (h.field (by simp) (by simp) hus) fun _ => rfl
  | unit a =>
    refine agree_wrapped (ValueTag.find?_name .unit) hd hd' fun h => ?_
    exact Decoded.bind_eq_bind (h.valueAttrs m m' a rfl rfl) fun _ => rfl
  | hole a r t =>
    refine agree_wrapped (ValueTag.find?_name .hole) hd hd' fun h => ?_
    refine Decoded.bind_eq_bind (h.valueAttrs m m' a ?_ ?_) fun _ => ?_
    · cases t <;> simp
    · cases t <;> simp
    refine Decoded.bind_eq_bind (h.same (encodeHoleReason r) (by simp) (by simp)) fun _ => ?_
    refine Decoded.bind_eq_bind (h.type m m' t camel?_tpe ?_ ?_) fun _ => rfl
    · cases t <;> simp [valueAttrMember, get?_member_ne]
    · cases t <;> simp [valueAttrMember, get?_member_ne]
  | native a f i =>
    have hinfo := decodeNativeInfo_modes m m' i
    refine agree_wrapped (ValueTag.find?_name .native) hd hd' fun h => ?_
    refine Decoded.bind_eq_bind (h.valueAttrs m m' a (by simp) (by simp)) fun _ => ?_
    refine Decoded.bind_eq_bind (h.same (encodeFQName f) (by simp) (by simp)) fun _ => ?_
    exact Decoded.bind_eq_bind (h.field (by simp) (by simp) (.of_eq hinfo)) fun _ => rfl
  | external a s p =>
    refine agree_wrapped (ValueTag.find?_name .external) hd hd' fun h => ?_
    refine Decoded.bind_eq_bind (h.valueAttrs m m' a (by simp) (by simp)) fun _ => ?_
    refine Decoded.bind_eq_bind (h.same (.string s) (by simp) (by simp)) fun _ => ?_
    exact Decoded.bind_eq_bind (h.same (.string p) (by simp) (by simp)) fun _ => rfl

theorem agree_valueAt (m m' : Mode) (fuel fuel' : Nat) (v : V4Value) :
    Agree fuel fuel' (valueAt fuel) (valueAt fuel') (encodeValue m v) (encodeValue m' v) :=
  agree_at (fun _ => rfl) agree_valueNode fuel fuel' v

theorem decodeDefinition_modes (m m' : Mode) (d : V4Definition) :
    decodeDefinition (encodeDefinition m d) = decodeDefinition (encodeDefinition m' d) :=
  agree_definitionNode (agree_valueAt m m' _ _) d (Nat.lt_succ_self _) (Nat.lt_succ_self _)

end Values

section Definitions

variable {m m' : Mode}

theorem decodeConstructor_modes (m m' : Mode) (c : Constructor TypeAttrs) :
    decodeConstructor (encodeConstructor m c) = decodeConstructor (encodeConstructor m' c) := by
  refine agree_record (Nat.lt_succ_self _) (Nat.lt_succ_self _) fun h => ?_
  refine Decoded.bind_eq_bind (h.same (encodeName c.name) (by simp) (by simp)) fun _ => ?_
  refine Decoded.bind_eq_bind (h.args m m' (agree_list fun f (_ : f ∈ c.arguments) =>
    agree_namedPair _ f.1 (.of_eq (decodeType_modes m m' f.2))) ?_ ?_) fun _ => rfl
  · simp [encodeArguments]
  · simp [encodeArguments]

/-- An access level around something on which readers agree. -/
theorem agree_access {read read' : Json → Decoded α} {v v' : Json} (a : Access)
    (h : Agree b b' read read' v v') : Agree b b' (accessControlled read) (accessControlled read')
      (Classic.encodeAccess a v) (Classic.encodeAccess a v') := by
  intro hd hd'
  refine agree_record (Nat.lt_succ_of_lt hd) (Nat.lt_succ_of_lt hd') fun hn => ?_
  refine Decoded.bind_eq_bind (hn.same (.string a.name) (by simp) (by simp)) fun _ => ?_
  exact Decoded.bind_eq_bind (hn.field (by simp) (by simp) h) fun _ => rfl

/-- Type parameters are always written. -/
theorem Alike.params {n n' : Node} (h : Alike b b' n n') (ps : List Name)
    (hn : Json.get? n.members "type-params" = some (encodeParams ps))
    (hn' : Json.get? n'.members "type-params" = some (encodeParams ps)) :
    n.optional "type-params" [] (list decodeName) =
      n'.optional "type-params" [] (list decodeName) :=
  h.optional hn hn' (by simp [encodeParams]) (by simp [encodeParams]) (.of_eq rfl)

theorem decodeTypeDefinition_modes (m m' : Mode) (d : TypeDefinition TypeAttrs) :
    decodeTypeDefinition (encodeTypeDefinition m d) =
      decodeTypeDefinition (encodeTypeDefinition m' d) := by
  have hd := Nat.lt_succ_self (encodeTypeDefinition m d).depth
  have hd' := Nat.lt_succ_self (encodeTypeDefinition m' d).depth
  cases d with
  | synonym ps t =>
    refine agree_wrapped (TypeDefinitionTag.find?_name .synonym) hd hd' fun h => ?_
    refine Decoded.bind_eq_bind (h.params ps (by simp) (by simp)) fun _ => ?_
    have ht := decodeType_modes m m' t
    exact Decoded.bind_eq_bind (h.field (by simp) (by simp) (.of_eq ht)) fun _ => rfl
  | custom ps a cs =>
    refine agree_wrapped (TypeDefinitionTag.find?_name .custom) hd hd' fun h => ?_
    refine Decoded.bind_eq_bind (h.params ps (by simp) (by simp)) fun _ => ?_
    have hcs := list_congr fun c (_ : c ∈ cs) => decodeConstructor_modes m m' c
    exact Decoded.bind_eq_bind (h.field (by simp) (by simp) (agree_access a (.of_eq hcs)))
      fun _ => rfl
  | incomplete ps i t =>
    refine agree_wrapped (TypeDefinitionTag.find?_name .incomplete) hd hd' fun h => ?_
    refine Decoded.bind_eq_bind (h.params ps (by simp) (by simp)) fun _ => ?_
    refine Decoded.bind_eq_bind (h.same (encodeIncompleteness i) (by simp) (by simp)) fun _ => ?_
    refine Decoded.bind_eq_bind (h.type m m' t rfl ?_ ?_) fun _ => rfl
    · cases t <;> simp
    · cases t <;> simp

theorem decodeTypeSpecification_modes (m m' : Mode) (s : TypeSpecification TypeAttrs) :
    decodeTypeSpecification (encodeTypeSpecification m s) =
      decodeTypeSpecification (encodeTypeSpecification m' s) := by
  have hd := Nat.lt_succ_self (encodeTypeSpecification m s).depth
  have hd' := Nat.lt_succ_self (encodeTypeSpecification m' s).depth
  cases s with
  | synonym ps t =>
    refine agree_wrapped (TypeSpecificationTag.find?_name .synonym) hd hd' fun h => ?_
    refine Decoded.bind_eq_bind (h.params ps (by simp) (by simp)) fun _ => ?_
    have ht := decodeType_modes m m' t
    exact Decoded.bind_eq_bind (h.field (by simp) (by simp) (.of_eq ht)) fun _ => rfl
  | abstract ps => rfl
  | custom ps cs =>
    refine agree_wrapped (TypeSpecificationTag.find?_name .custom) hd hd' fun h => ?_
    refine Decoded.bind_eq_bind (h.params ps (by simp) (by simp)) fun _ => ?_
    have hcs := list_congr fun c (_ : c ∈ cs) => decodeConstructor_modes m m' c
    exact Decoded.bind_eq_bind (h.field (by simp) (by simp) (.of_eq hcs)) fun _ => rfl

theorem decodeValueSpecification_modes (m m' : Mode) (s : ValueSpecification TypeAttrs) :
    decodeValueSpecification (encodeValueSpecification m s) =
      decodeValueSpecification (encodeValueSpecification m' s) := by
  refine agree_record (Nat.lt_succ_self _) (Nat.lt_succ_self _) fun h => ?_
  refine Decoded.bind_eq_bind (h.field (by simp) (by simp)
    (agree_fields (fun t => .of_eq (decodeType_modes m m' t)) s.inputs)) fun _ => ?_
  have ht := decodeType_modes m m' s.output
  exact Decoded.bind_eq_bind (h.field (by simp) (by simp) (.of_eq ht)) fun _ => rfl

end Definitions

section Modules

variable {m m' : Mode} {read read' : Json → Decoded α} {v v' : Json}

theorem decodeEntry_modes (m m' : Mode) (a : Access) (doc : String)
    (h : read v = read v') :
    decodeEntry read (encodeEntry m a doc v) = decodeEntry read (encodeEntry m' a doc v') := by
  refine agree_record (Nat.lt_succ_self _) (Nat.lt_succ_self _) fun hn => ?_
  refine Decoded.bind_eq_bind (hn.same (.string a.name) (by simp) (by simp)) fun _ => ?_
  refine Decoded.bind_eq_bind (docField_eq_docField m m' doc ?_ ?_) fun _ => ?_
  · simp [Json.get?_append]
  · simp [Json.get?_append]
  refine Decoded.bind_eq_bind (hn.field ?_ ?_ (.of_eq h)) fun _ => rfl
  · simp [Json.get?_append, docMember, get?_member_ne]
  · simp [Json.get?_append, docMember, get?_member_ne]

theorem decodeSpecEntry_modes (m m' : Mode) (doc : String) (h : read v = read v') :
    decodeSpecEntry read (encodeSpecEntry m doc v) =
      decodeSpecEntry read (encodeSpecEntry m' doc v') := by
  refine agree_record (Nat.lt_succ_self _) (Nat.lt_succ_self _) fun hn => ?_
  refine Decoded.bind_eq_bind (docField_eq_docField m m' doc ?_ ?_) fun _ => ?_
  · simp [Json.get?_append]
  · simp [Json.get?_append]
  refine Decoded.bind_eq_bind (hn.field ?_ ?_ (.of_eq h)) fun _ => rfl
  · simp [Json.get?_append, docMember, get?_member_ne]
  · simp [Json.get?_append, docMember, get?_member_ne]

theorem decodeModule_modes (m m' : Mode) (d : ModuleDefinition TypeAttrs ValueAttrs) :
    decodeModule (encodeModule m d) = decodeModule (encodeModule m' d) := by
  refine agree_record (Nat.lt_succ_self _) (Nat.lt_succ_self _) fun h => ?_
  refine Decoded.bind_eq_bind (h.keyed (·.name.kebab)
    (fun m e => encodeEntry m e.access e.doc (encodeTypeDefinition m e.definition)) m m' d.types
    (by simp) (by simp) fun e => ?_) fun _ => ?_
  · have he := decodeTypeDefinition_modes m m' e.definition
    exact Decoded.bind_eq_bind (decodeEntry_modes m m' e.access e.doc he) fun _ => rfl
  refine Decoded.bind_eq_bind (h.keyed (·.name.kebab)
    (fun m e => encodeEntry m e.access e.doc (encodeDefinition m e.definition)) m m' d.values
    (by simp) (by simp) fun e => ?_) fun _ => ?_
  · have he := decodeDefinition_modes m m' e.definition
    exact Decoded.bind_eq_bind (decodeEntry_modes m m' e.access e.doc he) fun _ => rfl
  exact Decoded.bind_eq_bind (docField_eq_docField m m' d.doc (by simp) (by simp)) fun _ => rfl

theorem decodeModuleSpec_modes (m m' : Mode) (s : ModuleSpecification TypeAttrs) :
    decodeModuleSpec (encodeModuleSpec m s) = decodeModuleSpec (encodeModuleSpec m' s) := by
  refine agree_record (Nat.lt_succ_self _) (Nat.lt_succ_self _) fun h => ?_
  refine Decoded.bind_eq_bind (h.keyed (·.name.kebab)
    (fun m e => encodeSpecEntry m e.doc (encodeTypeSpecification m e.specification)) m m' s.types
    (by simp) (by simp) fun e => ?_) fun _ => ?_
  · have he := decodeTypeSpecification_modes m m' e.specification
    exact Decoded.bind_eq_bind (decodeSpecEntry_modes m m' e.doc he) fun _ => rfl
  refine Decoded.bind_eq_bind (h.keyed (·.name.kebab)
    (fun m e => encodeSpecEntry m e.doc (encodeValueSpecification m e.specification)) m m' s.values
    (by simp) (by simp) fun e => ?_) fun _ => ?_
  · have he := decodeValueSpecification_modes m m' e.specification
    exact Decoded.bind_eq_bind (decodeSpecEntry_modes m m' e.doc he) fun _ => rfl
  exact Decoded.bind_eq_bind (docField_eq_docField m m' s.doc (by simp) (by simp)) fun _ => rfl

theorem decodePackage_modes (m m' : Mode) (p : PackageDefinition TypeAttrs ValueAttrs) :
    decodePackage (encodePackage m p) = decodePackage (encodePackage m' p) := by
  refine agree_record (Nat.lt_succ_self _) (Nat.lt_succ_self _) fun h => ?_
  refine Decoded.bind_eq_bind (h.field rfl rfl (agree_keyed fun e _ => ?_)) fun _ => rfl
  have he := decodeModule_modes m m' e.definition
  intro hd hd'
  exact Decoded.bind_eq_bind (agree_access e.access (.of_eq he) hd hd') fun _ => rfl

theorem decodePackageSpec_modes (m m' : Mode) (p : PackageSpecification TypeAttrs) :
    decodePackageSpec (encodePackageSpec m p) = decodePackageSpec (encodePackageSpec m' p) := by
  refine agree_record (Nat.lt_succ_self _) (Nat.lt_succ_self _) fun h => ?_
  refine Decoded.bind_eq_bind (h.field rfl rfl (.of_eq (keyed_congr fun e _ => ?_))) fun _ => rfl
  have he := decodeModuleSpec_modes m m' e.specification
  exact Decoded.bind_eq_bind he fun _ => rfl

end Modules

section Documents

variable {m m' : Mode}

/-- The package name and the dependencies come first in every distribution. -/
theorem Alike.head {n n' : Node} {p : Path} {ds : List (Dependency TypeAttrs)} {ms ms' : Members}
    {f f' : Path → List (Dependency TypeAttrs) → Decoded α} (h : Alike b b' n n')
    (hn : n.members = distributionHead m p ds ++ ms)
    (hn' : n'.members = distributionHead m' p ds ++ ms') (hf : ∀ p ds, f p ds = f' p ds) :
    (do
      let p ← n.field "packageName" decodePath
      let ds ← n.optional "dependencies" [] (V4.keyed decodeDependency)
      f p ds) =
    (do
      let p ← n'.field "packageName" decodePath
      let ds ← n'.optional "dependencies" [] (V4.keyed decodeDependency)
      f' p ds) := by
  refine Decoded.bind_eq_bind (h.same (encodePath p) (by rw [hn]; rfl) (by rw [hn']; rfl)) fun p => ?_
  refine Decoded.bind_eq_bind ?_ (hf p)
  refine h.keyed (·.name.text) (fun m d => encodePackageSpec m d.specification) m m' ds
    (by rw [hn]; rfl) (by rw [hn']; rfl) fun d => ?_
  exact Decoded.bind_eq_bind (decodePackageSpec_modes m m' d.specification) fun _ => rfl

theorem decodeEntryPoint_modes (m m' : Mode) (key : String) (e : EntryPoint) :
    decodeEntryPoint key (encodeEntryPoint m e).2 = decodeEntryPoint key (encodeEntryPoint m' e).2 := by
  refine agree_record (Nat.lt_succ_self _) (Nat.lt_succ_self _) fun h => ?_
  refine Decoded.bind_eq_bind (h.same (encodeFQName e.target) (by simp) (by simp)) fun _ => ?_
  refine Decoded.bind_eq_bind (h.same (.string e.kind.name) (by simp) (by simp)) fun _ => ?_
  exact Decoded.bind_eq_bind (docField_eq_docField m m' e.doc (by simp) (by simp)) fun _ => rfl

theorem decodeDistribution_modes (m m' : Mode) (d : V4Distribution) :
    decodeDistribution (encodeDistribution m d) = decodeDistribution (encodeDistribution m' d) := by
  have hd := Nat.lt_succ_self (encodeDistribution m d).depth
  have hd' := Nat.lt_succ_self (encodeDistribution m' d).depth
  cases d with
  | library p ds d =>
    refine agree_wrapped (DistributionTag.find?_name .library) hd hd' fun h => ?_
    refine h.head rfl rfl fun _ _ => ?_
    have hpackage := decodePackage_modes m m' d
    exact Decoded.bind_eq_bind (h.field rfl rfl (.of_eq hpackage)) fun _ => rfl
  | specs p ds s =>
    refine agree_wrapped (DistributionTag.find?_name .specs) hd hd' fun h => ?_
    refine h.head rfl rfl fun _ _ => ?_
    have hpackage := decodePackageSpec_modes m m' s
    exact Decoded.bind_eq_bind (h.field rfl rfl (.of_eq hpackage)) fun _ => rfl
  | application p ds d es =>
    refine agree_wrapped (DistributionTag.find?_name .application) hd hd' fun h => ?_
    refine h.head rfl rfl fun _ _ => ?_
    have hpackage := decodePackage_modes m m' d
    refine Decoded.bind_eq_bind (h.field rfl rfl (.of_eq hpackage)) fun _ => ?_
    refine Decoded.bind_eq_bind (h.keyed (·.name.kebab) (fun m e => (encodeEntryPoint m e).2) m m' es
      rfl rfl fun e => ?_) fun _ => rfl
    exact decodeEntryPoint_modes m m' e.name.kebab e

/-- The compact and the expanded form of a document are read with one outcome: the same tree, or the
same issue with its kind, its path, its tag and its wording. -/
theorem compact_and_expanded_read_alike (d : V4Document) :
    decodeDocument (encodeDocument .compact d) = decodeDocument (encodeDocument .expanded d) := by
  have hd := decodeDistribution_modes .compact .expanded d.distribution
  simp [decodeDocument, encodeDocument, Shape.object, Shape.member, hd]

end Documents

end IrDialects.V4
