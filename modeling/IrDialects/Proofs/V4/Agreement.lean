import IrDialects.Proofs.V4.Document

/-!
# Readers that agree on two forms

Two forms of one node are read with one outcome, be it a result or an issue, if their fields are. The
forms can be nested to different depths, so readers are compared that have different amounts of fuel
left: `Agree b b'` is about values that are nested less than `b` and `b'` levels deep, and `Alike` is
about nodes with such members.
-/

namespace IrDialects

theorem Decoded.bind_eq_bind {α β : Type} {x x' : Decoded α} {f f' : α → Decoded β} (hx : x = x')
    (hf : ∀ a, f a = f' a) : (x >>= f) = (x' >>= f') := by
  rw [hx, funext hf]

namespace V4

variable {α β : Type} {b b' : Nat}

section Agreement

/-- Two readers have the same outcome on two values that are not nested too deeply for them. -/
def Agree (b b' : Nat) (read read' : Json → Decoded α) (v v' : Json) : Prop :=
  v.depth < b → v'.depth < b' → read v = read' v'

theorem Agree.of_eq {read read' : Json → Decoded α} {v v' : Json} (h : read v = read' v') :
    Agree b b' read read' v v' :=
  fun _ _ => h

/-- Two nodes under one label, with members that are not nested too deeply. -/
structure Alike (b b' : Nat) (n n' : Node) : Prop where
  label : n.label = n'.label
  hasTag : n.hasTag = n'.hasTag
  depth : ∀ m ∈ n.members, m.2.depth < b
  depth' : ∀ m ∈ n'.members, m.2.depth < b'

variable {read read' : Json → Decoded α}

theorem Alike.located {n n' : Node} (h : Alike b b' n n') (key : String) (r : Decoded α) :
    n.located key r = n'.located key r := by
  rw [Node.located, Node.located, h.label, h.hasTag]

/-- A field that both nodes have. -/
theorem Alike.field {n n' : Node} {name : String} {v v' : Json} (h : Alike b b' n n')
    (hv : Json.get? n.members name = some v) (hv' : Json.get? n'.members name = some v')
    (hread : Agree b b' read read' v v') : n.field name read = n'.field name read' := by
  have hd := h.depth _ (Json.mem_of_get? hv)
  have hd' := h.depth' _ (Json.mem_of_get? hv')
  rw [Node.field, Node.field, FieldName.find?_of_get? hv, FieldName.find?_of_get? hv']
  dsimp only
  rw [hread hd hd', h.located]

/-- A field that is the same in both nodes. -/
theorem Alike.same {n n' : Node} {name : String} (h : Alike b b' n n') (v : Json)
    (hv : Json.get? n.members name = some v) (hv' : Json.get? n'.members name = some v) :
    n.field name read = n'.field name read :=
  h.field hv hv' (.of_eq rfl)

/-- A field that both nodes have although it is optional. -/
theorem Alike.optional {n n' : Node} {name : String} {default : α} {v v' : Json}
    (h : Alike b b' n n') (hv : Json.get? n.members name = some v)
    (hv' : Json.get? n'.members name = some v') (hnull : v ≠ .null) (hnull' : v' ≠ .null)
    (hread : Agree b b' read read' v v') :
    n.optional name default read = n'.optional name default read' := by
  have hfield {n : Node} {v : Json} {read : Json → Decoded α} (hnull : v ≠ .null)
      (hv : Json.get? n.members name = some v) :
      n.optional name default read = n.field name read := by
    rw [Node.optional, Node.field, FieldName.find?_of_get? hv]
    cases v <;> first | rfl | exact absurd rfl hnull
  rw [hfield hnull hv, hfield hnull' hv', h.field hv hv' hread]

/-- A member that is left out where it is empty. -/
theorem Alike.member {n n' : Node} {m m' : Mode} {name : String} {default : α} {v v' : Json}
    {empty : Bool} (h : Alike b b' n n')
    (hn : Json.get? n.members name = Json.get? (member m name v empty) name)
    (hn' : Json.get? n'.members name = Json.get? (V4.member m' name v' empty) name)
    (hnull : v ≠ .null) (hnull' : v' ≠ .null) (hread : Agree b b' read read' v v')
    (hempty : empty → read v = .ok default ∧ read' v' = .ok default)
    (hc : ∀ key ∈ FieldName.camel? name, key = name ∨
      Json.get? n.members key = none ∧ Json.get? n'.members key = none) :
    n.optional name default read = n'.optional name default read' := by
  cases hem : empty with
  | true =>
    obtain ⟨hdefault, hdefault'⟩ := hempty hem
    rw [optional_member hn hnull hdefault (fun _ => rfl) fun key hk => (hc key hk).imp_right And.left,
      optional_member hn' hnull' hdefault' (fun _ => rfl) fun key hk =>
        (hc key hk).imp_right And.right]
  | false =>
    rw [hem, get?_member, Bool.false_and, if_pos ⟨rfl, rfl⟩] at hn hn'
    exact h.optional hn hn' hnull hnull' hread

theorem Alike.typeAttrs {n n' : Node} (h : Alike b b' n n') (m m' : Mode) (a : TypeAttrs)
    (hn : Json.get? n.members "attrs" = Json.get? (typeAttrMember m a) "attrs")
    (hn' : Json.get? n'.members "attrs" = Json.get? (typeAttrMember m' a) "attrs") :
    n.optional "attrs" {} decodeTypeAttrs = n'.optional "attrs" {} decodeTypeAttrs := by
  have hnull : encodeTypeAttrs a ≠ .null := by simp [encodeTypeAttrs, attrObject]
  refine h.member hn hn' hnull hnull (.of_eq rfl) (fun he => ?_) (by simp [camel?_attrs])
  rw [TypeAttrs.eq_of_isEmpty he]
  exact ⟨rfl, rfl⟩

/-- The attribute of a value under any name. -/
theorem Alike.valueAttrsAt {n n' : Node} {name : String} (h : Alike b b' n n') (m m' : Mode)
    (a : ValueAttrs)
    (hn : Json.get? n.members name =
      Json.get? (V4.member m name (encodeValueAttrs a) a.isEmpty) name)
    (hn' : Json.get? n'.members name =
      Json.get? (V4.member m' name (encodeValueAttrs a) a.isEmpty) name)
    (hc : ∀ key ∈ FieldName.camel? name, key = name ∨
      Json.get? n.members key = none ∧ Json.get? n'.members key = none) :
    n.optional name {} decodeValueAttrs = n'.optional name {} decodeValueAttrs := by
  have hnull : encodeValueAttrs a ≠ .null := by simp [encodeValueAttrs, attrObject]
  refine h.member hn hn' hnull hnull (.of_eq rfl) (fun he => ?_) hc
  rw [ValueAttrs.eq_of_isEmpty he]
  exact ⟨rfl, rfl⟩

theorem Alike.valueAttrs {n n' : Node} (h : Alike b b' n n') (m m' : Mode) (a : ValueAttrs)
    (hn : Json.get? n.members "attrs" = Json.get? (valueAttrMember m a) "attrs")
    (hn' : Json.get? n'.members "attrs" = Json.get? (valueAttrMember m' a) "attrs") :
    n.optional "attrs" {} decodeValueAttrs = n'.optional "attrs" {} decodeValueAttrs :=
  h.valueAttrsAt m m' a hn hn' (by simp [camel?_attrs])

/-- Arguments, which may be left out if there are none. -/
theorem Alike.args {n n' : Node} {encode encode' : β → Json} {xs : List β} (h : Alike b b' n n')
    (m m' : Mode) (hread : Agree b b' (list read) (list read') (.array (xs.map encode))
      (.array (xs.map encode')))
    (hn : Json.get? n.members "args" =
      Json.get? (V4.member m "args" (.array (xs.map encode)) xs.isEmpty) "args")
    (hn' : Json.get? n'.members "args" =
      Json.get? (V4.member m' "args" (.array (xs.map encode')) xs.isEmpty) "args") :
    n.optional "args" [] (list read) = n'.optional "args" [] (list read') := by
  refine h.member hn hn' (by simp) (by simp) hread (fun he => ?_) (by simp [camel?_args])
  rw [List.isEmpty_iff.1 he]
  exact ⟨rfl, rfl⟩

/-- The documentation, which may be left out. -/
theorem docField_eq_docField {n n' : Node} (m m' : Mode) (doc : String)
    (hn : Json.get? n.members "doc" = Json.get? (docMember m doc) "doc")
    (hn' : Json.get? n'.members "doc" = Json.get? (docMember m' doc) "doc") :
    docField n = docField n' := by
  rw [docField, docField, docField_docMember hn, docField_docMember hn']

theorem list_congr {encode encode' : β → Json} {xs : List β}
    (h : ∀ x ∈ xs, read (encode x) = read' (encode' x)) :
    list read (.array (xs.map encode)) = list read' (.array (xs.map encode')) := by
  have heach (i : Nat) :
      Shape.each read i (xs.map encode) = Shape.each read' i (xs.map encode') := by
    induction xs generalizing i with
    | nil => rfl
    | cons x xs ih =>
      rw [List.map_cons, List.map_cons, Shape.each, Shape.each, h x (by simp),
        ih (fun y hy => h y (by simp [hy])) (i + 1)]
  exact heach 0

theorem keyed_congr {read read' : String → Json → Decoded α} {key : β → String}
    {encode encode' : β → Json} {xs : List β}
    (h : ∀ x ∈ xs, read (key x) (encode x) = read' (key x) (encode' x)) :
    keyed read (.object (xs.map fun x => (key x, encode x))) =
      keyed read' (.object (xs.map fun x => (key x, encode' x))) := by
  have heach : eachMember read (xs.map fun x => (key x, encode x)) =
      eachMember read' (xs.map fun x => (key x, encode' x)) := by
    induction xs with
    | nil => rfl
    | cons x xs ih =>
      rw [List.map_cons, List.map_cons, eachMember, eachMember, h x (by simp),
        ih fun y hy => h y (by simp [hy])]
  exact heach

/-- Readers that agree on the items of two arrays agree on the arrays. -/
theorem agree_list {encode encode' : β → Json} {xs : List β}
    (h : ∀ x ∈ xs, Agree b b' read read' (encode x) (encode' x)) :
    Agree b b' (list read) (list read') (.array (xs.map encode)) (.array (xs.map encode')) := by
  intro hd hd'
  refine list_congr fun x hx => ?_
  have hlt := Json.depth_lt_of_mem_array (List.mem_map_of_mem (f := encode) hx)
  have hlt' := Json.depth_lt_of_mem_array (List.mem_map_of_mem (f := encode') hx)
  exact h x hx (hlt.trans hd) (hlt'.trans hd')

/-- Readers that agree on the members of two objects agree on the objects. -/
theorem agree_keyed {read read' : String → Json → Decoded α} {key : β → String}
    {encode encode' : β → Json} {xs : List β}
    (h : ∀ x ∈ xs, Agree b b' (read (key x)) (read' (key x)) (encode x) (encode' x)) :
    Agree b b' (keyed read) (keyed read') (.object (xs.map fun x => (key x, encode x)))
      (.object (xs.map fun x => (key x, encode' x))) := by
  intro hd hd'
  refine keyed_congr fun x hx => ?_
  have hlt := Json.depth_lt_of_mem_object
    (List.mem_map_of_mem (f := fun x => (key x, encode x)) hx)
  have hlt' := Json.depth_lt_of_mem_object
    (List.mem_map_of_mem (f := fun x => (key x, encode' x)) hx)
  exact h x hx (hlt.trans hd) (hlt'.trans hd')

/-- Entries keyed by name, which are always written. -/
theorem Alike.keyed {read : String → Json → Decoded α} {n n' : Node} {name : String}
    (h : Alike b b' n n') (key : β → String) (encode : Mode → β → Json) (m m' : Mode) (xs : List β)
    (hn : Json.get? n.members name = some (.object (xs.map fun x => (key x, encode m x))))
    (hn' : Json.get? n'.members name = some (.object (xs.map fun x => (key x, encode m' x))))
    (hread : ∀ x, read (key x) (encode m x) = read (key x) (encode m' x)) :
    n.optional name [] (V4.keyed read) = n'.optional name [] (V4.keyed read) :=
  h.optional hn hn' (by simp) (by simp) (.of_eq (keyed_congr fun x _ => hread x))

/-- Two tagged nodes with one tag. -/
theorem agree_wrapped {table : TagTable α} {name : α → String} {s : String} {tag : α}
    {ms ms' : Members} {f f' : α × Node → Decoded β} (ht : table.find? s = some tag)
    (hd : (wrapped s ms).depth < b + 1) (hd' : (wrapped s ms').depth < b' + 1)
    (h : Alike b b' ⟨name tag, ms, true⟩ ⟨name tag, ms', true⟩ →
      f (tag, ⟨name tag, ms, true⟩) = f' (tag, ⟨name tag, ms', true⟩)) :
    (unwrap table name (wrapped s ms) >>= f) = (unwrap table name (wrapped s ms') >>= f') := by
  rw [unwrap_wrapped ht, unwrap_wrapped ht, Decoded.ok_bind, Decoded.ok_bind]
  exact h ⟨rfl, rfl, fun m hm => Nat.lt_of_succ_lt (depth_lt_of_wrapped hd hm),
    fun m hm => Nat.lt_of_succ_lt (depth_lt_of_wrapped hd' hm)⟩

/-- Two plain objects. -/
theorem agree_record {what : String} {ms ms' : Members} {f f' : Node → Decoded β}
    (hd : (Json.object ms).depth < b + 1) (hd' : (Json.object ms').depth < b' + 1)
    (h : Alike b b' ⟨what, ms, false⟩ ⟨what, ms', false⟩ →
      f ⟨what, ms, false⟩ = f' ⟨what, ms', false⟩) :
    (record what (.object ms) >>= f) = (record what (.object ms') >>= f') := by
  have hdepth {ms : Members} {b : Nat} (hd : (Json.object ms).depth < b + 1) :
      ∀ m ∈ ms, m.2.depth < b := by
    intro m hm
    have hlt := Json.depth_lt_of_mem_object hm
    omega
  exact h ⟨rfl, rfl, hdepth hd, hdepth hd'⟩

/-- Readers that go down one level with each unit of fuel agree on two forms of a tree, if one level
of them does wherever the readers of the next one do. -/
theorem agree_at {reader : Nat → Json → Decoded α} {node : (Json → Decoded α) → Json → Decoded α}
    {encode encode' : β → Json} (hsucc : ∀ fuel, reader (fuel + 1) = node (reader fuel))
    (hnode : ∀ {b b' : Nat} {child child' : Json → Decoded α},
      (∀ x, Agree b b' child child' (encode x) (encode' x)) →
        ∀ x, Agree (b + 1) (b' + 1) (node child) (node child') (encode x) (encode' x))
    (fuel fuel' : Nat) (x : β) :
    Agree fuel fuel' (reader fuel) (reader fuel') (encode x) (encode' x) := by
  induction fuel generalizing fuel' x with
  | zero => exact fun hd => absurd hd (Nat.not_lt_zero _)
  | succ fuel ih =>
    cases fuel' with
    | zero => exact fun _ hd' => absurd hd' (Nat.not_lt_zero _)
    | succ fuel' =>
      rw [hsucc, hsucc]
      exact hnode (ih fuel') x

end Agreement

end V4

end IrDialects
