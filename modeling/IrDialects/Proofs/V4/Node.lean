import IrDialects.Proofs.V4.Attributes
import IrDialects.Proofs.Wire.Tag

/-!
# Fields of V4 nodes

A node that was written is unwrapped again, and its fields are found under the keys under which they
were written. An optional member that was left out stands for its default.
-/

namespace IrDialects

namespace Json

theorem get?_append (xs ys : Members) (k : String) :
    get? (xs ++ ys) k = (get? xs k).or (get? ys k) :=
  List.lookup_append

theorem keys_append (xs ys : Members) : keys (xs ++ ys) = keys xs ++ keys ys := List.map_append

end Json

theorem TypeAttrs.eq_of_isEmpty {a : TypeAttrs} (h : a.isEmpty) : a = {} := by
  obtain ⟨source, constraints, extensions⟩ := a
  simpa [TypeAttrs.isEmpty, and_assoc] using h

theorem ValueAttrs.eq_of_isEmpty {a : ValueAttrs} (h : a.isEmpty) : a = {} := by
  obtain ⟨source, inferredType, extensions⟩ := a
  simpa [ValueAttrs.isEmpty, and_assoc] using h

namespace V4

variable {α : Type}

theorem unwrap_wrapped {table : TagTable α} {name : α → String} {s : String} {tag : α}
    (h : table.find? s = some tag) (ms : Members) :
    unwrap table name (wrapped s ms) = .ok (tag, ⟨name tag, ms, true⟩) := by
  simp [unwrap, wrapped, Shape.wrapper, h]

theorem unwrap_eq_ok {table : TagTable α} {name : α → String} {v : Json} {tag : α} {n : Node}
    (h : unwrap table name v = .ok (tag, n)) :
    ∃ s body, v = .object [(s, body)] ∧ (n.members = [] ∨ body = .object n.members) := by
  simp only [unwrap, Decoded.bind_eq_ok, Prod.exists, Decoded.pure_eq] at h
  obtain ⟨t, ms, hw, ⟨⟩⟩ := h
  rw [Shape.wrapper.eq_def] at hw
  split at hw
  · rename_i s body
    split at hw
    · cases hw
    · split at hw
      · cases hw
        exact ⟨s, .null, rfl, .inl rfl⟩
      · cases hw
        exact ⟨s, _, rfl, .inr rfl⟩
      · cases hw
  · cases hw
  · cases hw

@[simp] theorem located_eq_ok {n : Node} {key : String} {r : Decoded α} {x : α} :
    n.located key r = .ok x ↔ r = .ok x := by
  rw [Node.located]
  split <;> simp

theorem field_of_get? {n : Node} {name : String} {decode : Json → Decoded α} {v : Json} {x : α}
    (h : Json.get? n.members name = some v) (hx : decode v = .ok x) :
    n.field name decode = .ok x := by
  rw [Node.field, FieldName.find?_of_get? h]
  exact located_eq_ok.2 hx

theorem field_eq_ok {n : Node} {name : String} {decode : Json → Decoded α} {x : α} :
    n.field name decode = .ok x ↔
      ∃ key v, FieldName.find? n.members name = some (key, v) ∧ decode v = .ok x := by
  rw [Node.field]
  cases FieldName.find? n.members name with
  | none => simp
  | some p =>
    obtain ⟨key, v⟩ := p
    simp [and_assoc]

theorem optional_of_get? {n : Node} {name : String} {default : α} {decode : Json → Decoded α}
    {v : Json} {x : α} (h : Json.get? n.members name = some v) (hv : v ≠ .null)
    (hx : decode v = .ok x) : n.optional name default decode = .ok x := by
  rw [Node.optional, FieldName.find?_of_get? h]
  split
  · contradiction
  · rename_i hn
    cases hn
    exact absurd rfl hv
  · rename_i hn
    cases hn
    exact located_eq_ok.2 hx

theorem optional_eq_ok {n : Node} {name : String} {default : α} {decode : Json → Decoded α} {x : α}
    (h : n.optional name default decode = .ok x) :
    x = default ∨ ∃ key v, FieldName.find? n.members name = some (key, v) ∧ decode v = .ok x := by
  rw [Node.optional] at h
  split at h
  · cases h
    exact .inl rfl
  · cases h
    exact .inl rfl
  · rename_i key v _ hn
    exact .inr ⟨key, v, hn, located_eq_ok.1 h⟩

/-- A field that is missing under both of its spellings has its default. -/
theorem optional_of_missing {n : Node} {name : String} {default : α} {decode : Json → Decoded α}
    (h : Json.get? n.members name = none)
    (hc : ∀ key ∈ FieldName.camel? name, Json.get? n.members key = none) :
    n.optional name default decode = .ok default := by
  rw [Node.optional, FieldName.find?_eq_none h hc]

theorem get?_member (m : Mode) (key : String) (v : Json) (empty : Bool) (k : String) :
    Json.get? (member m key v empty) k =
      if k = key ∧ (empty && !m.isExpanded) = false then some v else none := by
  cases h : empty && !m.isExpanded <;> simp [member, h]

theorem get?_member_ne {m : Mode} {key k : String} (h : k ≠ key) (v : Json) (empty : Bool) :
    Json.get? (member m key v empty) k = none := by
  simp [get?_member, h]

theorem mem_member {m : Mode} {key : String} {v : Json} {empty : Bool} (h : empty = false) :
    (key, v) ∈ member m key v empty := by
  simp [member, h]

/-- A member that may be left out is read back. -/
theorem optional_member {n : Node} {m : Mode} {name : String} {default : α}
    {decode : Json → Decoded α} {v : Json} {empty : Bool} {x : α}
    (h : Json.get? n.members name = Json.get? (member m name v empty) name) (hv : v ≠ .null)
    (hx : decode v = .ok x) (hempty : empty → x = default)
    (hc : ∀ key ∈ FieldName.camel? name, key = name ∨ Json.get? n.members key = none) :
    n.optional name default decode = .ok x := by
  rw [get?_member] at h
  by_cases hw : (empty && !m.isExpanded) = false
  · rw [if_pos ⟨rfl, hw⟩] at h
    exact optional_of_get? h hv hx
  · rw [if_neg fun hp => hw hp.2] at h
    have he : empty := by
      rw [Bool.not_eq_false, Bool.and_eq_true] at hw
      exact hw.1
    rw [hempty he]
    refine optional_of_missing h fun key hkey => ?_
    rcases hc key hkey with rfl | hnone
    · exact h
    · exact hnone

theorem camel?_attrs : FieldName.camel? "attrs" = some "attrs" := rfl

theorem camel?_args : FieldName.camel? "args" = some "args" := rfl

theorem camel?_doc : FieldName.camel? "doc" = some "doc" := rfl

theorem optional_typeAttrs {n : Node} {m : Mode} {a : TypeAttrs} (ha : a.Readable)
    (h : Json.get? n.members "attrs" = Json.get? (typeAttrMember m a) "attrs") :
    n.optional "attrs" {} decodeTypeAttrs = .ok a :=
  optional_member h (by simp [encodeTypeAttrs, attrObject]) (decodeTypeAttrs_encodeTypeAttrs ha)
    TypeAttrs.eq_of_isEmpty (by simp [camel?_attrs])

theorem optional_valueAttrs {n : Node} {m : Mode} {a : ValueAttrs} (ha : a.Readable)
    (h : Json.get? n.members "attrs" = Json.get? (valueAttrMember m a) "attrs") :
    n.optional "attrs" {} decodeValueAttrs = .ok a :=
  optional_member h (by simp [encodeValueAttrs, attrObject]) (decodeValueAttrs_encodeValueAttrs ha)
    ValueAttrs.eq_of_isEmpty (by simp [camel?_attrs])

theorem docField_docMember {n : Node} {m : Mode} {doc : String}
    (h : Json.get? n.members "doc" = Json.get? (docMember m doc) "doc") :
    n.optional "doc" "" string = .ok doc :=
  optional_member h (by simp) rfl (by simp) (by simp [camel?_doc])

theorem list_map {decode : Json → Decoded α} {encode : α → Json} {xs : List α}
    (h : ∀ x ∈ xs, decode (encode x) = .ok x) : list decode (.array (xs.map encode)) = .ok xs :=
  Shape.list_map "list" h

theorem keyed_map {decode : String → Json → Decoded α} {f : α → String × Json} {xs : List α}
    (h : ∀ x ∈ xs, decode (f x).1 (f x).2 = .ok x) : keyed decode (.object (xs.map f)) = .ok xs := by
  rw [keyed, Shape.object, Decoded.ok_bind]
  induction xs with
  | nil => rfl
  | cons x xs ih =>
    rw [List.forall_mem_cons] at h
    simp [eachMember, h.1, ih h.2]

theorem eachMember_eq_ok {decode : String → Json → Decoded α} {ms : Members} {xs : List α} :
    eachMember decode ms = .ok xs ↔ List.Forall₂ (fun m x => decode m.1 m.2 = .ok x) ms xs := by
  induction ms generalizing xs with
  | nil => cases xs <;> simp [eachMember]
  | cons m ms ih =>
    simp only [eachMember, Decoded.bind_eq_ok, Decoded.under_eq_ok, Decoded.pure_eq, ih,
      Except.ok.injEq]
    constructor
    · rintro ⟨x, hx, ys, hys, rfl⟩
      exact .cons hx hys
    · rintro (_ | ⟨hx, hys⟩)
      exact ⟨_, hx, _, hys, rfl⟩

/-- The members of a node are nested two levels below it. -/
theorem depth_lt_of_wrapped {s k : String} {v : Json} {ms : Members} {fuel : Nat}
    (h : (wrapped s ms).depth < fuel + 1) (hm : (k, v) ∈ ms) : v.depth + 1 < fuel := by
  have hv := Json.depth_lt_of_mem_object hm
  have hbody := Json.depth_lt_of_mem_object (m := (s, .object ms)) (List.mem_singleton_self _)
  rw [wrapped] at h
  dsimp only at hv hbody
  omega

theorem depth_first {s k : String} {v : Json} {ms : Members} {fuel : Nat}
    (h : (wrapped s ((k, v) :: ms)).depth < fuel + 1) : v.depth + 1 < fuel :=
  depth_lt_of_wrapped (k := k) h (by simp)

theorem depth_second {s k : String} {v : Json} {p : String × Json} {ms : Members} {fuel : Nat}
    (h : (wrapped s (p :: (k, v) :: ms)).depth < fuel + 1) : v.depth + 1 < fuel :=
  depth_lt_of_wrapped (k := k) h (by simp)

theorem depth_third {s k : String} {v : Json} {p q : String × Json} {ms : Members} {fuel : Nat}
    (h : (wrapped s (p :: q :: (k, v) :: ms)).depth < fuel + 1) : v.depth + 1 < fuel :=
  depth_lt_of_wrapped (k := k) h (by simp)

theorem depth_member {s k l : String} {u v : Json} {m : Mode} {empty : Bool} {ms : Members}
    {fuel : Nat} (he : empty = false)
    (h : (wrapped s ((l, u) :: (member m k v empty ++ ms))).depth < fuel + 1) : v.depth + 1 < fuel :=
  depth_lt_of_wrapped h (List.mem_cons_of_mem _ (List.mem_append_left _ (mem_member he)))

theorem isEmpty_eq_false {xs : List α} {x : α} (h : x ∈ xs) : xs.isEmpty = false :=
  List.isEmpty_eq_false_iff.2 (List.ne_nil_of_mem h)

end V4

end IrDialects
