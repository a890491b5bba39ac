import IrDialects.Proofs.Classic.Expression
import IrDialects.Proofs.V4.Parts
import IrDialects.V4.Pattern
import IrDialects.V4.TypeExpr

/-!
# Types and patterns of V4 documents

Types and patterns whose names are canonical are read back from their V4 form, in both modes.
-/

namespace IrDialects.V4

open Classic (exists_fuel)

@[simp] theorem encodeTypes_eq_map (m : Mode) (ts : List V4Type) :
    encodeTypes m ts = ts.map (encodeType m) := by
  induction ts with
  | nil => rfl
  | cons t ts ih => rw [encodeTypes, ih, List.map_cons]

@[simp] theorem encodeFields_eq_map (m : Mode) (fs : TypeFields TypeAttrs) :
    encodeFields m fs = fs.map fun f => (f.1.kebab, encodeType m f.2) := by
  induction fs with
  | nil => rfl
  | cons f fs ih => rw [encodeFields, ih, List.map_cons]

@[simp] theorem encodePatterns_eq_map (m : Mode) (ps : List (Pattern ValueAttrs)) :
    encodePatterns m ps = ps.map (encodePattern m) := by
  induction ps with
  | nil => rfl
  | cons p ps ih => rw [encodePatterns, ih, List.map_cons]

theorem depth_lt_of_array {α : Type} {f : α → Json} {xs : List α} {fuel : Nat}
    (h : (Json.array (xs.map f)).depth + 1 < fuel) : ∀ x ∈ xs, (f x).depth < fuel := by
  intro x hx
  have hlt := Json.depth_lt_of_mem_array (List.mem_map_of_mem (f := f) hx)
  omega

theorem depth_lt_of_object {α : Type} {f : α → String × Json} {xs : List α} {fuel : Nat}
    (h : (Json.object (xs.map f)).depth + 1 < fuel) : ∀ x ∈ xs, (f x).2.depth < fuel := by
  intro x hx
  have hlt := Json.depth_lt_of_mem_object (List.mem_map_of_mem (f := f) hx)
  omega

/-- The fields of a record type, written as members, are read back. -/
theorem decodeFields_encodeFields {m : Mode} {child : Json → Decoded V4Type}
    {fs : TypeFields TypeAttrs} (hk : legible.Keyed (fs.map Prod.fst))
    (h : ∀ f ∈ fs, child (encodeType m f.2) = .ok f.2) :
    decodeFields child (.object (encodeFields m fs)) = .ok fs := by
  rw [encodeFields_eq_map]
  refine keyed_map fun f hf => ?_
  have hn : f.1.Canonical := hk.each f.1 (List.mem_map_of_mem hf)
  simp [h f hf, hn]

/-- Arguments are read back; without arguments there may be no such member. -/
theorem optional_args {α : Type} {n : Node} {m : Mode} {decode : Json → Decoded α}
    {encode : α → Json} {xs : List α} (h : ∀ x ∈ xs, decode (encode x) = .ok x)
    (hn : Json.get? n.members "args" =
      Json.get? (member m "args" (.array (xs.map encode)) xs.isEmpty) "args") :
    n.optional "args" [] (list decode) = .ok xs :=
  optional_member hn (by simp) (list_map h) (by simp) (by simp [camel?_args])

theorem typeAt_encodeType (m : Mode) {t : V4Type} (ht : t.Satisfies legible) (fuel : Nat)
    (hf : (encodeType m t).depth < fuel) : typeAt fuel (encodeType m t) = .ok t := by
  induction ht generalizing fuel with
  | @«variable» a n ha hn =>
    obtain ⟨fuel, rfl⟩ := exists_fuel hf
    have hname := decodeName_encodeName hn
    refine Decoded.bind_eq_ok.2 ⟨_, unwrap_wrapped (TypeTag.find?_name .variable) _, ?_⟩
    refine Decoded.bind_eq_ok.2 ⟨a, optional_typeAttrs ha (m := m) (by simp), ?_⟩
    exact Decoded.bind_eq_ok.2 ⟨n, field_of_get? (by simp) hname, rfl⟩
  | @reference a f ts ha hq hts ih =>
    obtain ⟨fuel, rfl⟩ := exists_fuel hf
    have hname := decodeFQName_encodeFQName hq
    have hts' : ∀ t ∈ ts, typeAt fuel (encodeType m t) = .ok t := by
      intro t ht
      have hd := depth_member (isEmpty_eq_false ht) hf
      rw [encodeTypes_eq_map] at hd
      exact ih t ht fuel (depth_lt_of_array hd t ht)
    refine Decoded.bind_eq_ok.2 ⟨_, unwrap_wrapped (TypeTag.find?_name .reference) _, ?_⟩
    refine Decoded.bind_eq_ok.2 ⟨a, optional_typeAttrs ha (m := m) ?_, ?_⟩
    · simp [Json.get?_append, get?_member_ne]
    refine Decoded.bind_eq_ok.2 ⟨f, field_of_get? (by simp) hname, ?_⟩
    refine Decoded.bind_eq_ok.2 ⟨ts, optional_args hts' (m := m) ?_, rfl⟩
    simp [Json.get?_append, typeAttrMember, get?_member_ne]
  | @tuple a ts ha hts ih =>
    obtain ⟨fuel, rfl⟩ := exists_fuel hf
    have hd := depth_first hf
    rw [encodeTypes_eq_map] at hd
    have hts' := list_map fun t ht => ih t ht fuel (depth_lt_of_array hd t ht)
    refine Decoded.bind_eq_ok.2 ⟨_, unwrap_wrapped (TypeTag.find?_name .tuple) _, ?_⟩
    refine Decoded.bind_eq_ok.2 ⟨a, optional_typeAttrs ha (m := m) (by simp), ?_⟩
    exact Decoded.bind_eq_ok.2 ⟨ts, field_of_get? (by simp) hts', rfl⟩
  | @record a fs ha hk hfs ih =>
    obtain ⟨fuel, rfl⟩ := exists_fuel hf
    have hd := depth_first hf
    rw [encodeFields_eq_map] at hd
    have hfs' := decodeFields_encodeFields hk fun f hf => ih f hf fuel (depth_lt_of_object hd f hf)
    refine Decoded.bind_eq_ok.2 ⟨_, unwrap_wrapped (TypeTag.find?_name .record) _, ?_⟩
    refine Decoded.bind_eq_ok.2 ⟨a, optional_typeAttrs ha (m := m) (by simp), ?_⟩
    exact Decoded.bind_eq_ok.2 ⟨fs, field_of_get? (by simp) hfs', rfl⟩
  | @extensibleRecord a n fs ha hn hk hfs ih =>
    obtain ⟨fuel, rfl⟩ := exists_fuel hf
    have hname := decodeName_encodeName hn
    have hd := depth_second hf
    rw [encodeFields_eq_map] at hd
    have hfs' := decodeFields_encodeFields hk fun f hf => ih f hf fuel (depth_lt_of_object hd f hf)
    refine Decoded.bind_eq_ok.2 ⟨_, unwrap_wrapped (TypeTag.find?_name .extensibleRecord) _, ?_⟩
    refine Decoded.bind_eq_ok.2 ⟨a, optional_typeAttrs ha (m := m) (by simp), ?_⟩
    refine Decoded.bind_eq_ok.2 ⟨n, field_of_get? (by simp) hname, ?_⟩
    exact Decoded.bind_eq_ok.2 ⟨fs, field_of_get? (by simp) hfs', rfl⟩
  | @function a x y ha hx hy ihx ihy =>
    obtain ⟨fuel, rfl⟩ := exists_fuel hf
    have hdx := depth_first hf
    have hdy := depth_second hf
    have hx' := ihx fuel (Nat.lt_of_succ_lt hdx)
    have hy' := ihy fuel (Nat.lt_of_succ_lt hdy)
    refine Decoded.bind_eq_ok.2 ⟨_, unwrap_wrapped (TypeTag.find?_name .function) _, ?_⟩
    refine Decoded.bind_eq_ok.2 ⟨a, optional_typeAttrs ha (m := m) (by simp), ?_⟩
    refine Decoded.bind_eq_ok.2 ⟨x, field_of_get? (by simp) hx', ?_⟩
    exact Decoded.bind_eq_ok.2 ⟨y, field_of_get? (by simp) hy', rfl⟩
  | @unit a ha =>
    obtain ⟨fuel, rfl⟩ := exists_fuel hf
    refine Decoded.bind_eq_ok.2 ⟨_, unwrap_wrapped (TypeTag.find?_name .unit) _, ?_⟩
    exact Decoded.bind_eq_ok.2 ⟨a, optional_typeAttrs ha (m := m) rfl, rfl⟩

theorem decodeType_encodeType (m : Mode) {t : V4Type} (ht : t.Satisfies legible) :
    decodeType (encodeType m t) = .ok t :=
  typeAt_encodeType m ht _ (Nat.lt_succ_self _)

theorem patternAt_encodePattern (m : Mode) {p : Pattern ValueAttrs} (hp : p.Satisfies legible)
    (fuel : Nat) (hf : (encodePattern m p).depth < fuel) :
    patternAt fuel (encodePattern m p) = .ok p := by
  induction hp generalizing fuel with
  | @wildcard a ha =>
    obtain ⟨fuel, rfl⟩ := exists_fuel hf
    refine Decoded.bind_eq_ok.2 ⟨_, unwrap_wrapped (PatternTag.find?_name .wildcard) _, ?_⟩
    exact Decoded.bind_eq_ok.2 ⟨a, optional_valueAttrs ha (m := m) rfl, rfl⟩
  | @as a p n ha hp hn ih =>
    obtain ⟨fuel, rfl⟩ := exists_fuel hf
    have hd := depth_first hf
    have hp' := ih fuel (Nat.lt_of_succ_lt hd)
    have hname := decodeName_encodeName hn
    refine Decoded.bind_eq_ok.2 ⟨_, unwrap_wrapped (PatternTag.find?_name .as) _, ?_⟩
    refine Decoded.bind_eq_ok.2 ⟨a, optional_valueAttrs ha (m := m) (by simp), ?_⟩
    refine Decoded.bind_eq_ok.2 ⟨p, field_of_get? (by simp) hp', ?_⟩
    exact Decoded.bind_eq_ok.2 ⟨n, field_of_get? (by simp) hname, rfl⟩
  | @tuple a ps ha hps ih =>
    obtain ⟨fuel, rfl⟩ := exists_fuel hf
    have hd := depth_first hf
    rw [encodePatterns_eq_map] at hd
    have hps' := list_map fun p hp => ih p hp fuel (depth_lt_of_array hd p hp)
    refine Decoded.bind_eq_ok.2 ⟨_, unwrap_wrapped (PatternTag.find?_name .tuple) _, ?_⟩
    refine Decoded.bind_eq_ok.2 ⟨a, optional_valueAttrs ha (m := m) (by simp), ?_⟩
    exact Decoded.bind_eq_ok.2 ⟨ps, field_of_get? (by simp) hps', rfl⟩
  | @constructor a f ps ha hq hps ih =>
    obtain ⟨fuel, rfl⟩ := exists_fuel hf
    have hname := decodeFQName_encodeFQName hq
    have hps' : ∀ p ∈ ps, patternAt fuel (encodePattern m p) = .ok p := by
      intro p hp
      have hd := depth_member (isEmpty_eq_false hp) hf
      rw [encodePatterns_eq_map] at hd
      exact ih p hp fuel (depth_lt_of_array hd p hp)
    refine Decoded.bind_eq_ok.2 ⟨_, unwrap_wrapped (PatternTag.find?_name .constructor) _, ?_⟩
    refine Decoded.bind_eq_ok.2 ⟨a, optional_valueAttrs ha (m := m) ?_, ?_⟩
    · simp [Json.get?_append, get?_member_ne]
    refine Decoded.bind_eq_ok.2 ⟨f, field_of_get? (by simp) hname, ?_⟩
    refine Decoded.bind_eq_ok.2 ⟨ps, optional_args hps' (m := m) ?_, rfl⟩
    simp [Json.get?_append, valueAttrMember, get?_member_ne]
  | @emptyList a ha =>
    obtain ⟨fuel, rfl⟩ := exists_fuel hf
    refine Decoded.bind_eq_ok.2 ⟨_, unwrap_wrapped (PatternTag.find?_name .emptyList) _, ?_⟩
    exact Decoded.bind_eq_ok.2 ⟨a, optional_valueAttrs ha (m := m) rfl, rfl⟩
  | @headTail a x y ha hx hy ihx ihy =>
    obtain ⟨fuel, rfl⟩ := exists_fuel hf
    have hdx := depth_first hf
    have hdy := depth_second hf
    have hx' := ihx fuel (Nat.lt_of_succ_lt hdx)
    have hy' := ihy fuel (Nat.lt_of_succ_lt hdy)
    refine Decoded.bind_eq_ok.2 ⟨_, unwrap_wrapped (PatternTag.find?_name .headTail) _, ?_⟩
    refine Decoded.bind_eq_ok.2 ⟨a, optional_valueAttrs ha (m := m) (by simp), ?_⟩
    refine Decoded.bind_eq_ok.2 ⟨x, field_of_get? (by simp) hx', ?_⟩
    exact Decoded.bind_eq_ok.2 ⟨y, field_of_get? (by simp) hy', rfl⟩
  | @literal a l ha hl =>
    obtain ⟨fuel, rfl⟩ := exists_fuel hf
    have hl' := decodeLiteral_encodeLiteral hl
    refine Decoded.bind_eq_ok.2 ⟨_, unwrap_wrapped (PatternTag.find?_name .literal) _, ?_⟩
    refine Decoded.bind_eq_ok.2 ⟨a, optional_valueAttrs ha (m := m) (by simp), ?_⟩
    exact Decoded.bind_eq_ok.2 ⟨l, field_of_get? (by simp) hl', rfl⟩
  | @unit a ha =>
    obtain ⟨fuel, rfl⟩ := exists_fuel hf
    refine Decoded.bind_eq_ok.2 ⟨_, unwrap_wrapped (PatternTag.find?_name .unit) _, ?_⟩
    exact Decoded.bind_eq_ok.2 ⟨a, optional_valueAttrs ha (m := m) rfl, rfl⟩

theorem decodePattern_encodePattern (m : Mode) {p : Pattern ValueAttrs}
    (hp : p.Satisfies legible) : decodePattern (encodePattern m p) = .ok p :=
  patternAt_encodePattern m hp _ (Nat.lt_succ_self _)

end IrDialects.V4
