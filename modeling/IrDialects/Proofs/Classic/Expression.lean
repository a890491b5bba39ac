import IrDialects.Proofs.Classic.Parts
import IrDialects.Proofs.Tree.Replacement

/-!
# Types, patterns and values in the Classic form

Reading the Classic form of a type, a pattern or a value gives it back, for any codec of attributes
that reads back the attributes that occur. If another codec wrote the attributes, they are read as
something else, and the rest of the tree is the same. The decoders go one level down with each unit of
fuel, and the depth of the written form is fuel enough.
-/

namespace IrDialects.Classic

variable {τ ν σ μ : Type}

/-- The conditions make every attribute one that is read back and every literal one that can be
written. -/
structure Readable (c : Codec τ ν) (P : Conditions τ ν) : Prop where
  typeAttrs : ∀ a, P.typeAttrs a → c.typeAttrs.decode (c.typeAttrs.encode a) = .ok a
  valueAttrs : ∀ a, P.valueAttrs a → c.valueAttrs.decode (c.valueAttrs.encode a) = .ok a
  literal : ∀ l, P.literal l → l.Writable

/-- What `e` writes for an attribute that meets the conditions is read by `c` as the image of the
attribute, and every literal can be written. -/
structure Translates (e : Codec σ μ) (c : Codec τ ν) (φ : σ → τ) (ψ : μ → ν) (P : Conditions σ μ) :
    Prop where
  typeAttrs : ∀ a, P.typeAttrs a → c.typeAttrs.decode (e.typeAttrs.encode a) = .ok (φ a)
  valueAttrs : ∀ a, P.valueAttrs a → c.valueAttrs.decode (e.valueAttrs.encode a) = .ok (ψ a)
  literal : ∀ l, P.literal l → l.Writable

theorem Readable.translates {c : Codec τ ν} {P : Conditions τ ν} (h : Readable c P) :
    Translates c c id id P :=
  ⟨h.typeAttrs, h.valueAttrs, h.literal⟩

@[simp] theorem encodeTypes_eq_map (c : AttrCodec τ) (ts : List (TypeExpr τ)) :
    encodeTypes c ts = ts.map (encodeType c) := by
  induction ts with
  | nil => rfl
  | cons t ts ih => rw [encodeTypes, ih, List.map_cons]

@[simp] theorem encodeFields_eq_map (c : AttrCodec τ) (fs : TypeFields τ) :
    encodeFields c fs = fs.map fun f => .array [encodeName f.1, encodeType c f.2] := by
  induction fs with
  | nil => rfl
  | cons f fs ih => rw [encodeFields, ih, List.map_cons]

@[simp] theorem encodePatterns_eq_map (c : AttrCodec ν) (ps : List (Pattern ν)) :
    encodePatterns c ps = ps.map (encodePattern c) := by
  induction ps with
  | nil => rfl
  | cons p ps ih => rw [encodePatterns, ih, List.map_cons]

/-- The items of an array are nested less deeply than the array. -/
theorem forall_depth_lt {vs : List Json} {fuel : Nat} (h : (Json.array vs).depth < fuel + 1) :
    vs.Forall (·.depth < fuel) :=
  List.forall_iff_forall_mem.2 fun _ hv =>
    Nat.lt_of_lt_of_le (Json.depth_lt_of_mem_array hv) (Nat.le_of_lt_succ h)

theorem depth_lt_of_map {α : Type} {f : α → Json} {xs : List α} {fuel : Nat}
    (h : (Json.array (xs.map f)).depth < fuel) : ∀ x ∈ xs, (f x).depth < fuel :=
  fun _ hx => (Json.depth_lt_of_mem_array (List.mem_map_of_mem hx)).trans h

theorem depth_lt_of_pair {v w : Json} {fuel : Nat} (h : (Json.array [v, w]).depth < fuel) :
    v.depth < fuel ∧ w.depth < fuel :=
  ⟨(Json.depth_lt_of_mem_array (by simp)).trans h, (Json.depth_lt_of_mem_array (by simp)).trans h⟩

theorem exists_fuel {n fuel : Nat} (h : n < fuel) : ∃ k, fuel = k + 1 := ⟨fuel - 1, by omega⟩

section Translation

variable {e : Codec σ μ} {c : Codec τ ν} {φ : σ → τ} {ψ : μ → ν} {P : Conditions σ μ}

theorem decodeField_pair {child : Json → Decoded (TypeExpr τ)} {n : Name} {t : TypeExpr τ} {v : Json}
    (h : child v = .ok t) : decodeField child (.array [encodeName n, v]) = .ok (n, t) := by
  simp [decodeField, Shape.pair, Shape.array, h]

/-- The fields of a record type, written as pairs, are read one by one. -/
theorem list_decodeField_map (d : AttrCodec σ) (what : String) {child : Json → Decoded (TypeExpr τ)}
    {k : TypeExpr σ → TypeExpr τ} {fs : TypeFields σ}
    (h : ∀ f ∈ fs, child (encodeType d f.2) = .ok (k f.2)) :
    Shape.list what (decodeField child)
      (.array (fs.map fun f => .array [encodeName f.1, encodeType d f.2])) =
        .ok (fs.map fun f => (f.1, k f.2)) :=
  Shape.list_map_map what fun f hf => decodeField_pair (h f hf)

theorem Translates.typeAt (h : Translates e c φ ψ P) {t : TypeExpr σ} (ht : t.Satisfies P)
    (fuel : Nat) (hf : (encodeType e.typeAttrs t).depth < fuel) :
    typeAt c.typeAttrs fuel (encodeType e.typeAttrs t) = .ok (t.mapAttrs φ) := by
  induction ht generalizing fuel with
  | @«variable» a n ha =>
    obtain ⟨fuel, rfl⟩ := exists_fuel hf
    refine Decoded.bind_eq_ok.2 ⟨_, Shape.tagged_ok (TypeTag.find?_name .variable) _, ?_⟩
    simp [TypeExpr.mapAttrs, Shape.two, h.typeAttrs a ha]
  | @reference a f ts ha hq hts ih =>
    obtain ⟨fuel, rfl⟩ := exists_fuel hf
    refine Decoded.bind_eq_ok.2 ⟨_, Shape.tagged_ok (TypeTag.find?_name .reference) _, ?_⟩
    rw [encodeType, encodeTypes_eq_map] at hf
    obtain ⟨-, -, -, hd⟩ := forall_depth_lt hf
    have hts' := Shape.list_map_map "type arguments" fun t ht =>
      ih t ht fuel (depth_lt_of_map hd t ht)
    simp [TypeExpr.mapAttrs, Shape.three, h.typeAttrs a ha, hts']
  | @tuple a ts ha hts ih =>
    obtain ⟨fuel, rfl⟩ := exists_fuel hf
    refine Decoded.bind_eq_ok.2 ⟨_, Shape.tagged_ok (TypeTag.find?_name .tuple) _, ?_⟩
    rw [encodeType, encodeTypes_eq_map] at hf
    obtain ⟨-, -, hd⟩ := forall_depth_lt hf
    have hts' := Shape.list_map_map "tuple elements" fun t ht =>
      ih t ht fuel (depth_lt_of_map hd t ht)
    simp [TypeExpr.mapAttrs, Shape.two, h.typeAttrs a ha, hts']
  | @record a fs ha hk hfs ih =>
    obtain ⟨fuel, rfl⟩ := exists_fuel hf
    refine Decoded.bind_eq_ok.2 ⟨_, Shape.tagged_ok (TypeTag.find?_name .record) _, ?_⟩
    rw [encodeType, encodeFields_eq_map] at hf
    obtain ⟨-, -, hd⟩ := forall_depth_lt hf
    have hfs' := list_decodeField_map e.typeAttrs "record fields" fun f hf =>
      ih f hf fuel (depth_lt_of_pair (depth_lt_of_map hd f hf)).2
    simp [TypeExpr.mapAttrs, Shape.two, h.typeAttrs a ha, hfs']
  | @extensibleRecord a n fs ha hn hk hfs ih =>
    obtain ⟨fuel, rfl⟩ := exists_fuel hf
    refine Decoded.bind_eq_ok.2 ⟨_, Shape.tagged_ok (TypeTag.find?_name .extensibleRecord) _, ?_⟩
    rw [encodeType, encodeFields_eq_map] at hf
    obtain ⟨-, -, -, hd⟩ := forall_depth_lt hf
    have hfs' := list_decodeField_map e.typeAttrs "record fields" fun f hf =>
      ih f hf fuel (depth_lt_of_pair (depth_lt_of_map hd f hf)).2
    simp [TypeExpr.mapAttrs, Shape.three, h.typeAttrs a ha, hfs']
  | @function a x y ha hx hy ihx ihy =>
    obtain ⟨fuel, rfl⟩ := exists_fuel hf
    refine Decoded.bind_eq_ok.2 ⟨_, Shape.tagged_ok (TypeTag.find?_name .function) _, ?_⟩
    rw [encodeType] at hf
    obtain ⟨-, -, hdx, hdy⟩ := forall_depth_lt hf
    simp [TypeExpr.mapAttrs, Shape.three, h.typeAttrs a ha, ihx fuel hdx, ihy fuel hdy]
  | @unit a ha =>
    obtain ⟨fuel, rfl⟩ := exists_fuel hf
    refine Decoded.bind_eq_ok.2 ⟨_, Shape.tagged_ok (TypeTag.find?_name .unit) _, ?_⟩
    simp [TypeExpr.mapAttrs, Shape.one, h.typeAttrs a ha]

theorem Translates.decodeType (h : Translates e c φ ψ P) {t : TypeExpr σ} (ht : t.Satisfies P) :
    decodeType c.typeAttrs (encodeType e.typeAttrs t) = .ok (t.mapAttrs φ) :=
  h.typeAt ht _ (Nat.lt_succ_self _)

/-- No type is written as `null`, which stands for the absence of a type. -/
theorem Translates.decodeOptionalType (h : Translates e c φ ψ P) {t : Option (TypeExpr σ)}
    (ht : ∀ t' ∈ t, t'.Satisfies P) :
    decodeOptionalType c.typeAttrs (encodeOptionalType e.typeAttrs t) =
      .ok (t.map (TypeExpr.mapAttrs φ)) := by
  cases t with
  | none => rfl
  | some t =>
    have hread := h.decodeType (ht t rfl)
    have hnull : encodeType e.typeAttrs t ≠ .null := by cases t <;> simp [encodeType]
    rw [encodeOptionalType, decodeOptionalType.eq_def]
    split
    · contradiction
    · rw [hread]
      rfl

theorem Translates.patternAt (h : Translates e c φ ψ P) {p : Pattern μ} (hp : p.Satisfies P)
    (fuel : Nat) (hf : (encodePattern e.valueAttrs p).depth < fuel) :
    patternAt c.valueAttrs fuel (encodePattern e.valueAttrs p) = .ok (p.mapAttrs ψ) := by
  induction hp generalizing fuel with
  | @wildcard a ha =>
    obtain ⟨fuel, rfl⟩ := exists_fuel hf
    refine Decoded.bind_eq_ok.2 ⟨_, Shape.tagged_ok (PatternTag.find?_name .wildcard) _, ?_⟩
    simp [Pattern.mapAttrs, Shape.one, h.valueAttrs a ha]
  | @as a p n ha hp hn ih =>
    obtain ⟨fuel, rfl⟩ := exists_fuel hf
    refine Decoded.bind_eq_ok.2 ⟨_, Shape.tagged_ok (PatternTag.find?_name .as) _, ?_⟩
    rw [encodePattern] at hf
    obtain ⟨-, -, hd, -⟩ := forall_depth_lt hf
    simp [Pattern.mapAttrs, Shape.three, h.valueAttrs a ha, ih fuel hd]
  | @tuple a ps ha hps ih =>
    obtain ⟨fuel, rfl⟩ := exists_fuel hf
    refine Decoded.bind_eq_ok.2 ⟨_, Shape.tagged_ok (PatternTag.find?_name .tuple) _, ?_⟩
    rw [encodePattern, encodePatterns_eq_map] at hf
    obtain ⟨-, -, hd⟩ := forall_depth_lt hf
    have hps' := Shape.list_map_map "tuple pattern elements" fun p hp =>
      ih p hp fuel (depth_lt_of_map hd p hp)
    simp [Pattern.mapAttrs, Shape.two, h.valueAttrs a ha, hps']
  | @constructor a f ps ha hq hps ih =>
    obtain ⟨fuel, rfl⟩ := exists_fuel hf
    refine Decoded.bind_eq_ok.2 ⟨_, Shape.tagged_ok (PatternTag.find?_name .constructor) _, ?_⟩
    rw [encodePattern, encodePatterns_eq_map] at hf
    obtain ⟨-, -, -, hd⟩ := forall_depth_lt hf
    have hps' := Shape.list_map_map "constructor pattern arguments" fun p hp =>
      ih p hp fuel (depth_lt_of_map hd p hp)
    simp [Pattern.mapAttrs, Shape.three, h.valueAttrs a ha, hps']
  | @emptyList a ha =>
    obtain ⟨fuel, rfl⟩ := exists_fuel hf
    refine Decoded.bind_eq_ok.2 ⟨_, Shape.tagged_ok (PatternTag.find?_name .emptyList) _, ?_⟩
    simp [Pattern.mapAttrs, Shape.one, h.valueAttrs a ha]
  | @headTail a x y ha hx hy ihx ihy =>
    obtain ⟨fuel, rfl⟩ := exists_fuel hf
    refine Decoded.bind_eq_ok.2 ⟨_, Shape.tagged_ok (PatternTag.find?_name .headTail) _, ?_⟩
    rw [encodePattern] at hf
    obtain ⟨-, -, hdx, hdy⟩ := forall_depth_lt hf
    simp [Pattern.mapAttrs, Shape.three, h.valueAttrs a ha, ihx fuel hdx, ihy fuel hdy]
  | @literal a l ha hl =>
    obtain ⟨fuel, rfl⟩ := exists_fuel hf
    refine Decoded.bind_eq_ok.2 ⟨_, Shape.tagged_ok (PatternTag.find?_name .literal) _, ?_⟩
    simp [Pattern.mapAttrs, Shape.two, h.valueAttrs a ha, decodeLiteral_encodeLiteral (h.literal l hl)]
  | @unit a ha =>
    obtain ⟨fuel, rfl⟩ := exists_fuel hf
    refine Decoded.bind_eq_ok.2 ⟨_, Shape.tagged_ok (PatternTag.find?_name .unit) _, ?_⟩
    simp [Pattern.mapAttrs, Shape.one, h.valueAttrs a ha]

theorem Translates.decodePattern (h : Translates e c φ ψ P) {p : Pattern μ} (hp : p.Satisfies P) :
    decodePattern c.valueAttrs (encodePattern e.valueAttrs p) = .ok (p.mapAttrs ψ) :=
  h.patternAt hp _ (Nat.lt_succ_self _)

end Translation

section RoundTrip

variable {c : Codec τ ν} {P : Conditions τ ν}

/-- The fields of a record type, written as pairs, are read back. -/
theorem list_decodeField (d : AttrCodec τ) (what : String) {child : Json → Decoded (TypeExpr τ)}
    {fs : TypeFields τ} (h : ∀ f ∈ fs, child (encodeType d f.2) = .ok f.2) :
    Shape.list what (decodeField child)
      (.array (fs.map fun f => .array [encodeName f.1, encodeType d f.2])) = .ok fs := by
  simpa using list_decodeField_map d what (k := id) h

theorem decodeType_encodeType (h : Readable c P) {t : TypeExpr τ} (ht : t.Satisfies P) :
    decodeType c.typeAttrs (encodeType c.typeAttrs t) = .ok t := by
  simpa using h.translates.decodeType ht

theorem decodeOptionalType_encodeOptionalType (h : Readable c P) {t : Option (TypeExpr τ)}
    (ht : ∀ t' ∈ t, t'.Satisfies P) :
    decodeOptionalType c.typeAttrs (encodeOptionalType c.typeAttrs t) = .ok t := by
  have hid : TypeExpr.mapAttrs (id : τ → τ) = id := funext TypeExpr.mapAttrs_id
  simpa [hid] using h.translates.decodeOptionalType ht

theorem decodePattern_encodePattern (h : Readable c P) {p : Pattern ν} (hp : p.Satisfies P) :
    decodePattern c.valueAttrs (encodePattern c.valueAttrs p) = .ok p := by
  simpa using h.translates.decodePattern hp

end RoundTrip

end IrDialects.Classic
