import IrDialects.Proofs.Classic.Parts
import IrDialects.Proofs.Json.Image

/-!
# Trees read from the Classic form

Whatever is read from the Classic form of a value that a document can have meets every condition that
the attributes read from such values and the literals with a written form meet.
-/

namespace IrDialects

namespace Shape

theorem list_image {α : Type} {what : String} {decode : Json → Decoded α} {v : Json} {xs : List α}
    {Q : α → Prop} (h : list what decode v = .ok xs) (hv : v.Orderly)
    (hQ : ∀ w x, w.Orderly → decode w = .ok x → Q x) : ∀ x ∈ xs, Q x := by
  obtain ⟨vs, rfl, hall⟩ := list_eq_ok.1 h
  exact forall_of_list_eq_ok h (Json.all_array.1 hv) hQ

end Shape

namespace Classic

variable {τ ν α : Type}

/-- What the codec reads meets the conditions on attributes; of the rest of a tree, the conditions ask
at most that literals have a written form. -/
structure Yields (c : Codec τ ν) (P : Conditions τ ν) : Prop where
  typeAttrs : ∀ v a, v.Orderly → c.typeAttrs.decode v = .ok a → P.typeAttrs a
  valueAttrs : ∀ v a, v.Orderly → c.valueAttrs.decode v = .ok a → P.valueAttrs a
  literal : ∀ l : Literal, l.Writable → P.literal l
  name : ∀ n, P.name n
  path : ∀ p, P.path p
  qualified : ∀ f, P.qualified f
  names : ∀ ns, P.names ns
  paths : ∀ ps, P.paths ps

variable {c : Codec τ ν} {P : Conditions τ ν}

theorem Yields.keyed (y : Yields c P) (ns : List Name) : P.Keyed ns :=
  ⟨fun n _ => y.name n, y.names ns⟩

theorem Yields.keyedPaths (y : Yields c P) (ps : List Path) : P.KeyedPaths ps :=
  ⟨fun p _ => y.path p, y.paths ps⟩

theorem Yields.holeReason (y : Yields c P) (r : HoleReason) : r.Satisfies P :=
  fun f _ => y.qualified f

theorem Yields.incompleteness (y : Yields c P) (i : Incompleteness) : i.Satisfies P :=
  fun r _ => y.holeReason r

theorem writable_of_decodePayload {tag : LiteralTag} {v : Json} {l : Literal} (hv : v.Orderly)
    (h : decodePayload tag v = .ok l) : l.Writable := by
  cases tag with
  | bool =>
    obtain ⟨b, -, h⟩ := Decoded.bind_eq_ok.1 h
    cases h
    trivial
  | char =>
    obtain ⟨s, -, h⟩ := Decoded.bind_eq_ok.1 h
    split at h
    · cases h
      trivial
    · cases h
  | string =>
    obtain ⟨s, -, h⟩ := Decoded.bind_eq_ok.1 h
    cases h
    trivial
  | integer =>
    obtain ⟨n, hn, h⟩ := Decoded.bind_eq_ok.1 h
    cases h
    exact Shape.inRange_of_int hn
  | float =>
    obtain ⟨x, hx, h⟩ := Decoded.bind_eq_ok.1 h
    cases h
    obtain ⟨s, rfl, hs⟩ := Shape.float_eq_ok.1 hx
    exact (Json.all_number.1 hv).finite hs
  | decimal =>
    cases v with
    | string s =>
      obtain ⟨hs, rfl⟩ := decodeDecimal_eq_ok.1 h
      exact hs
    | number s =>
      obtain ⟨hs, rfl⟩ := decodeDecimal_eq_ok.1 h
      exact hs
    | null | bool | array | object => cases h

theorem writable_of_decodeLiteral {v : Json} {l : Literal} (hv : v.Orderly)
    (h : decodeLiteral v = .ok l) : l.Writable := by
  simp only [decodeLiteral, Decoded.bind_eq_ok, Shape.slot_eq_ok, Shape.one_eq_ok, Prod.exists,
    Shape.tagged_eq_ok] at h
  obtain ⟨tag, _, ⟨s, rfl, -⟩, p, rfl, h⟩ := h
  have hp : p.Orderly := Json.all_array.1 hv p (by simp)
  exact writable_of_decodePayload hp h

/-- The type of a field, written as a pair or as an object. -/
theorem decodeField_image {child : Json → Decoded (TypeExpr τ)} {v : Json} {n : Name}
    {t : TypeExpr τ} (hv : v.Orderly) (h : decodeField child v = .ok (n, t)) :
    ∃ w, w.Orderly ∧ child w = .ok t := by
  cases v with
  | array items =>
    simp only [decodeField, Decoded.bind_eq_ok, Decoded.underIndex_eq_ok, Prod.exists,
      Shape.pair_eq_ok, Decoded.pure_eq] at h
    obtain ⟨a, w, ⟨⟩, m, -, t', ht, ⟨⟩⟩ := h
    exact ⟨w, Json.all_array.1 hv w (by simp), ht⟩
  | object members =>
    obtain ⟨m, -, h⟩ := Decoded.bind_eq_ok.1 h
    split at h
    · cases h
    · rename_i key w hkey
      simp only [Decoded.bind_eq_ok, Decoded.under_eq_ok, Decoded.pure_eq] at h
      obtain ⟨m', -, t', ht, ⟨⟩⟩ := h
      obtain ⟨k, -, hk⟩ := List.exists_of_findSome?_eq_some hkey
      obtain ⟨u, hu, ⟨⟩⟩ := Option.map_eq_some_iff.1 hk
      exact ⟨w, Json.All.get? (Json.all_object.1 hv).2 hu, ht⟩
  | null | bool | number | string => cases h

theorem list_decodeField_image {what : String} {child : Json → Decoded (TypeExpr τ)} {v : Json}
    {fs : TypeFields τ} {Q : TypeExpr τ → Prop} (h : Shape.list what (decodeField child) v = .ok fs)
    (hv : v.Orderly) (hQ : ∀ w t, w.Orderly → child w = .ok t → Q t) : ∀ f ∈ fs, Q f.2 := by
  refine Shape.list_image h hv fun w f hw hf => ?_
  obtain ⟨u, hu, ht⟩ := decodeField_image hw hf
  exact hQ u f.2 hu ht

theorem typeAt_image (y : Yields c P) {fuel : Nat} {v : Json} {t : TypeExpr τ} (hv : v.Orderly)
    (h : typeAt c.typeAttrs fuel v = .ok t) : t.Satisfies P := by
  induction fuel generalizing v t with
  | zero => cases h
  | succ fuel ih =>
    obtain ⟨⟨tag, fields⟩, htag, h⟩ := Decoded.bind_eq_ok.1 h
    obtain ⟨s, rfl, -⟩ := Shape.tagged_eq_ok.1 htag
    cases tag with
    | «variable» =>
      simp only [Decoded.bind_eq_ok, Shape.slot_eq_ok, Shape.two_eq_ok, Prod.exists,
        Decoded.pure_eq] at h
      obtain ⟨a, n, rfl, a', ha, n', -, ⟨⟩⟩ := h
      obtain ⟨hva, -⟩ := hv.fields
      exact .variable (y.typeAttrs a a' hva ha) (y.name n')
    | reference =>
      simp only [Decoded.bind_eq_ok, Shape.slot_eq_ok, Shape.three_eq_ok, Prod.exists,
        Decoded.pure_eq] at h
      obtain ⟨a, f, ts, rfl, a', ha, f', -, ts', hts, ⟨⟩⟩ := h
      obtain ⟨hva, -, hvs⟩ := hv.fields
      exact .reference (y.typeAttrs a a' hva ha) (y.qualified f')
        (Shape.list_image hts hvs fun w t hw ht => ih hw ht)
    | tuple =>
      simp only [Decoded.bind_eq_ok, Shape.slot_eq_ok, Shape.two_eq_ok, Prod.exists,
        Decoded.pure_eq] at h
      obtain ⟨a, ts, rfl, a', ha, ts', hts, ⟨⟩⟩ := h
      obtain ⟨hva, hvs⟩ := hv.fields
      exact .tuple (y.typeAttrs a a' hva ha)
        (Shape.list_image hts hvs fun w t hw ht => ih hw ht)
    | record =>
      simp only [Decoded.bind_eq_ok, Shape.slot_eq_ok, Shape.two_eq_ok, Prod.exists,
        Decoded.pure_eq] at h
      obtain ⟨a, fs, rfl, a', ha, fs', hfs, ⟨⟩⟩ := h
      obtain ⟨hva, hvs⟩ := hv.fields
      exact .record (y.typeAttrs a a' hva ha) (y.keyed _)
        (list_decodeField_image hfs hvs fun w t hw ht => ih hw ht)
    | extensibleRecord =>
      simp only [Decoded.bind_eq_ok, Shape.slot_eq_ok, Shape.three_eq_ok, Prod.exists,
        Decoded.pure_eq] at h
      obtain ⟨a, n, fs, rfl, a', ha, n', -, fs', hfs, ⟨⟩⟩ := h
      obtain ⟨hva, -, hvs⟩ := hv.fields
      exact .extensibleRecord (y.typeAttrs a a' hva ha) (y.name n') (y.keyed _)
        (list_decodeField_image hfs hvs fun w t hw ht => ih hw ht)
    | function =>
      simp only [Decoded.bind_eq_ok, Shape.slot_eq_ok, Shape.three_eq_ok, Prod.exists,
        Decoded.pure_eq] at h
      obtain ⟨a, x, z, rfl, a', ha, x', hx, z', hz, ⟨⟩⟩ := h
      obtain ⟨hva, hvx, hvz⟩ := hv.fields
      exact .function (y.typeAttrs a a' hva ha) (ih hvx hx) (ih hvz hz)
    | unit =>
      simp only [Decoded.bind_eq_ok, Shape.slot_eq_ok, Shape.one_eq_ok, Decoded.pure_eq] at h
      obtain ⟨a, rfl, a', ha, ⟨⟩⟩ := h
      exact .unit (y.typeAttrs a a' hv.fields ha)

theorem decodeType_image (y : Yields c P) {v : Json} {t : TypeExpr τ} (hv : v.Orderly)
    (h : decodeType c.typeAttrs v = .ok t) : t.Satisfies P :=
  typeAt_image y hv h

theorem decodeOptionalType_image (y : Yields c P) {v : Json} {t : Option (TypeExpr τ)}
    (hv : v.Orderly) (h : decodeOptionalType c.typeAttrs v = .ok t) : ∀ t' ∈ t, t'.Satisfies P := by
  rw [decodeOptionalType.eq_def] at h
  split at h
  · cases h
    simp
  · obtain ⟨t', ht, ⟨⟩⟩ := Decoded.bind_eq_ok.1 h
    simpa using decodeType_image y hv ht

theorem patternAt_image (y : Yields c P) {fuel : Nat} {v : Json} {p : Pattern ν} (hv : v.Orderly)
    (h : patternAt c.valueAttrs fuel v = .ok p) : p.Satisfies P := by
  induction fuel generalizing v p with
  | zero => cases h
  | succ fuel ih =>
    obtain ⟨⟨tag, fields⟩, htag, h⟩ := Decoded.bind_eq_ok.1 h
    obtain ⟨s, rfl, -⟩ := Shape.tagged_eq_ok.1 htag
    cases tag with
    | wildcard =>
      simp only [Decoded.bind_eq_ok, Shape.slot_eq_ok, Shape.one_eq_ok, Decoded.pure_eq] at h
      obtain ⟨a, rfl, a', ha, ⟨⟩⟩ := h
      exact .wildcard (y.valueAttrs a a' hv.fields ha)
    | as =>
      simp only [Decoded.bind_eq_ok, Shape.slot_eq_ok, Shape.three_eq_ok, Prod.exists,
        Decoded.pure_eq] at h
      obtain ⟨a, q, n, rfl, a', ha, q', hq, n', -, ⟨⟩⟩ := h
      obtain ⟨hva, hvq, -⟩ := hv.fields
      exact .as (y.valueAttrs a a' hva ha) (ih hvq hq) (y.name n')
    | tuple =>
      simp only [Decoded.bind_eq_ok, Shape.slot_eq_ok, Shape.two_eq_ok, Prod.exists,
        Decoded.pure_eq] at h
      obtain ⟨a, ps, rfl, a', ha, ps', hps, ⟨⟩⟩ := h
      obtain ⟨hva, hvs⟩ := hv.fields
      exact .tuple (y.valueAttrs a a' hva ha)
        (Shape.list_image hps hvs fun w p hw hp => ih hw hp)
    | constructor =>
      simp only [Decoded.bind_eq_ok, Shape.slot_eq_ok, Shape.three_eq_ok, Prod.exists,
        Decoded.pure_eq] at h
      obtain ⟨a, f, ps, rfl, a', ha, f', -, ps', hps, ⟨⟩⟩ := h
      obtain ⟨hva, -, hvs⟩ := hv.fields
      exact .constructor (y.valueAttrs a a' hva ha) (y.qualified f')
        (Shape.list_image hps hvs fun w p hw hp => ih hw hp)
    | emptyList =>
      simp only [Decoded.bind_eq_ok, Shape.slot_eq_ok, Shape.one_eq_ok, Decoded.pure_eq] at h
      obtain ⟨a, rfl, a', ha, ⟨⟩⟩ := h
      exact .emptyList (y.valueAttrs a a' hv.fields ha)
    | headTail =>
      simp only [Decoded.bind_eq_ok, Shape.slot_eq_ok, Shape.three_eq_ok, Prod.exists,
        Decoded.pure_eq] at h
      obtain ⟨a, x, z, rfl, a', ha, x', hx, z', hz, ⟨⟩⟩ := h
      obtain ⟨hva, hvx, hvz⟩ := hv.fields
      exact .headTail (y.valueAttrs a a' hva ha) (ih hvx hx) (ih hvz hz)
    | literal =>
      simp only [Decoded.bind_eq_ok, Shape.slot_eq_ok, Shape.two_eq_ok, Prod.exists,
        Decoded.pure_eq] at h
      obtain ⟨a, l, rfl, a', ha, l', hl, ⟨⟩⟩ := h
      obtain ⟨hva, hvl⟩ := hv.fields
      exact .literal (y.valueAttrs a a' hva ha) (y.literal l' (writable_of_decodeLiteral hvl hl))
    | unit =>
      simp only [Decoded.bind_eq_ok, Shape.slot_eq_ok, Shape.one_eq_ok, Decoded.pure_eq] at h
      obtain ⟨a, rfl, a', ha, ⟨⟩⟩ := h
      exact .unit (y.valueAttrs a a' hv.fields ha)

theorem decodePattern_image (y : Yields c P) {v : Json} {p : Pattern ν} (hv : v.Orderly)
    (h : decodePattern c.valueAttrs v = .ok p) : p.Satisfies P :=
  patternAt_image y hv h

theorem decodeInput_image (y : Yields c P) {v : Json} {i : Input τ ν} (hv : v.Orderly)
    (h : decodeInput c v = .ok i) : i.Satisfies P := by
  obtain ⟨vs, hvs, hi⟩ := Decoded.bind_eq_ok.1 h
  obtain rfl := Shape.array_eq_ok.1 hvs
  split at hi
  · simp only [Decoded.bind_eq_ok, Decoded.underIndex_eq_ok, Decoded.pure_eq] at hi
    obtain ⟨n', -, a', ha, t', ht, ⟨⟩⟩ := hi
    obtain ⟨hva, hvt⟩ := hv.fields
    exact ⟨y.valueAttrs _ _ hva ha, decodeType_image y hvt ht⟩
  · cases hi

/-- What stands beside the name of a pair. -/
theorem namedPair_image {what : String} {decode : Json → Decoded α} {v : Json} {n : Name} {x : α}
    (hv : v.Orderly) (h : namedPair what decode v = .ok (n, x)) :
    ∃ w, w.Orderly ∧ decode w = .ok x := by
  simp only [namedPair, Decoded.bind_eq_ok, Decoded.underIndex_eq_ok, Prod.exists,
    Shape.pair_eq_ok, Decoded.pure_eq] at h
  obtain ⟨a, w, rfl, n', -, x', hx, ⟨⟩⟩ := h
  exact ⟨w, hv.fields, hx⟩

theorem list_namedPair_image {what what' : String} {decode : Json → Decoded α} {v : Json}
    {xs : List (Name × α)} {Q : α → Prop} (h : Shape.list what (namedPair what' decode) v = .ok xs)
    (hv : v.Orderly) (hQ : ∀ w x, w.Orderly → decode w = .ok x → Q x) : ∀ p ∈ xs, Q p.2 := by
  refine Shape.list_image h hv fun w p hw hp => ?_
  obtain ⟨u, hu, hx⟩ := namedPair_image hw hp
  exact hQ u p.2 hu hx

/-- A member that is asked for is a value of a document as well. -/
theorem orderly_of_member {what key : String} {ms : Members} {v : Json}
    (hms : (Json.object ms).Orderly) (h : Shape.member what key ms = .ok v) : v.Orderly :=
  Json.All.get? (Json.all_object.1 hms).2 (Shape.member_eq_ok.1 h)

section Bodies

variable {child : Json → Decoded (Value τ ν)}

theorem bodyNode_image (y : Yields c P) {v : Json} {b : ValueBody τ ν} (hv : v.Orderly)
    (hchild : ∀ w x, w.Orderly → child w = .ok x → x.Satisfies P) (h : bodyNode child v = .ok b) :
    b.Satisfies P := by
  rw [bodyNode] at h
  split at h
  · rename_i tag fields htag
    rw [bodyTag?.eq_def] at htag
    split at htag
    · obtain ⟨t, -, ⟨⟩⟩ := Option.map_eq_some_iff.1 htag
      cases tag with
      | expression =>
        simp only [taggedBody, Decoded.bind_eq_ok, Decoded.underIndex_eq_ok, Shape.one_eq_ok,
          Decoded.pure_eq] at h
        obtain ⟨w, rfl, x, hx, ⟨⟩⟩ := h
        exact ValueBody.satisfies_expression.2 (hchild w x hv.fields hx)
      | native =>
        simp only [taggedBody, Decoded.bind_eq_ok, Decoded.pure_eq] at h
        obtain ⟨w, -, i, -, ⟨⟩⟩ := h
        exact ValueBody.satisfies_native i
      | external =>
        simp only [taggedBody, Decoded.bind_eq_ok, Prod.exists, Decoded.pure_eq] at h
        obtain ⟨s, p, -, s', -, p', -, ⟨⟩⟩ := h
        exact ValueBody.satisfies_external s' p'
      | incomplete =>
        simp only [taggedBody, Decoded.bind_eq_ok, Decoded.pure_eq] at h
        obtain ⟨w, -, i, -, ⟨⟩⟩ := h
        exact ValueBody.satisfies_incomplete.2 (y.incompleteness i)
    · cases htag
  · obtain ⟨x, hx, ⟨⟩⟩ := Decoded.bind_eq_ok.1 h
    exact ValueBody.satisfies_expression.2 (hchild v x hv hx)

theorem definitionNode_image (y : Yields c P) {v : Json} {d : ValueDefinition τ ν} (hv : v.Orderly)
    (hchild : ∀ w x, w.Orderly → child w = .ok x → x.Satisfies P)
    (h : definitionNode c child v = .ok d) : d.Satisfies P := by
  simp only [definitionNode, Decoded.bind_eq_ok, Decoded.under_eq_ok, Shape.object_eq_ok,
    Decoded.pure_eq] at h
  obtain ⟨ms, rfl, is, his, is', his', t, ht, t', ht', b, hb, b', hb', ⟨⟩⟩ := h
  have hbody := bodyNode_image y (orderly_of_member hv hb) hchild hb'
  refine ⟨⟨y.keyed _, ?_, ?_, hbody.incomplete⟩, hbody.expression⟩
  · exact Shape.list_image his' (orderly_of_member hv his) fun w i hw hi => decodeInput_image y hw hi
  · exact decodeType_image y (orderly_of_member hv ht) ht'

theorem list_decodeCase_image (y : Yields c P) {what : String} {v : Json}
    {cs : List (Pattern ν × Value τ ν)} (hv : v.Orderly)
    (hchild : ∀ w x, w.Orderly → child w = .ok x → x.Satisfies P)
    (h : Shape.list what (decodeCase c child) v = .ok cs) :
    ∀ k ∈ cs, k.1.Satisfies P ∧ k.2.Satisfies P := by
  refine Shape.list_image h hv fun w k hw hk => ?_
  simp only [decodeCase, Decoded.bind_eq_ok, Decoded.underIndex_eq_ok, Prod.exists,
    Shape.pair_eq_ok, Decoded.pure_eq] at hk
  obtain ⟨p, b, rfl, p', hp, b', hb, ⟨⟩⟩ := hk
  exact ⟨decodePattern_image y (Json.all_array.1 hw p (by simp)) hp, hchild b b' hw.fields hb⟩

end Bodies

theorem valueAt_image (y : Yields c P) {fuel : Nat} {v : Json} {x : Value τ ν} (hv : v.Orderly)
    (h : valueAt c fuel v = .ok x) : x.Satisfies P := by
  -- By the levels of nesting. Whatever stands behind the tag is orderly because the whole array is.
  induction fuel generalizing v x with
  | zero => cases h
  | succ fuel ih =>
    obtain ⟨⟨tag, fields⟩, htag, h⟩ := Decoded.bind_eq_ok.1 h
    obtain ⟨s, rfl, -⟩ := Shape.tagged_eq_ok.1 htag
    have hchild : ∀ w x, w.Orderly → valueAt c fuel w = .ok x → x.Satisfies P :=
      fun w x hw hx => ih hw hx
    cases tag with
    | literal =>
      simp only [Decoded.bind_eq_ok, Shape.slot_eq_ok, Shape.two_eq_ok, Prod.exists,
        Decoded.pure_eq] at h
      obtain ⟨a, l, rfl, a', ha, l', hl, ⟨⟩⟩ := h
      obtain ⟨hva, hvl⟩ := hv.fields
      exact .literal (y.valueAttrs a a' hva ha) (y.literal l' (writable_of_decodeLiteral hvl hl))
    | constructor =>
      simp only [Decoded.bind_eq_ok, Shape.slot_eq_ok, Shape.two_eq_ok, Prod.exists,
        Decoded.pure_eq] at h
      obtain ⟨a, f, rfl, a', ha, f', -, ⟨⟩⟩ := h
      obtain ⟨hva, -⟩ := hv.fields
      exact .constructor (y.valueAttrs a a' hva ha) (y.qualified f')
    | tuple =>
      simp only [Decoded.bind_eq_ok, Shape.slot_eq_ok, Shape.two_eq_ok, Prod.exists,
        Decoded.pure_eq] at h
      obtain ⟨a, vs, rfl, a', ha, vs', hvs', ⟨⟩⟩ := h
      obtain ⟨hva, hvs⟩ := hv.fields
      exact .tuple (y.valueAttrs a a' hva ha) (Shape.list_image hvs' hvs hchild)
    | list =>
      simp only [Decoded.bind_eq_ok, Shape.slot_eq_ok, Shape.two_eq_ok, Prod.exists,
        Decoded.pure_eq] at h
      obtain ⟨a, vs, rfl, a', ha, vs', hvs', ⟨⟩⟩ := h
      obtain ⟨hva, hvs⟩ := hv.fields
      exact .list (y.valueAttrs a a' hva ha) (Shape.list_image hvs' hvs hchild)
    | record =>
      simp only [Decoded.bind_eq_ok, Shape.slot_eq_ok, Shape.two_eq_ok, Prod.exists,
        Decoded.pure_eq] at h
      obtain ⟨a, fs, rfl, a', ha, fs', hfs', ⟨⟩⟩ := h
      obtain ⟨hva, hvs⟩ := hv.fields
      exact .record (y.valueAttrs a a' hva ha) (y.keyed _) (list_namedPair_image hfs' hvs hchild)
    | «variable» =>
      simp only [Decoded.bind_eq_ok, Shape.slot_eq_ok, Shape.two_eq_ok, Prod.exists,
        Decoded.pure_eq] at h
      obtain ⟨a, n, rfl, a', ha, n', -, ⟨⟩⟩ := h
      obtain ⟨hva, -⟩ := hv.fields
      exact .variable (y.valueAttrs a a' hva ha) (y.name n')
    | reference =>
      simp only [Decoded.bind_eq_ok, Shape.slot_eq_ok, Shape.two_eq_ok, Prod.exists,
        Decoded.pure_eq] at h
      obtain ⟨a, f, rfl, a', ha, f', -, ⟨⟩⟩ := h
      obtain ⟨hva, -⟩ := hv.fields
      exact .reference (y.valueAttrs a a' hva ha) (y.qualified f')
    | field =>
      simp only [Decoded.bind_eq_ok, Shape.slot_eq_ok, Shape.three_eq_ok, Prod.exists,
        Decoded.pure_eq] at h
      obtain ⟨a, r, n, rfl, a', ha, r', hr, n', -, ⟨⟩⟩ := h
      obtain ⟨hva, hvr, -⟩ := hv.fields
      exact .field (y.valueAttrs a a' hva ha) (ih hvr hr) (y.name n')
    | fieldFunction =>
      simp only [Decoded.bind_eq_ok, Shape.slot_eq_ok, Shape.two_eq_ok, Prod.exists,
        Decoded.pure_eq] at h
      obtain ⟨a, n, rfl, a', ha, n', -, ⟨⟩⟩ := h
      obtain ⟨hva, -⟩ := hv.fields
      exact .fieldFunction (y.valueAttrs a a' hva ha) (y.name n')
    | apply =>
      simp only [Decoded.bind_eq_ok, Shape.slot_eq_ok, Shape.three_eq_ok, Prod.exists,
        Decoded.pure_eq] at h
      obtain ⟨a, f, z, rfl, a', ha, f', hf, z', hz, ⟨⟩⟩ := h
      obtain ⟨hva, hvf, hvz⟩ := hv.fields
      exact .apply (y.valueAttrs a a' hva ha) (ih hvf hf) (ih hvz hz)
    | lambda =>
      simp only [Decoded.bind_eq_ok, Shape.slot_eq_ok, Shape.three_eq_ok, Prod.exists,
        Decoded.pure_eq] at h
      obtain ⟨a, p, b, rfl, a', ha, p', hp, b', hb, ⟨⟩⟩ := h
      obtain ⟨hva, hvp, hvb⟩ := hv.fields
      exact .lambda (y.valueAttrs a a' hva ha) (decodePattern_image y hvp hp) (ih hvb hb)
    | letDefinition =>
      simp only [Decoded.bind_eq_ok, Shape.slot_eq_ok, Shape.four_eq_ok, Prod.exists,
        Decoded.pure_eq] at h
      obtain ⟨a, n, d, b, rfl, a', ha, n', -, d', hd, b', hb, ⟨⟩⟩ := h
      obtain ⟨hva, -, hvd, hvb⟩ := hv.fields
      have hd' := definitionNode_image y hvd hchild hd
      exact .letDefinition (y.valueAttrs a a' hva ha) (y.name n') hd'.framed hd'.expression
        (ih hvb hb)
    | letRecursion =>
      simp only [Decoded.bind_eq_ok, Shape.slot_eq_ok, Shape.three_eq_ok, Prod.exists,
        Decoded.pure_eq] at h
      obtain ⟨a, ds, b, rfl, a', ha, ds', hds, b', hb, ⟨⟩⟩ := h
      obtain ⟨hva, hvs, hvb⟩ := hv.fields
      have hds' := list_namedPair_image hds hvs fun w d hw hd => definitionNode_image y hw hchild hd
      exact .letRecursion (y.valueAttrs a a' hva ha) (fun d _ => y.name d.1)
        (fun d hd => (hds' d hd).framed) (fun d hd => (hds' d hd).expression) (ih hvb hb)
    | destructure =>
      simp only [Decoded.bind_eq_ok, Shape.slot_eq_ok, Shape.four_eq_ok, Prod.exists,
        Decoded.pure_eq] at h
      obtain ⟨a, p, z, b, rfl, a', ha, p', hp, z', hz, b', hb, ⟨⟩⟩ := h
      obtain ⟨hva, hvp, hvz, hvb⟩ := hv.fields
      exact .destructure (y.valueAttrs a a' hva ha) (decodePattern_image y hvp hp) (ih hvz hz)
        (ih hvb hb)
    | ifThenElse =>
      simp only [Decoded.bind_eq_ok, Shape.slot_eq_ok, Shape.four_eq_ok, Prod.exists,
        Decoded.pure_eq] at h
      obtain ⟨a, z, t, e, rfl, a', ha, z', hz, t', ht, e', he, ⟨⟩⟩ := h
      obtain ⟨hva, hvz, hvt, hve⟩ := hv.fields
      exact .ifThenElse (y.valueAttrs a a' hva ha) (ih hvz hz) (ih hvt ht) (ih hve he)
    | patternMatch =>
      simp only [Decoded.bind_eq_ok, Shape.slot_eq_ok, Shape.three_eq_ok, Prod.exists,
        Decoded.pure_eq] at h
      obtain ⟨a, z, cs, rfl, a', ha, z', hz, cs', hcs, ⟨⟩⟩ := h
      obtain ⟨hva, hvz, hvs⟩ := hv.fields
      have hcs' := list_decodeCase_image y hvs hchild hcs
      exact .patternMatch (y.valueAttrs a a' hva ha) (ih hvz hz) (fun k hk => (hcs' k hk).1)
        fun k hk => (hcs' k hk).2
    | updateRecord =>
      simp only [Decoded.bind_eq_ok, Shape.slot_eq_ok, Shape.three_eq_ok, Prod.exists,
        Decoded.pure_eq] at h
      obtain ⟨a, r, us, rfl, a', ha, r', hr, us', hus, ⟨⟩⟩ := h
      obtain ⟨hva, hvr, hvs⟩ := hv.fields
      exact .updateRecord (y.valueAttrs a a' hva ha) (ih hvr hr) (fun u _ => y.name u.1)
        (list_namedPair_image hus hvs hchild)
    | unit =>
      simp only [Decoded.bind_eq_ok, Shape.slot_eq_ok, Shape.one_eq_ok, Decoded.pure_eq] at h
      obtain ⟨a, rfl, a', ha, ⟨⟩⟩ := h
      exact .unit (y.valueAttrs a a' hv.fields ha)
    | hole =>
      simp only [Decoded.bind_eq_ok, Shape.slot_eq_ok, Shape.three_eq_ok, Prod.exists,
        Decoded.pure_eq] at h
      obtain ⟨a, r, t, rfl, a', ha, r', -, t', ht, ⟨⟩⟩ := h
      obtain ⟨hva, -, hvt⟩ := hv.fields
      exact .hole (y.valueAttrs a a' hva ha) (y.holeReason r') (decodeOptionalType_image y hvt ht)
    | native =>
      simp only [Decoded.bind_eq_ok, Shape.slot_eq_ok, Shape.three_eq_ok, Prod.exists,
        Decoded.pure_eq] at h
      obtain ⟨a, f, i, rfl, a', ha, f', -, i', -, ⟨⟩⟩ := h
      obtain ⟨hva, -⟩ := hv.fields
      exact .native (y.valueAttrs a a' hva ha) (y.qualified f')
    | external =>
      simp only [Decoded.bind_eq_ok, Shape.slot_eq_ok, Shape.three_eq_ok, Prod.exists,
        Decoded.pure_eq] at h
      obtain ⟨a, s, p, rfl, a', ha, s', -, p', -, ⟨⟩⟩ := h
      obtain ⟨hva, -⟩ := hv.fields
      exact .external (y.valueAttrs a a' hva ha)

end Classic

end IrDialects
