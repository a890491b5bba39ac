import IrDialects.Proofs.Classic.Expression
import IrDialects.Proofs.Classic.Grammar
import IrDialects.Proofs.Classic.Value

/-!
# What the Classic decoders accept

A decoder accepts values of its form only, and what it reads is written as the grammar says. Each
node is read field by field, so nothing that stands in an array is dropped or read twice.
-/

namespace IrDialects.Classic

/-- What a decoder accepts has the given form, and is written as the form says once it was read. -/
def Sound {α : Type} (form : Form) (decode : Json → Decoded α) (encode : α → Json) : Prop :=
  ∀ v x, decode v = .ok x → Reads form v (encode x)

variable {α : Type}

section Parts

theorem sound_list (what : String) {form : Form} {decode : Json → Decoded α} {encode : α → Json}
    (h : Sound form decode encode) :
    Sound (.list form) (Shape.list what decode) fun xs => .array (xs.map encode) := by
  intro v xs hxs
  obtain ⟨vs, rfl, hall⟩ := Shape.list_eq_ok.1 hxs
  clear hxs
  induction hall with
  | nil => exact .empty form
  | cons hx _ ih => exact .more (h _ _ hx) ih

theorem sound_text (what : String) : Sound .text (Shape.string what) .string := by
  intro v s h
  obtain rfl := Shape.string_eq_ok.1 h
  exact .text s

theorem sound_attrs : Sound .attrs plainAttrs.decode plainAttrs.encode := by
  intro v a h
  cases h
  cases hv : v.isEmpty with
  | true =>
    have hempty : plainAttrs.encode (.ofJson v) = .object [] := by
      simp [plainAttrs, ClassicAttrs.ofJson, hv]
    rw [hempty]
    exact .blank hv
  | false =>
    have hkept : plainAttrs.encode (.ofJson v) = v := by
      simp [plainAttrs, ClassicAttrs.ofJson, hv]
    rw [hkept]
    exact .kept hv

theorem sound_name : Sound .name decodeName encodeName := by
  intro v n h
  obtain ⟨ws, hws, ⟨⟩⟩ := Decoded.bind_eq_ok.1 h
  exact sound_list "name" (sound_text _) v ws hws

theorem sound_path : Sound (.list .name) decodePath encodePath := by
  intro v p h
  obtain ⟨ns, hns, ⟨⟩⟩ := Decoded.bind_eq_ok.1 h
  exact sound_list "path" sound_name v ns hns

/-- A pair is read first item first. -/
theorem reads_pair {form form' : Form} {a b a' b' : Json} (ha : Reads form a a')
    (hb : Reads form' b b') : Reads (.row [form, form']) (.array [a, b]) (.array [a', b']) :=
  .cons ha (.cons hb .nil)

theorem sound_fqName : Sound .fqName decodeFQName encodeFQName := by
  intro v f h
  obtain ⟨vs, hvs, hparts⟩ := Decoded.bind_eq_ok.1 h
  obtain rfl := Shape.array_eq_ok.1 hvs
  split at hparts
  · simp only [Decoded.bind_eq_ok, Decoded.underIndex_eq_ok, Decoded.pure_eq] at hparts
    obtain ⟨p, hp, m, hm, n, hn, ⟨⟩⟩ := hparts
    exact .cons (sound_path _ p hp) (reads_pair (sound_path _ m hm) (sound_name _ n hn))
  · cases hparts

theorem sound_namedPair (what : String) {form : Form} {decode : Json → Decoded α}
    {encode : α → Json} (h : Sound form decode encode) :
    Sound (.row [.name, form]) (namedPair what decode)
      fun p => .array [encodeName p.1, encode p.2] := by
  intro v p hp
  simp only [namedPair, Decoded.bind_eq_ok, Decoded.underIndex_eq_ok, Prod.exists,
    Shape.pair_eq_ok, Decoded.pure_eq] at hp
  obtain ⟨a, b, rfl, n, hn, x, hx, ⟨⟩⟩ := hp
  exact reads_pair (sound_name a n hn) (h b x hx)

end Parts

section Literals

/-- The payload of a literal, which has the tag with which it was read. -/
theorem reads_payload {tag : LiteralTag} {v : Json} {l : Literal}
    (h : decodePayload tag v = .ok l) :
    literalTag l = tag ∧ Reads (.payload tag) v (encodePayload l) := by
  cases tag with
  | bool =>
    obtain ⟨b, hb, ⟨⟩⟩ := Decoded.bind_eq_ok.1 h
    obtain rfl := Shape.bool_eq_ok.1 hb
    exact ⟨rfl, .bool b⟩
  | char =>
    obtain ⟨s, hs, hchar⟩ := Decoded.bind_eq_ok.1 h
    obtain rfl := Shape.string_eq_ok.1 hs
    split at hchar
    · rename_i c hc
      cases hchar
      obtain rfl : s = .singleton c := String.toList_injective (by simpa using hc)
      exact ⟨rfl, .char c⟩
    · cases hchar
  | string =>
    obtain ⟨s, hs, ⟨⟩⟩ := Decoded.bind_eq_ok.1 h
    obtain rfl := Shape.string_eq_ok.1 hs
    exact ⟨rfl, .string s⟩
  | integer =>
    obtain ⟨n, hn, ⟨⟩⟩ := Decoded.bind_eq_ok.1 h
    obtain ⟨s, rfl, hs⟩ := Shape.int_eq_ok.1 hn
    exact ⟨rfl, .integer hs⟩
  | float =>
    obtain ⟨x, hx, ⟨⟩⟩ := Decoded.bind_eq_ok.1 h
    obtain ⟨s, rfl, hs⟩ := Shape.float_eq_ok.1 hx
    exact ⟨rfl, .float hs⟩
  | decimal =>
    -- A decimal is a text or a number, and the same check is made on either.
    have hcheck {s : String} (hs : decodeDecimal s = .ok l) :
        Number.Decimal.checkOrMessage s = .ok () ∧ l = .decimal s := by
      rw [decodeDecimal] at hs
      split at hs
      · rename_i hok
        cases hs
        exact ⟨hok, rfl⟩
      · cases hs
    cases v with
    | string s =>
      obtain ⟨hs, rfl⟩ := hcheck h
      exact ⟨rfl, .decimal hs⟩
    | number s =>
      obtain ⟨hs, rfl⟩ := hcheck h
      exact ⟨rfl, .decimalNumber hs⟩
    | null | bool | array | object => cases h

theorem sound_literal : Sound .literal decodeLiteral encodeLiteral := by
  intro v l h
  simp only [decodeLiteral, Decoded.bind_eq_ok, Shape.slot_eq_ok, Shape.one_eq_ok, Prod.exists,
    Shape.tagged_eq_ok] at h
  obtain ⟨tag, _, ⟨s, rfl, htag⟩, p, rfl, h⟩ := h
  obtain ⟨rfl, hp⟩ := reads_payload h
  have hwritten : (NodeTag.literal (literalTag l)).written? = some (writtenTag l) := by
    cases l <;> rfl
  exact .node (.literal _) rfl htag hwritten (.cons hp .nil)

end Literals

section Natives

theorem sound_holeReason : Sound .holeReason decodeHoleReason encodeHoleReason := by
  intro v r h
  obtain ⟨⟨tag, fields⟩, htag, h⟩ := Decoded.bind_eq_ok.1 h
  obtain ⟨s, rfl, hspelled⟩ := Shape.tagged_eq_ok.1 htag
  cases tag with
  | unresolvedReference =>
    simp only [Decoded.bind_eq_ok, Shape.slot_eq_ok, Shape.one_eq_ok, Decoded.pure_eq] at h
    obtain ⟨f, rfl, f', hf, ⟨⟩⟩ := h
    exact .node (.holeReason .unresolvedReference) rfl hspelled rfl
      (.cons (sound_fqName f f' hf) .nil)
  | deletedDuringRefactor =>
    simp only [Decoded.bind_eq_ok, Shape.slot_eq_ok, Shape.one_eq_ok, Decoded.pure_eq] at h
    obtain ⟨t, rfl, t', ht, ⟨⟩⟩ := h
    exact .node (.holeReason .deletedDuringRefactor) rfl hspelled rfl
      (.cons (sound_text _ t t' ht) .nil)
  | typeMismatch =>
    simp only [Decoded.bind_eq_ok, Shape.slot_eq_ok, Shape.two_eq_ok, Prod.exists,
      Decoded.pure_eq] at h
    obtain ⟨e, f, rfl, e', he, f', hf, ⟨⟩⟩ := h
    exact .node (.holeReason .typeMismatch) rfl hspelled rfl
      (reads_pair (sound_text _ e e' he) (sound_text _ f f' hf))
  | draft =>
    simp only [Decoded.bind_eq_ok, Shape.zero_eq_ok, Decoded.pure_eq] at h
    obtain ⟨_, rfl, ⟨⟩⟩ := h
    exact .node (.holeReason .draft) rfl hspelled rfl .nil

theorem sound_incompleteness :
    Sound .incompleteness decodeIncompleteness encodeIncompleteness := by
  intro v i h
  obtain ⟨⟨tag, fields⟩, htag, h⟩ := Decoded.bind_eq_ok.1 h
  obtain ⟨s, rfl, hspelled⟩ := Shape.tagged_eq_ok.1 htag
  cases tag with
  | draft =>
    simp only [Decoded.bind_eq_ok, Shape.zero_eq_ok, Decoded.pure_eq] at h
    obtain ⟨_, rfl, ⟨⟩⟩ := h
    exact .node (.incompleteness .draft) rfl hspelled rfl .nil
  | hole =>
    simp only [Decoded.bind_eq_ok, Shape.slot_eq_ok, Shape.one_eq_ok, Decoded.pure_eq] at h
    obtain ⟨r, rfl, r', hr, ⟨⟩⟩ := h
    exact .node (.incompleteness .hole) rfl hspelled rfl (.cons (sound_holeReason r r' hr) .nil)

theorem sound_hint : Sound .hint decodeNativeHint encodeNativeHint := by
  -- A bare text is decoded as the array with it, so the array comes first.
  have harray (v : Json) (x : NativeHint) (h : decodeNativeHint v = .ok x) :
      Reads .hint (hintArray v) (encodeNativeHint x) := by
    obtain ⟨⟨tag, fields⟩, htag, h⟩ := Decoded.bind_eq_ok.1 h
    obtain ⟨s, hv, hspelled⟩ := Shape.tagged_eq_ok.1 htag
    rw [hv]
    cases tag with
    | platformSpecific =>
      simp only [Decoded.bind_eq_ok, Shape.slot_eq_ok, Shape.one_eq_ok, Decoded.pure_eq] at h
      obtain ⟨p, rfl, p', hp, ⟨⟩⟩ := h
      exact .node (.hint .platformSpecific) rfl hspelled rfl (.cons (sound_text _ p p' hp) .nil)
    | arithmetic | comparison | stringOp | collectionOp =>
      simp only [Decoded.bind_eq_ok, Shape.zero_eq_ok, Decoded.pure_eq] at h
      obtain ⟨_, rfl, ⟨⟩⟩ := h
      exact .node (.hint _) rfl hspelled rfl .nil
  intro v x h
  cases v with
  | string s => exact .bareHint (harray _ x h)
  | _ => exact harray _ x h

theorem sound_info : Sound .info decodeNativeInfo encodeNativeInfo := by
  intro v i h
  simp only [decodeNativeInfo, Decoded.bind_eq_ok, Decoded.under_eq_ok, Shape.object_eq_ok,
    Shape.member_eq_ok, Decoded.pure_eq] at h
  obtain ⟨ms, rfl, w, hw, hint, hhint, d, hd, ⟨⟩⟩ := h
  have hhint := sound_hint w hint hhint
  rw [Shape.optionalString] at hd
  split at hd
  · rename_i hnone
    cases hd
    exact .bareInfo hw hhint (by simp [hnone])
  · rename_i hnull
    cases hd
    exact .bareInfo hw hhint (by simp [hnull])
  · rename_i u hu
    obtain rfl := Shape.string_eq_ok.1 (Decoded.under_eq_ok.1 hd)
    rw [encodeNativeInfo]
    split
    · rename_i hempty
      obtain rfl : d = "" := String.isEmpty_iff.1 hempty
      exact .bareInfo hw hhint (by simp [hu])
    · rename_i hempty
      exact .info hw hhint hu fun hd => hempty (String.isEmpty_iff.2 hd)

end Natives

section Types

theorem sound_field {child : Json → Decoded ClassicType} {encode : ClassicType → Json}
    (hchild : Sound .type child encode) :
    Sound .field (decodeField child) fun f => .array [encodeName f.1, encode f.2] := by
  intro v f h
  cases v with
  | array items =>
    simp only [decodeField, Decoded.bind_eq_ok, Decoded.underIndex_eq_ok, Prod.exists,
      Shape.pair_eq_ok, Decoded.pure_eq] at h
    obtain ⟨a, b, ⟨⟩, n, hn, t, ht, ⟨⟩⟩ := h
    exact .pair (reads_pair (sound_name a n hn) (hchild b t ht))
  | object members =>
    obtain ⟨a, ha, h⟩ := Decoded.bind_eq_ok.1 h
    split at h
    · cases h
    · rename_i key b hkey
      simp only [Decoded.bind_eq_ok, Decoded.under_eq_ok, Decoded.pure_eq] at h
      obtain ⟨n, hn, t, ht, ⟨⟩⟩ := h
      exact .fieldObject (Shape.member_eq_ok.1 ha) hkey
        (reads_pair (sound_name a n hn) (hchild b t ht))
  | null | bool | number | string => cases h

theorem sound_typeAt (fuel : Nat) :
    Sound .type (typeAt plainAttrs fuel) (encodeType plainAttrs) := by
  -- By the levels of nesting: the types inside a node are read with one level less.
  induction fuel with
  | zero =>
    intro v t h
    cases h
  | succ fuel ih =>
    intro v t h
    obtain ⟨⟨tag, fields⟩, htag, h⟩ := Decoded.bind_eq_ok.1 h
    obtain ⟨s, rfl, hspelled⟩ := Shape.tagged_eq_ok.1 htag
    cases tag with
    | «variable» =>
      simp only [Decoded.bind_eq_ok, Shape.slot_eq_ok, Shape.two_eq_ok, Prod.exists,
        Decoded.pure_eq] at h
      obtain ⟨a, n, rfl, a', ha, n', hn, ⟨⟩⟩ := h
      rw [encodeType]
      exact .node (.type .variable) rfl hspelled rfl
        (reads_pair (sound_attrs a a' ha) (sound_name n n' hn))
    | reference =>
      simp only [Decoded.bind_eq_ok, Shape.slot_eq_ok, Shape.three_eq_ok, Prod.exists,
        Decoded.pure_eq] at h
      obtain ⟨a, f, ts, rfl, a', ha, f', hf, ts', hts, ⟨⟩⟩ := h
      rw [encodeType, encodeTypes_eq_map]
      exact .node (.type .reference) rfl hspelled rfl (.cons (sound_attrs a a' ha)
        (reads_pair (sound_fqName f f' hf) (sound_list _ ih ts ts' hts)))
    | tuple =>
      simp only [Decoded.bind_eq_ok, Shape.slot_eq_ok, Shape.two_eq_ok, Prod.exists,
        Decoded.pure_eq] at h
      obtain ⟨a, ts, rfl, a', ha, ts', hts, ⟨⟩⟩ := h
      rw [encodeType, encodeTypes_eq_map]
      exact .node (.type .tuple) rfl hspelled rfl
        (reads_pair (sound_attrs a a' ha) (sound_list _ ih ts ts' hts))
    | record =>
      simp only [Decoded.bind_eq_ok, Shape.slot_eq_ok, Shape.two_eq_ok, Prod.exists,
        Decoded.pure_eq] at h
      obtain ⟨a, fs, rfl, a', ha, fs', hfs, ⟨⟩⟩ := h
      rw [encodeType, encodeFields_eq_map]
      exact .node (.type .record) rfl hspelled rfl
        (reads_pair (sound_attrs a a' ha) (sound_list _ (sound_field ih) fs fs' hfs))
    | extensibleRecord =>
      simp only [Decoded.bind_eq_ok, Shape.slot_eq_ok, Shape.three_eq_ok, Prod.exists,
        Decoded.pure_eq] at h
      obtain ⟨a, n, fs, rfl, a', ha, n', hn, fs', hfs, ⟨⟩⟩ := h
      rw [encodeType, encodeFields_eq_map]
      exact .node (.type .extensibleRecord) rfl hspelled rfl (.cons (sound_attrs a a' ha)
        (reads_pair (sound_name n n' hn) (sound_list _ (sound_field ih) fs fs' hfs)))
    | function =>
      simp only [Decoded.bind_eq_ok, Shape.slot_eq_ok, Shape.three_eq_ok, Prod.exists,
        Decoded.pure_eq] at h
      obtain ⟨a, x, y, rfl, a', ha, x', hx, y', hy, ⟨⟩⟩ := h
      rw [encodeType]
      exact .node (.type .function) rfl hspelled rfl
        (.cons (sound_attrs a a' ha) (reads_pair (ih x x' hx) (ih y y' hy)))
    | unit =>
      simp only [Decoded.bind_eq_ok, Shape.slot_eq_ok, Shape.one_eq_ok, Decoded.pure_eq] at h
      obtain ⟨a, rfl, a', ha, ⟨⟩⟩ := h
      rw [encodeType]
      exact .node (.type .unit) rfl hspelled rfl (.cons (sound_attrs a a' ha) .nil)

theorem sound_type : Sound .type (decodeType plainAttrs) (encodeType plainAttrs) :=
  fun v => sound_typeAt (v.depth + 1) v

theorem sound_optionalType :
    Sound .optionalType (decodeOptionalType plainAttrs) (encodeOptionalType plainAttrs) := by
  intro v t h
  rw [decodeOptionalType.eq_def] at h
  split at h
  · cases h
    exact .noType
  · obtain ⟨t', ht, ⟨⟩⟩ := Decoded.bind_eq_ok.1 h
    exact .someType (sound_type _ t' ht)

end Types

theorem sound_patternAt (fuel : Nat) :
    Sound .pattern (patternAt plainAttrs fuel) (encodePattern plainAttrs) := by
  induction fuel with
  | zero =>
    intro v p h
    cases h
  | succ fuel ih =>
    intro v p h
    obtain ⟨⟨tag, fields⟩, htag, h⟩ := Decoded.bind_eq_ok.1 h
    obtain ⟨s, rfl, hspelled⟩ := Shape.tagged_eq_ok.1 htag
    cases tag with
    | wildcard =>
      simp only [Decoded.bind_eq_ok, Shape.slot_eq_ok, Shape.one_eq_ok, Decoded.pure_eq] at h
      obtain ⟨a, rfl, a', ha, ⟨⟩⟩ := h
      rw [encodePattern]
      exact .node (.pattern .wildcard) rfl hspelled rfl (.cons (sound_attrs a a' ha) .nil)
    | as =>
      simp only [Decoded.bind_eq_ok, Shape.slot_eq_ok, Shape.three_eq_ok, Prod.exists,
        Decoded.pure_eq] at h
      obtain ⟨a, q, n, rfl, a', ha, q', hq, n', hn, ⟨⟩⟩ := h
      rw [encodePattern]
      exact .node (.pattern .as) rfl hspelled rfl
        (.cons (sound_attrs a a' ha) (reads_pair (ih q q' hq) (sound_name n n' hn)))
    | tuple =>
      simp only [Decoded.bind_eq_ok, Shape.slot_eq_ok, Shape.two_eq_ok, Prod.exists,
        Decoded.pure_eq] at h
      obtain ⟨a, ps, rfl, a', ha, ps', hps, ⟨⟩⟩ := h
      rw [encodePattern, encodePatterns_eq_map]
      exact .node (.pattern .tuple) rfl hspelled rfl
        (reads_pair (sound_attrs a a' ha) (sound_list _ ih ps ps' hps))
    | constructor =>
      simp only [Decoded.bind_eq_ok, Shape.slot_eq_ok, Shape.three_eq_ok, Prod.exists,
        Decoded.pure_eq] at h
      obtain ⟨a, f, ps, rfl, a', ha, f', hf, ps', hps, ⟨⟩⟩ := h
      rw [encodePattern, encodePatterns_eq_map]
      exact .node (.pattern .constructor) rfl hspelled rfl (.cons (sound_attrs a a' ha)
        (reads_pair (sound_fqName f f' hf) (sound_list _ ih ps ps' hps)))
    | emptyList =>
      simp only [Decoded.bind_eq_ok, Shape.slot_eq_ok, Shape.one_eq_ok, Decoded.pure_eq] at h
      obtain ⟨a, rfl, a', ha, ⟨⟩⟩ := h
      rw [encodePattern]
      exact .node (.pattern .emptyList) rfl hspelled rfl (.cons (sound_attrs a a' ha) .nil)
    | headTail =>
      simp only [Decoded.bind_eq_ok, Shape.slot_eq_ok, Shape.three_eq_ok, Prod.exists,
        Decoded.pure_eq] at h
      obtain ⟨a, x, y, rfl, a', ha, x', hx, y', hy, ⟨⟩⟩ := h
      rw [encodePattern]
      exact .node (.pattern .headTail) rfl hspelled rfl
        (.cons (sound_attrs a a' ha) (reads_pair (ih x x' hx) (ih y y' hy)))
    | literal =>
      simp only [Decoded.bind_eq_ok, Shape.slot_eq_ok, Shape.two_eq_ok, Prod.exists,
        Decoded.pure_eq] at h
      obtain ⟨a, l, rfl, a', ha, l', hl, ⟨⟩⟩ := h
      rw [encodePattern]
      exact .node (.pattern .literal) rfl hspelled rfl
        (reads_pair (sound_attrs a a' ha) (sound_literal l l' hl))
    | unit =>
      simp only [Decoded.bind_eq_ok, Shape.slot_eq_ok, Shape.one_eq_ok, Decoded.pure_eq] at h
      obtain ⟨a, rfl, a', ha, ⟨⟩⟩ := h
      rw [encodePattern]
      exact .node (.pattern .unit) rfl hspelled rfl (.cons (sound_attrs a a' ha) .nil)

theorem sound_pattern : Sound .pattern (decodePattern plainAttrs) (encodePattern plainAttrs) :=
  fun v => sound_patternAt (v.depth + 1) v

section Values

variable {child : Json → Decoded ClassicValue}

theorem sound_input : Sound .input (decodeInput codec) (encodeInput codec) := by
  intro v i h
  obtain ⟨vs, hvs, hparts⟩ := Decoded.bind_eq_ok.1 h
  obtain rfl := Shape.array_eq_ok.1 hvs
  split at hparts
  · simp only [Decoded.bind_eq_ok, Decoded.underIndex_eq_ok, Decoded.pure_eq] at hparts
    obtain ⟨n, hn, a, ha, t, ht, ⟨⟩⟩ := hparts
    exact .cons (sound_name _ n hn) (reads_pair (sound_attrs _ a ha) (sound_type _ t ht))
  · cases hparts

theorem sound_body (hchild : Sound .value child (encodeValue codec)) :
    Sound .body (bodyNode child) (encodeBody codec) := by
  intro v b h
  rw [bodyNode] at h
  split at h
  · rename_i tag fields htag
    rw [bodyTag?.eq_def] at htag
    split at htag
    · rename_i s fs
      obtain ⟨_, hfind, ⟨⟩⟩ := Option.map_eq_some_iff.1 htag
      cases tag with
      | expression =>
        simp only [taggedBody, Decoded.bind_eq_ok, Decoded.underIndex_eq_ok, Shape.one_eq_ok,
          Decoded.pure_eq] at h
        obtain ⟨w, rfl, x, hx, ⟨⟩⟩ := h
        rw [encodeBody]
        exact .expression hfind (hchild w x hx)
      | native =>
        simp only [taggedBody, Decoded.bind_eq_ok, Shape.slot_eq_ok, Shape.one_eq_ok,
          Decoded.pure_eq] at h
        obtain ⟨w, rfl, i, hi, ⟨⟩⟩ := h
        rw [encodeBody]
        exact .node (.body .native) rfl hfind rfl (.cons (sound_info w i hi) .nil)
      | external =>
        simp only [taggedBody, Decoded.bind_eq_ok, Shape.slot_eq_ok, Shape.two_eq_ok,
          Prod.exists, Decoded.pure_eq] at h
        obtain ⟨n, p, rfl, n', hn, p', hp, ⟨⟩⟩ := h
        rw [encodeBody]
        exact .node (.body .external) rfl hfind rfl
          (reads_pair (sound_text _ n n' hn) (sound_text _ p p' hp))
      | incomplete =>
        simp only [taggedBody, Decoded.bind_eq_ok, Shape.slot_eq_ok, Shape.one_eq_ok,
          Decoded.pure_eq] at h
        obtain ⟨w, rfl, i, hi, ⟨⟩⟩ := h
        rw [encodeBody]
        exact .node (.body .incomplete) rfl hfind rfl (.cons (sound_incompleteness w i hi) .nil)
    · cases htag
  · rename_i hnone
    obtain ⟨x, hx, ⟨⟩⟩ := Decoded.bind_eq_ok.1 h
    rw [encodeBody]
    exact .bareBody hnone (hchild v x hx)

theorem sound_definition (hchild : Sound .value child (encodeValue codec)) :
    Sound .definition (definitionNode codec child) (encodeDefinition codec) := by
  intro v d h
  simp only [definitionNode, Decoded.bind_eq_ok, Decoded.under_eq_ok, Shape.object_eq_ok,
    Shape.member_eq_ok, Decoded.pure_eq] at h
  obtain ⟨ms, rfl, is, his, is', his', t, ht, t', ht', b, hb, b', hb', ⟨⟩⟩ := h
  rw [encodeDefinition]
  exact .definition his ht hb (sound_list _ sound_input is is' his') (sound_type t t' ht')
    (sound_body hchild b b' hb')

theorem sound_case (hchild : Sound .value child (encodeValue codec)) :
    Sound (.row [.pattern, .value]) (decodeCase codec child)
      fun k => .array [encodePattern plainAttrs k.1, encodeValue codec k.2] := by
  intro v k h
  simp only [decodeCase, Decoded.bind_eq_ok, Decoded.underIndex_eq_ok, Prod.exists,
    Shape.pair_eq_ok, Decoded.pure_eq] at h
  obtain ⟨p, b, rfl, p', hp, b', hb, ⟨⟩⟩ := h
  exact reads_pair (sound_pattern p p' hp) (hchild b b' hb)

theorem sound_valueAt (fuel : Nat) : Sound .value (valueAt codec fuel) (encodeValue codec) := by
  -- By the levels of nesting, as for types; one case for each tag.
  induction fuel with
  | zero =>
    intro v x h
    cases h
  | succ fuel ih =>
    intro v x h
    obtain ⟨⟨tag, fields⟩, htag, h⟩ := Decoded.bind_eq_ok.1 h
    obtain ⟨s, rfl, hspelled⟩ := Shape.tagged_eq_ok.1 htag
    have hentry := sound_namedPair "record entry" ih
    cases tag with
    | literal =>
      simp only [Decoded.bind_eq_ok, Shape.slot_eq_ok, Shape.two_eq_ok, Prod.exists,
        Decoded.pure_eq] at h
      obtain ⟨a, l, rfl, a', ha, l', hl, ⟨⟩⟩ := h
      rw [encodeValue]
      exact .node (.value .literal) rfl hspelled rfl
        (reads_pair (sound_attrs a a' ha) (sound_literal l l' hl))
    | constructor =>
      simp only [Decoded.bind_eq_ok, Shape.slot_eq_ok, Shape.two_eq_ok, Prod.exists,
        Decoded.pure_eq] at h
      obtain ⟨a, f, rfl, a', ha, f', hf, ⟨⟩⟩ := h
      rw [encodeValue]
      exact .node (.value .constructor) rfl hspelled rfl
        (reads_pair (sound_attrs a a' ha) (sound_fqName f f' hf))
    | tuple =>
      simp only [Decoded.bind_eq_ok, Shape.slot_eq_ok, Shape.two_eq_ok, Prod.exists,
        Decoded.pure_eq] at h
      obtain ⟨a, vs, rfl, a', ha, vs', hvs, ⟨⟩⟩ := h
      rw [encodeValue, encodeValues_eq_map]
      exact .node (.value .tuple) rfl hspelled rfl
        (reads_pair (sound_attrs a a' ha) (sound_list _ ih vs vs' hvs))
    | list =>
      simp only [Decoded.bind_eq_ok, Shape.slot_eq_ok, Shape.two_eq_ok, Prod.exists,
        Decoded.pure_eq] at h
      obtain ⟨a, vs, rfl, a', ha, vs', hvs, ⟨⟩⟩ := h
      rw [encodeValue, encodeValues_eq_map]
      exact .node (.value .list) rfl hspelled rfl
        (reads_pair (sound_attrs a a' ha) (sound_list _ ih vs vs' hvs))
    | record =>
      simp only [Decoded.bind_eq_ok, Shape.slot_eq_ok, Shape.two_eq_ok, Prod.exists,
        Decoded.pure_eq] at h
      obtain ⟨a, fs, rfl, a', ha, fs', hfs, ⟨⟩⟩ := h
      rw [encodeValue, encodeEntries_eq_map]
      exact .node (.value .record) rfl hspelled rfl
        (reads_pair (sound_attrs a a' ha) (sound_list _ hentry fs fs' hfs))
    | «variable» =>
      simp only [Decoded.bind_eq_ok, Shape.slot_eq_ok, Shape.two_eq_ok, Prod.exists,
        Decoded.pure_eq] at h
      obtain ⟨a, n, rfl, a', ha, n', hn, ⟨⟩⟩ := h
      rw [encodeValue]
      exact .node (.value .variable) rfl hspelled rfl
        (reads_pair (sound_attrs a a' ha) (sound_name n n' hn))
    | reference =>
      simp only [Decoded.bind_eq_ok, Shape.slot_eq_ok, Shape.two_eq_ok, Prod.exists,
        Decoded.pure_eq] at h
      obtain ⟨a, f, rfl, a', ha, f', hf, ⟨⟩⟩ := h
      rw [encodeValue]
      exact .node (.value .reference) rfl hspelled rfl
        (reads_pair (sound_attrs a a' ha) (sound_fqName f f' hf))
    | field =>
      simp only [Decoded.bind_eq_ok, Shape.slot_eq_ok, Shape.three_eq_ok, Prod.exists,
        Decoded.pure_eq] at h
      obtain ⟨a, r, n, rfl, a', ha, r', hr, n', hn, ⟨⟩⟩ := h
      rw [encodeValue]
      exact .node (.value .field) rfl hspelled rfl
        (.cons (sound_attrs a a' ha) (reads_pair (ih r r' hr) (sound_name n n' hn)))
    | fieldFunction =>
      simp only [Decoded.bind_eq_ok, Shape.slot_eq_ok, Shape.two_eq_ok, Prod.exists,
        Decoded.pure_eq] at h
      obtain ⟨a, n, rfl, a', ha, n', hn, ⟨⟩⟩ := h
      rw [encodeValue]
      exact .node (.value .fieldFunction) rfl hspelled rfl
        (reads_pair (sound_attrs a a' ha) (sound_name n n' hn))
    | apply =>
      simp only [Decoded.bind_eq_ok, Shape.slot_eq_ok, Shape.three_eq_ok, Prod.exists,
        Decoded.pure_eq] at h
      obtain ⟨a, f, y, rfl, a', ha, f', hf, y', hy, ⟨⟩⟩ := h
      rw [encodeValue]
      exact .node (.value .apply) rfl hspelled rfl
        (.cons (sound_attrs a a' ha) (reads_pair (ih f f' hf) (ih y y' hy)))
    | lambda =>
      simp only [Decoded.bind_eq_ok, Shape.slot_eq_ok, Shape.three_eq_ok, Prod.exists,
        Decoded.pure_eq] at h
      obtain ⟨a, p, b, rfl, a', ha, p', hp, b', hb, ⟨⟩⟩ := h
      rw [encodeValue]
      exact .node (.value .lambda) rfl hspelled rfl
        (.cons (sound_attrs a a' ha) (reads_pair (sound_pattern p p' hp) (ih b b' hb)))
    | letDefinition =>
      simp only [Decoded.bind_eq_ok, Shape.slot_eq_ok, Shape.four_eq_ok, Prod.exists,
        Decoded.pure_eq] at h
      obtain ⟨a, n, d, b, rfl, a', ha, n', hn, d', hd, b', hb, ⟨⟩⟩ := h
      rw [encodeValue]
      exact .node (.value .letDefinition) rfl hspelled rfl
        (.cons (sound_attrs a a' ha) (.cons (sound_name n n' hn)
          (reads_pair (sound_definition ih d d' hd) (ih b b' hb))))
    | letRecursion =>
      simp only [Decoded.bind_eq_ok, Shape.slot_eq_ok, Shape.three_eq_ok, Prod.exists,
        Decoded.pure_eq] at h
      obtain ⟨a, ds, b, rfl, a', ha, ds', hds, b', hb, ⟨⟩⟩ := h
      rw [encodeValue, encodeBindings_eq_map]
      have hbinding := sound_namedPair "let binding" (sound_definition ih)
      exact .node (.value .letRecursion) rfl hspelled rfl (.cons (sound_attrs a a' ha)
        (reads_pair (sound_list _ hbinding ds ds' hds) (ih b b' hb)))
    | destructure =>
      simp only [Decoded.bind_eq_ok, Shape.slot_eq_ok, Shape.four_eq_ok, Prod.exists,
        Decoded.pure_eq] at h
      obtain ⟨a, p, y, b, rfl, a', ha, p', hp, y', hy, b', hb, ⟨⟩⟩ := h
      rw [encodeValue]
      exact .node (.value .destructure) rfl hspelled rfl
        (.cons (sound_attrs a a' ha) (.cons (sound_pattern p p' hp)
          (reads_pair (ih y y' hy) (ih b b' hb))))
    | ifThenElse =>
      simp only [Decoded.bind_eq_ok, Shape.slot_eq_ok, Shape.four_eq_ok, Prod.exists,
        Decoded.pure_eq] at h
      obtain ⟨a, y, t, e, rfl, a', ha, y', hy, t', ht, e', he, ⟨⟩⟩ := h
      rw [encodeValue]
      exact .node (.value .ifThenElse) rfl hspelled rfl (.cons (sound_attrs a a' ha)
        (.cons (ih y y' hy) (reads_pair (ih t t' ht) (ih e e' he))))
    | patternMatch =>
      simp only [Decoded.bind_eq_ok, Shape.slot_eq_ok, Shape.three_eq_ok, Prod.exists,
        Decoded.pure_eq] at h
      obtain ⟨a, y, cs, rfl, a', ha, y', hy, cs', hcs, ⟨⟩⟩ := h
      rw [encodeValue, encodeCases_eq_map]
      exact .node (.value .patternMatch) rfl hspelled rfl (.cons (sound_attrs a a' ha)
        (reads_pair (ih y y' hy) (sound_list _ (sound_case ih) cs cs' hcs)))
    | updateRecord =>
      simp only [Decoded.bind_eq_ok, Shape.slot_eq_ok, Shape.three_eq_ok, Prod.exists,
        Decoded.pure_eq] at h
      obtain ⟨a, r, us, rfl, a', ha, r', hr, us', hus, ⟨⟩⟩ := h
      rw [encodeValue, encodeEntries_eq_map]
      exact .node (.value .updateRecord) rfl hspelled rfl (.cons (sound_attrs a a' ha)
        (reads_pair (ih r r' hr) (sound_list _ hentry us us' hus)))
    | unit =>
      simp only [Decoded.bind_eq_ok, Shape.slot_eq_ok, Shape.one_eq_ok, Decoded.pure_eq] at h
      obtain ⟨a, rfl, a', ha, ⟨⟩⟩ := h
      rw [encodeValue]
      exact .node (.value .unit) rfl hspelled rfl (.cons (sound_attrs a a' ha) .nil)
    | hole =>
      simp only [Decoded.bind_eq_ok, Shape.slot_eq_ok, Shape.three_eq_ok, Prod.exists,
        Decoded.pure_eq] at h
      obtain ⟨a, r, t, rfl, a', ha, r', hr, t', ht, ⟨⟩⟩ := h
      rw [encodeValue]
      exact .node (.value .hole) rfl hspelled rfl (.cons (sound_attrs a a' ha)
        (reads_pair (sound_holeReason r r' hr) (sound_optionalType t t' ht)))
    | native =>
      simp only [Decoded.bind_eq_ok, Shape.slot_eq_ok, Shape.three_eq_ok, Prod.exists,
        Decoded.pure_eq] at h
      obtain ⟨a, f, i, rfl, a', ha, f', hf, i', hi, ⟨⟩⟩ := h
      rw [encodeValue]
      exact .node (.value .native) rfl hspelled rfl (.cons (sound_attrs a a' ha)
        (reads_pair (sound_fqName f f' hf) (sound_info i i' hi)))
    | external =>
      simp only [Decoded.bind_eq_ok, Shape.slot_eq_ok, Shape.three_eq_ok, Prod.exists,
        Decoded.pure_eq] at h
      obtain ⟨a, n, p, rfl, a', ha, n', hn, p', hp, ⟨⟩⟩ := h
      rw [encodeValue]
      exact .node (.value .external) rfl hspelled rfl (.cons (sound_attrs a a' ha)
        (reads_pair (sound_text _ n n' hn) (sound_text _ p p' hp)))

theorem sound_value : Sound .value (decodeValue codec) (encodeValue codec) :=
  fun v => sound_valueAt (v.depth + 1) v

end Values

/-- What the decoders of types, patterns and values accept is written anew with the differences that
the grammar has, and every array in it has the length that its tag asks for. -/
theorem nothing_positional_is_ignored :
    (∀ v t, decodeType plainAttrs v = .ok t →
      Reads .type v (encodeType plainAttrs t) ∧ Aligned .type v) ∧
    (∀ v p, decodePattern plainAttrs v = .ok p →
      Reads .pattern v (encodePattern plainAttrs p) ∧ Aligned .pattern v) ∧
    ∀ v x, decodeValue codec v = .ok x →
      Reads .value v (encodeValue codec x) ∧ Aligned .value v := by
  refine ⟨fun v t h => ?_, fun v p h => ?_, fun v x h => ?_⟩
  · have hreads := sound_type v t h
    exact ⟨hreads, hreads.aligned⟩
  · have hreads := sound_pattern v p h
    exact ⟨hreads, hreads.aligned⟩
  · have hreads := sound_value v x h
    exact ⟨hreads, hreads.aligned⟩

section Lenient

/-- A value in spellings other than those in which it is written. -/
def lenientValue : Json :=
  .array [.string "let_definition", .null, .array [.string "x"],
    .object [("note", .null), ("body", .array [.string "expressionBody",
        .array [.string "literal", .array [], .array [.string "intLiteral", .number "01"]]]),
      ("inputTypes", .array []), ("outputType", .array [.string "record", .object [],
        .array [.object [("name", .array [.string "a"]),
          ("ty", .array [.string "unit", .null])]]])],
    .array [.string "native", .bool true, .array [.array [], .array [], .array []],
      .object [("description", .string ""), ("hint", .string "arithmetic")]]]

/-- The same value as it is written. -/
def writtenValue : Json :=
  .array [.string "LetDefinition", .object [], .array [.string "x"],
    .object [("inputTypes", .array []), ("outputType", .array [.string "Record", .object [],
        .array [.array [.array [.string "a"], .array [.string "Unit", .object []]]]]),
      ("body", .array [.string "Literal", .object [],
        .array [.string "WholeNumberLiteral", .number "1"]])],
    .array [.string "Native", .bool true, .array [.array [], .array [], .array []],
      .object [("hint", .array [.string "Arithmetic"])]]]

theorem lenientValue_is_written_anew :
    ∃ x, decodeValue codec lenientValue = .ok x ∧ encodeValue codec x = writtenValue ∧
      Reads .value lenientValue writtenValue ∧ Aligned .value lenientValue := by
  obtain ⟨x, hx, hwritten⟩ : ∃ x, decodeValue codec lenientValue = .ok x ∧
      encodeValue codec x = writtenValue := ⟨_, rfl, rfl⟩
  obtain ⟨hreads, haligned⟩ := nothing_positional_is_ignored.2.2 lenientValue x hx
  exact ⟨x, hx, hwritten, hwritten ▸ hreads, haligned⟩

end Lenient

end IrDialects.Classic
