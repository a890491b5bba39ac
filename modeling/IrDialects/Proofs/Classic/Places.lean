import IrDialects.Classic.Document
import IrDialects.Proofs.Wire.Places

/-!
# Issues of Classic documents

Every decoder of Classic documents is pointing: its issues arise in what it reads. Types, patterns
and values go by the number of levels that are left to read; one node is pointing if what reads its
children is.
-/

namespace IrDialects.Classic

variable {τ ν α : Type} {decode : Json → Decoded α} {R : String → String → Prop} {b : Nat}

section Parts

theorem pointing_name : Pointing b R decodeName :=
  fun v => (pointing_list _ (pointing_string _) v).bind fun _ => .ok _

theorem pointing_path : Pointing b R decodePath :=
  fun v => (pointing_list _ pointing_name v).bind fun _ => .ok _

theorem pointing_fqName : Pointing b R decodeFQName := by
  intro v
  refine .arrayThen fun vs => ?_
  split
  · refine .bind (.item rfl (pointing_path _)) fun _ => ?_
    refine .bind (.item rfl (pointing_path _)) fun _ => ?_
    exact .bind (.item rfl (pointing_name _)) fun _ => .ok _
  · exact .complain (by simp)

theorem pointing_names (what : String) : Pointing b R (decodeNames what) :=
  pointing_list what pointing_name

theorem within_decimal (v : Json) (text : String) : Within b R v (decodeDecimal text) := by
  rw [decodeDecimal]
  split
  · exact .ok _
  · exact .complain (by simp)

theorem pointing_payload (tag : LiteralTag) : Pointing b R (decodePayload tag) := by
  intro v
  cases tag with
  | bool => exact (pointing_bool _ v).bind fun _ => .ok _
  | char =>
    refine (pointing_string _ v).bind fun s => ?_
    split
    · exact .ok _
    · exact .complain (by simp)
  | string => exact (pointing_string _ v).bind fun _ => .ok _
  | integer => exact (pointing_int _ v).bind fun _ => .ok _
  | float => exact (pointing_float _ v).bind fun _ => .ok _
  | decimal =>
    cases v with
    | string s => exact within_decimal _ s
    | number s => exact within_decimal _ s
    | _ => exact .complain (by simp)

theorem pointing_literal : Pointing b R decodeLiteral := by
  intro v
  refine .taggedThen fun tag s fields => ?_
  exact .oneThen fun payload => .slot rfl (pointing_payload tag payload)

theorem pointing_holeReason : Pointing b R decodeHoleReason := by
  intro v
  refine .taggedThen fun tag s fields => ?_
  cases tag with
  | unresolvedReference =>
    refine .oneThen fun f => ?_
    exact .bind (.slot rfl (pointing_fqName f)) fun _ => .ok _
  | deletedDuringRefactor =>
    refine .oneThen fun t => ?_
    exact .bind (.slot rfl (pointing_string _ t)) fun _ => .ok _
  | typeMismatch =>
    refine .twoThen fun e f => ?_
    refine .bind (.slot rfl (pointing_string _ e)) fun _ => ?_
    exact .bind (.slot rfl (pointing_string _ f)) fun _ => .ok _
  | draft => exact .zeroThen (.ok _)

theorem pointing_incompleteness : Pointing b R decodeIncompleteness := by
  intro v
  refine .taggedThen fun tag s fields => ?_
  cases tag with
  | draft => exact .zeroThen (.ok _)
  | hole =>
    refine .oneThen fun r => ?_
    exact .bind (.slot rfl (pointing_holeReason r)) fun _ => .ok _

/-- A hint written as a bare string is read as the array with it. That array has no fields, so of
its items only the tag can be wrong. -/
theorem pointing_nativeHint : Pointing b R decodeNativeHint := by
  have harray (v : Json) : Within b R (hintArray v) (decodeNativeHint v) := by
    refine .taggedThen fun tag s fields => ?_
    cases tag with
    | platformSpecific =>
      refine .oneThen fun p => ?_
      exact .bind (.slot rfl (pointing_string _ p)) fun _ => .ok _
    | arithmetic | comparison | stringOp | collectionOp => exact .zeroThen (.ok _)
  intro v
  have hv := harray v
  cases v with
  | string s =>
    rw [decodeNativeHint, hintArray, Shape.tagged]
    cases NativeHintTag.table.find? s with
    | none => exact .error (.bare s)
    | some tag =>
      cases tag with
      | platformSpecific => exact .fieldCount
      | arithmetic | comparison | stringOp | collectionOp => exact .ok _
  | _ => exact hv

theorem pointing_nativeInfo : Pointing b R decodeNativeInfo := by
  intro v
  refine .objectThen fun ms => ?_
  refine .memberThen fun hint hmem => ?_
  refine .bind (.member hmem (pointing_nativeHint hint)) fun _ => ?_
  exact .bind (within_optionalString ms "description") fun _ => .ok _

theorem pointing_namedPair (what : String) (h : Pointing b R decode) :
    Pointing b R (namedPair what decode) := by
  intro v
  refine .pairThen fun n x => ?_
  refine .bind (.item rfl (pointing_name n)) fun _ => ?_
  exact .bind (.item rfl (h x)) fun _ => .ok _

theorem pointing_pathPair (what : String) (h : Pointing b R decode) :
    Pointing b R (pathPair what decode) := by
  intro v
  refine .pairThen fun p x => ?_
  refine .bind (.item rfl (pointing_path p)) fun _ => ?_
  exact .bind (.item rfl (h x)) fun _ => .ok _

theorem pointing_access : Pointing b R decodeAccess := by
  intro v
  refine (pointing_string _ v).bind fun s => ?_
  split
  · exact .ok _
  · exact .complain (by simp)

theorem pointing_accessControlled (h : Pointing b R decode) :
    Pointing b R (accessControlled decode) := by
  intro v
  refine .objectThen fun ms => ?_
  refine .memberThen fun a ha => ?_
  refine .bind (.member ha (pointing_access a)) fun _ => ?_
  refine .memberThen fun x hx => ?_
  exact .bind (.member hx (h x)) fun _ => .ok _

theorem pointing_documented (h : Pointing b R decode) : Pointing b R (documented decode) := by
  intro v
  refine .objectThen fun ms => ?_
  refine .bind (within_optionalString ms "doc") fun _ => ?_
  refine .memberThen fun x hx => ?_
  exact .bind (.member hx (h x)) fun _ => .ok _

end Parts

section Types

variable {c : AttrCodec τ}

theorem mem_of_fieldTypeKey? {ms : Members} {key : String} {t : Json}
    (h : fieldTypeKey? ms = some (key, t)) : (key, t) ∈ ms := by
  obtain ⟨_, -, h⟩ := List.exists_of_findSome?_eq_some h
  obtain ⟨_, hget, h⟩ := Option.map_eq_some_iff.1 h
  cases h
  exact Json.mem_of_get? hget

theorem pointing_field {child : Json → Decoded (TypeExpr τ)} (hchild : Pointing b R child) :
    Pointing b R (decodeField child) := by
  intro v
  cases v with
  | array items =>
    refine .pairThen fun n t => ?_
    refine .bind (.item rfl (pointing_name n)) fun _ => ?_
    exact .bind (.item rfl (hchild t)) fun _ => .ok _
  | object ms =>
    refine .memberThen fun n hn => ?_
    split
    · exact .complain (by simp)
    · rename_i hkey
      refine .bind (.member hn (pointing_name n)) fun _ => ?_
      exact .bind (.member (mem_of_fieldTypeKey? hkey) (hchild _)) fun _ => .ok _
  | _ => exact .complain (by simp)

/-- One node of a type. -/
theorem pointing_typeNode (hc : ∀ {b}, Pointing b R c.decode) {child : Json → Decoded (TypeExpr τ)}
    (hchild : Pointing b R child) : Pointing (b + 1) R (typeNode c child) := by
  intro v
  refine .taggedThen fun tag s fields => ?_
  cases tag with
  | «variable» =>
    refine .twoThen fun a n => ?_
    refine .bind (.slot rfl (hc a)) fun _ => ?_
    exact .bind (.slot rfl (pointing_name n)) fun _ => .ok _
  | reference =>
    refine .threeThen fun a f ts => ?_
    refine .bind (.slot rfl (hc a)) fun _ => ?_
    refine .bind (.slot rfl (pointing_fqName f)) fun _ => ?_
    exact .bind (.slotBelow rfl (pointing_list _ hchild ts)) fun _ => .ok _
  | tuple =>
    refine .twoThen fun a ts => ?_
    refine .bind (.slot rfl (hc a)) fun _ => ?_
    exact .bind (.slotBelow rfl (pointing_list _ hchild ts)) fun _ => .ok _
  | record =>
    refine .twoThen fun a fs => ?_
    refine .bind (.slot rfl (hc a)) fun _ => ?_
    exact .bind (.slotBelow rfl (pointing_list _ (pointing_field hchild) fs)) fun _ => .ok _
  | extensibleRecord =>
    refine .threeThen fun a n fs => ?_
    refine .bind (.slot rfl (hc a)) fun _ => ?_
    refine .bind (.slot rfl (pointing_name n)) fun _ => ?_
    exact .bind (.slotBelow rfl (pointing_list _ (pointing_field hchild) fs)) fun _ => .ok _
  | function =>
    refine .threeThen fun a x y => ?_
    refine .bind (.slot rfl (hc a)) fun _ => ?_
    refine .bind (.slotBelow rfl (hchild x)) fun _ => ?_
    exact .bind (.slotBelow rfl (hchild y)) fun _ => .ok _
  | unit =>
    refine .oneThen fun a => ?_
    exact .bind (.slot rfl (hc a)) fun _ => .ok _

theorem pointing_typeAt (hc : ∀ {b}, Pointing b R c.decode) (fuel : Nat) :
    Pointing fuel R (typeAt c fuel) := by
  induction fuel with
  | zero => exact fun _ hd => absurd hd (Nat.not_lt_zero _)
  | succ fuel ih => exact pointing_typeNode hc ih

theorem pointing_type (hc : ∀ {b}, Pointing b R c.decode) : Pointing b R (decodeType c) :=
  fun v _ => pointing_typeAt hc _ v (Nat.lt_succ_self _)

theorem pointing_optionalType (hc : ∀ {b}, Pointing b R c.decode) :
    Pointing b R (decodeOptionalType c) := by
  intro v
  cases v with
  | null => exact .ok _
  | _ => exact (pointing_type hc _).bind fun _ => .ok _

theorem pointing_fields (hc : ∀ {b}, Pointing b R c.decode) (what : String) :
    Pointing b R (Shape.list what (decodeField (decodeType c))) :=
  pointing_list what (pointing_field (pointing_type hc))

theorem pointing_constructor (hc : ∀ {b}, Pointing b R c.decode) :
    Pointing b R (decodeConstructor c) :=
  fun v => (pointing_namedPair _ (pointing_fields hc _) v).bind fun _ => .ok _

theorem pointing_typeDefinition (hc : ∀ {b}, Pointing b R c.decode) :
    Pointing b R (decodeTypeDefinition c) := by
  intro v
  refine .taggedThen fun tag s fields => ?_
  cases tag with
  | synonym =>
    refine .twoThen fun ps t => ?_
    refine .bind (.slot rfl (pointing_names _ ps)) fun _ => ?_
    exact .bind (.slot rfl (pointing_type hc t)) fun _ => .ok _
  | custom =>
    refine .twoThen fun ps cs => ?_
    refine .bind (.slot rfl (pointing_names _ ps)) fun _ => ?_
    have hconstructors := pointing_accessControlled (b := b)
      (pointing_list "constructors" (pointing_constructor hc))
    exact .bind (.slot rfl (hconstructors cs)) fun _ => .ok _
  | incomplete =>
    refine .threeThen fun ps i t => ?_
    refine .bind (.slot rfl (pointing_names _ ps)) fun _ => ?_
    refine .bind (.slot rfl (pointing_incompleteness i)) fun _ => ?_
    exact .bind (.slot rfl (pointing_optionalType hc t)) fun _ => .ok _

theorem pointing_typeSpecification (hc : ∀ {b}, Pointing b R c.decode) :
    Pointing b R (decodeTypeSpecification c) := by
  intro v
  refine .taggedThen fun tag s fields => ?_
  cases tag with
  | synonym =>
    refine .twoThen fun ps t => ?_
    refine .bind (.slot rfl (pointing_names _ ps)) fun _ => ?_
    exact .bind (.slot rfl (pointing_type hc t)) fun _ => .ok _
  | abstract =>
    refine .oneThen fun ps => ?_
    exact .bind (.slot rfl (pointing_names _ ps)) fun _ => .ok _
  | custom =>
    refine .twoThen fun ps cs => ?_
    refine .bind (.slot rfl (pointing_names _ ps)) fun _ => ?_
    exact .bind (.slot rfl (pointing_list _ (pointing_constructor hc) cs)) fun _ => .ok _

theorem pointing_valueSpecification (hc : ∀ {b}, Pointing b R c.decode) :
    Pointing b R (decodeValueSpecification c) := by
  intro v
  refine .objectThen fun ms => ?_
  refine .memberThen fun is his => ?_
  refine .bind (.member his (pointing_fields hc _ is)) fun _ => ?_
  refine .memberThen fun t ht => ?_
  exact .bind (.member ht (pointing_type hc t)) fun _ => .ok _

end Types

section Patterns

variable {c : AttrCodec ν}

/-- One node of a pattern. -/
theorem pointing_patternNode (hc : ∀ {b}, Pointing b R c.decode) {child : Json → Decoded (Pattern ν)}
    (hchild : Pointing b R child) : Pointing (b + 1) R (patternNode c child) := by
  intro v
  refine .taggedThen fun tag s fields => ?_
  cases tag with
  | wildcard =>
    refine .oneThen fun a => ?_
    exact .bind (.slot rfl (hc a)) fun _ => .ok _
  | as =>
    refine .threeThen fun a p n => ?_
    refine .bind (.slot rfl (hc a)) fun _ => ?_
    refine .bind (.slotBelow rfl (hchild p)) fun _ => ?_
    exact .bind (.slot rfl (pointing_name n)) fun _ => .ok _
  | tuple =>
    refine .twoThen fun a ps => ?_
    refine .bind (.slot rfl (hc a)) fun _ => ?_
    exact .bind (.slotBelow rfl (pointing_list _ hchild ps)) fun _ => .ok _
  | constructor =>
    refine .threeThen fun a f ps => ?_
    refine .bind (.slot rfl (hc a)) fun _ => ?_
    refine .bind (.slot rfl (pointing_fqName f)) fun _ => ?_
    exact .bind (.slotBelow rfl (pointing_list _ hchild ps)) fun _ => .ok _
  | emptyList =>
    refine .oneThen fun a => ?_
    exact .bind (.slot rfl (hc a)) fun _ => .ok _
  | headTail =>
    refine .threeThen fun a h t => ?_
    refine .bind (.slot rfl (hc a)) fun _ => ?_
    refine .bind (.slotBelow rfl (hchild h)) fun _ => ?_
    exact .bind (.slotBelow rfl (hchild t)) fun _ => .ok _
  | literal =>
    refine .twoThen fun a l => ?_
    refine .bind (.slot rfl (hc a)) fun _ => ?_
    exact .bind (.slot rfl (pointing_literal l)) fun _ => .ok _
  | unit =>
    refine .oneThen fun a => ?_
    exact .bind (.slot rfl (hc a)) fun _ => .ok _

theorem pointing_patternAt (hc : ∀ {b}, Pointing b R c.decode) (fuel : Nat) :
    Pointing fuel R (patternAt c fuel) := by
  induction fuel with
  | zero => exact fun _ hd => absurd hd (Nat.not_lt_zero _)
  | succ fuel ih => exact pointing_patternNode hc ih

theorem pointing_pattern (hc : ∀ {b}, Pointing b R c.decode) : Pointing b R (decodePattern c) :=
  fun v _ => pointing_patternAt hc _ v (Nat.lt_succ_self _)

end Patterns

section Values

variable {c : Codec τ ν}

/-- Codecs of attributes whose issues arise in the attributes. -/
structure Codec.PointingAttrs (R : String → String → Prop) (c : Codec τ ν) : Prop where
  typeAttrs : ∀ {b}, Pointing b R c.typeAttrs.decode
  valueAttrs : ∀ {b}, Pointing b R c.valueAttrs.decode

theorem pointing_input (hc : c.PointingAttrs R) : Pointing b R (decodeInput c) := by
  intro v
  refine .arrayThen fun vs => ?_
  split
  · refine .bind (.item rfl (pointing_name _)) fun _ => ?_
    refine .bind (.item rfl (hc.valueAttrs _)) fun _ => ?_
    exact .bind (.item rfl (pointing_type hc.typeAttrs _)) fun _ => .ok _
  · exact .complain (by simp)

variable {child : Json → Decoded (Value τ ν)}

theorem within_taggedBody (hchild : Pointing b R child) (tag : BodyTag) (s : String)
    (fields : List Json) :
    Within b R (.array (.string s :: fields)) (taggedBody child tag fields) := by
  cases tag with
  | expression =>
    refine .oneThen fun v => ?_
    exact .bind (.item rfl (hchild v)) fun _ => .ok _
  | native =>
    refine .oneThen fun i => ?_
    exact .bind (.slot rfl (pointing_nativeInfo i)) fun _ => .ok _
  | external =>
    refine .twoThen fun s p => ?_
    refine .bind (.slot rfl (pointing_string _ s)) fun _ => ?_
    exact .bind (.slot rfl (pointing_string _ p)) fun _ => .ok _
  | incomplete =>
    refine .oneThen fun i => ?_
    exact .bind (.slot rfl (pointing_incompleteness i)) fun _ => .ok _

theorem pointing_bodyNode (hchild : Pointing b R child) : Pointing b R (bodyNode child) := by
  intro v
  rw [bodyNode]
  split
  · rename_i tag fields htag
    rw [bodyTag?.eq_def] at htag
    split at htag
    · obtain ⟨_, -, htag⟩ := Option.map_eq_some_iff.1 htag
      cases htag
      exact within_taggedBody hchild _ _ _
    · cases htag
  · exact (hchild v).bind fun _ => .ok _

theorem pointing_definitionNode (hc : c.PointingAttrs R) (hchild : Pointing b R child) :
    Pointing b R (definitionNode c child) := by
  intro v
  refine .objectThen fun ms => ?_
  refine .memberThen fun is his => ?_
  refine .bind (.member his (pointing_list _ (pointing_input hc) is)) fun _ => ?_
  refine .memberThen fun t ht => ?_
  refine .bind (.member ht (pointing_type hc.typeAttrs t)) fun _ => ?_
  refine .memberThen fun b hb => ?_
  exact .bind (.member hb (pointing_bodyNode hchild b)) fun _ => .ok _

theorem pointing_case (hc : c.PointingAttrs R) (hchild : Pointing b R child) :
    Pointing b R (decodeCase c child) := by
  intro v
  refine .pairThen fun p b => ?_
  refine .bind (.item rfl (pointing_pattern hc.valueAttrs p)) fun _ => ?_
  exact .bind (.item rfl (hchild b)) fun _ => .ok _

/-- One node of a value. -/
theorem pointing_valueNode (hc : c.PointingAttrs R) (hchild : Pointing b R child) :
    Pointing (b + 1) R (valueNode c child) := by
  intro v
  refine .taggedThen fun tag s fields => ?_
  cases tag with
  | literal =>
    refine .twoThen fun a l => ?_
    refine .bind (.slot rfl (hc.valueAttrs a)) fun _ => ?_
    exact .bind (.slot rfl (pointing_literal l)) fun _ => .ok _
  | constructor =>
    refine .twoThen fun a f => ?_
    refine .bind (.slot rfl (hc.valueAttrs a)) fun _ => ?_
    exact .bind (.slot rfl (pointing_fqName f)) fun _ => .ok _
  | tuple =>
    refine .twoThen fun a vs => ?_
    refine .bind (.slot rfl (hc.valueAttrs a)) fun _ => ?_
    exact .bind (.slotBelow rfl (pointing_list _ hchild vs)) fun _ => .ok _
  | list =>
    refine .twoThen fun a vs => ?_
    refine .bind (.slot rfl (hc.valueAttrs a)) fun _ => ?_
    exact .bind (.slotBelow rfl (pointing_list _ hchild vs)) fun _ => .ok _
  | record =>
    refine .twoThen fun a fs => ?_
    refine .bind (.slot rfl (hc.valueAttrs a)) fun _ => ?_
    exact .bind (.slotBelow rfl (pointing_list _ (pointing_namedPair _ hchild) fs)) fun _ => .ok _
  | «variable» =>
    refine .twoThen fun a n => ?_
    refine .bind (.slot rfl (hc.valueAttrs a)) fun _ => ?_
    exact .bind (.slot rfl (pointing_name n)) fun _ => .ok _
  | reference =>
    refine .twoThen fun a f => ?_
    refine .bind (.slot rfl (hc.valueAttrs a)) fun _ => ?_
    exact .bind (.slot rfl (pointing_fqName f)) fun _ => .ok _
  | field =>
    refine .threeThen fun a r n => ?_
    refine .bind (.slot rfl (hc.valueAttrs a)) fun _ => ?_
    refine .bind (.slotBelow rfl (hchild r)) fun _ => ?_
    exact .bind (.slot rfl (pointing_name n)) fun _ => .ok _
  | fieldFunction =>
    refine .twoThen fun a n => ?_
    refine .bind (.slot rfl (hc.valueAttrs a)) fun _ => ?_
    exact .bind (.slot rfl (pointing_name n)) fun _ => .ok _
  | apply =>
    refine .threeThen fun a f x => ?_
    refine .bind (.slot rfl (hc.valueAttrs a)) fun _ => ?_
    refine .bind (.slotBelow rfl (hchild f)) fun _ => ?_
    exact .bind (.slotBelow rfl (hchild x)) fun _ => .ok _
  | lambda =>
    refine .threeThen fun a p b => ?_
    refine .bind (.slot rfl (hc.valueAttrs a)) fun _ => ?_
    refine .bind (.slot rfl (pointing_pattern hc.valueAttrs p)) fun _ => ?_
    exact .bind (.slotBelow rfl (hchild b)) fun _ => .ok _
  | letDefinition =>
    refine .fourThen fun a n d b => ?_
    refine .bind (.slot rfl (hc.valueAttrs a)) fun _ => ?_
    refine .bind (.slot rfl (pointing_name n)) fun _ => ?_
    refine .bind (.slotBelow rfl (pointing_definitionNode hc hchild d)) fun _ => ?_
    exact .bind (.slotBelow rfl (hchild b)) fun _ => .ok _
  | letRecursion =>
    refine .threeThen fun a ds b => ?_
    refine .bind (.slot rfl (hc.valueAttrs a)) fun _ => ?_
    have hbindings := pointing_list "let bindings"
      (pointing_namedPair "let binding" (pointing_definitionNode hc hchild))
    refine .bind (.slotBelow rfl (hbindings ds)) fun _ => ?_
    exact .bind (.slotBelow rfl (hchild b)) fun _ => .ok _
  | destructure =>
    refine .fourThen fun a p x b => ?_
    refine .bind (.slot rfl (hc.valueAttrs a)) fun _ => ?_
    refine .bind (.slot rfl (pointing_pattern hc.valueAttrs p)) fun _ => ?_
    refine .bind (.slotBelow rfl (hchild x)) fun _ => ?_
    exact .bind (.slotBelow rfl (hchild b)) fun _ => .ok _
  | ifThenElse =>
    refine .fourThen fun a x t e => ?_
    refine .bind (.slot rfl (hc.valueAttrs a)) fun _ => ?_
    refine .bind (.slotBelow rfl (hchild x)) fun _ => ?_
    refine .bind (.slotBelow rfl (hchild t)) fun _ => ?_
    exact .bind (.slotBelow rfl (hchild e)) fun _ => .ok _
  | patternMatch =>
    refine .threeThen fun a x cs => ?_
    refine .bind (.slot rfl (hc.valueAttrs a)) fun _ => ?_
    refine .bind (.slotBelow rfl (hchild x)) fun _ => ?_
    exact .bind (.slotBelow rfl (pointing_list _ (pointing_case hc hchild) cs)) fun _ => .ok _
  | updateRecord =>
    refine .threeThen fun a r us => ?_
    refine .bind (.slot rfl (hc.valueAttrs a)) fun _ => ?_
    refine .bind (.slotBelow rfl (hchild r)) fun _ => ?_
    exact .bind (.slotBelow rfl (pointing_list _ (pointing_namedPair _ hchild) us)) fun _ => .ok _
  | unit =>
    refine .oneThen fun a => ?_
    exact .bind (.slot rfl (hc.valueAttrs a)) fun _ => .ok _
  | hole =>
    refine .threeThen fun a r t => ?_
    refine .bind (.slot rfl (hc.valueAttrs a)) fun _ => ?_
    refine .bind (.slot rfl (pointing_holeReason r)) fun _ => ?_
    exact .bind (.slot rfl (pointing_optionalType hc.typeAttrs t)) fun _ => .ok _
  | native =>
    refine .threeThen fun a f i => ?_
    refine .bind (.slot rfl (hc.valueAttrs a)) fun _ => ?_
    refine .bind (.slot rfl (pointing_fqName f)) fun _ => ?_
    exact .bind (.slot rfl (pointing_nativeInfo i)) fun _ => .ok _
  | external =>
    refine .threeThen fun a s p => ?_
    refine .bind (.slot rfl (hc.valueAttrs a)) fun _ => ?_
    refine .bind (.slot rfl (pointing_string _ s)) fun _ => ?_
    exact .bind (.slot rfl (pointing_string _ p)) fun _ => .ok _

theorem pointing_valueAt (hc : c.PointingAttrs R) (fuel : Nat) : Pointing fuel R (valueAt c fuel) := by
  induction fuel with
  | zero => exact fun _ hd => absurd hd (Nat.not_lt_zero _)
  | succ fuel ih => exact pointing_valueNode hc ih

theorem pointing_value (hc : c.PointingAttrs R) : Pointing b R (decodeValue c) :=
  fun v _ => pointing_valueAt hc _ v (Nat.lt_succ_self _)

theorem pointing_body (hc : c.PointingAttrs R) : Pointing b R (decodeBody c) :=
  fun v _ => pointing_bodyNode (pointing_valueAt hc _) v (Nat.lt_succ_self _)

theorem pointing_definition (hc : c.PointingAttrs R) : Pointing b R (decodeDefinition c) :=
  fun v _ => pointing_definitionNode hc (pointing_valueAt hc _) v (Nat.lt_succ_self _)

end Values

section Modules

variable {c : Codec τ ν}

theorem within_optionalEntries (ms : Members) (key what : String) (h : Pointing b R decode) :
    Within b R (.object ms) (optionalEntries ms key what decode) := by
  rw [optionalEntries]
  split
  · exact .ok _
  · rename_i hget
    exact .member (Json.mem_of_get? hget) (pointing_list what h _)

theorem pointing_typeEntry {c : AttrCodec τ} (hc : ∀ {b}, Pointing b R c.decode) :
    Pointing b R (decodeTypeEntry c) :=
  fun v => (pointing_namedPair _ (pointing_accessControlled (pointing_documented
    (pointing_typeDefinition hc))) v).bind fun _ => .ok _

theorem pointing_valueEntry (hc : c.PointingAttrs R) : Pointing b R (decodeValueEntry c) :=
  fun v => (pointing_namedPair _ (pointing_accessControlled (pointing_documented
    (pointing_definition hc))) v).bind fun _ => .ok _

theorem pointing_module (hc : c.PointingAttrs R) : Pointing b R (decodeModule c) := by
  intro v
  refine .objectThen fun ms => ?_
  refine .bind (within_optionalEntries ms _ _ (pointing_typeEntry hc.typeAttrs)) fun _ => ?_
  refine .bind (within_optionalEntries ms _ _ (pointing_valueEntry hc)) fun _ => ?_
  exact .bind (within_optionalString ms "doc") fun _ => .ok _

theorem pointing_typeSpecEntry {c : AttrCodec τ} (hc : ∀ {b}, Pointing b R c.decode) :
    Pointing b R (decodeTypeSpecEntry c) :=
  fun v => (pointing_namedPair _ (pointing_documented (pointing_typeSpecification hc)) v).bind
    fun _ => .ok _

theorem pointing_valueSpecEntry {c : AttrCodec τ} (hc : ∀ {b}, Pointing b R c.decode) :
    Pointing b R (decodeValueSpecEntry c) :=
  fun v => (pointing_namedPair _ (pointing_documented (pointing_valueSpecification hc)) v).bind
    fun _ => .ok _

theorem pointing_moduleSpec {c : AttrCodec τ} (hc : ∀ {b}, Pointing b R c.decode) :
    Pointing b R (decodeModuleSpec c) := by
  intro v
  refine .objectThen fun ms => ?_
  refine .bind (within_optionalEntries ms _ _ (pointing_typeSpecEntry hc)) fun _ => ?_
  refine .bind (within_optionalEntries ms _ _ (pointing_valueSpecEntry hc)) fun _ => ?_
  exact .bind (within_optionalString ms "doc") fun _ => .ok _

theorem pointing_package (hc : c.PointingAttrs R) : Pointing b R (decodePackage c) := by
  have hentry (m : Json) := pointing_pathPair (b := b) "module entry"
    (pointing_accessControlled (pointing_module hc)) m
  intro v
  refine .objectThen fun ms => ?_
  refine .memberThen fun modules hmem => ?_
  refine .bind (.member hmem (pointing_list _ (fun m => ?_) modules)) fun _ => .ok _
  exact (hentry m).bind fun _ => .ok _

theorem pointing_packageSpec {c : AttrCodec τ} (hc : ∀ {b}, Pointing b R c.decode) :
    Pointing b R (decodePackageSpec c) := by
  have hentry (m : Json) := pointing_pathPair (b := b) "module entry" (pointing_moduleSpec hc) m
  intro v
  refine .objectThen fun ms => ?_
  refine .memberThen fun modules hmem => ?_
  refine .bind (.member hmem (pointing_list _ (fun m => ?_) modules)) fun _ => .ok _
  exact (hentry m).bind fun _ => .ok _

theorem pointing_dependency {c : AttrCodec τ} (hc : ∀ {b}, Pointing b R c.decode) :
    Pointing b R (decodeDependency c) :=
  fun v => (pointing_pathPair _ (pointing_packageSpec hc) v).bind fun _ => .ok _

theorem pointing_entryKind : Pointing b R decodeEntryKind := by
  intro v
  refine (pointing_string _ v).bind fun s => ?_
  split
  · exact .ok _
  · exact .complain (by simp)

theorem pointing_entryBody : Pointing b R decodeEntryBody := by
  intro v
  refine .objectThen fun ms => ?_
  refine .memberThen fun t ht => ?_
  refine .bind (.member ht (pointing_fqName t)) fun _ => ?_
  refine .memberThen fun k hk => ?_
  refine .bind (.member hk (pointing_entryKind k)) fun _ => ?_
  exact .bind (within_optionalString ms "doc") fun _ => .ok _

theorem pointing_entryPoint : Pointing b R decodeEntryPoint :=
  fun v => (pointing_namedPair _ pointing_entryBody v).bind fun _ => .ok _

/-- Every issue of a distribution arises in it. -/
theorem pointing_distribution (hc : c.PointingAttrs R) : Pointing b R (decodeDistribution c) := by
  have hdependencies := pointing_list (b := b) "dependencies" (pointing_dependency hc.typeAttrs)
  intro v
  refine .taggedThen fun tag s fields => ?_
  cases tag with
  | library =>
    refine .threeThen fun p ds d => ?_
    refine .bind (.slot rfl (pointing_path p)) fun _ => ?_
    refine .bind (.slot rfl (hdependencies ds)) fun _ => ?_
    exact .bind (.slot rfl (pointing_package hc d)) fun _ => .ok _
  | specs =>
    refine .threeThen fun p ds d => ?_
    refine .bind (.slot rfl (pointing_path p)) fun _ => ?_
    refine .bind (.slot rfl (hdependencies ds)) fun _ => ?_
    exact .bind (.slot rfl (pointing_packageSpec hc.typeAttrs d)) fun _ => .ok _
  | application =>
    refine .fourThen fun p ds d es => ?_
    refine .bind (.slot rfl (pointing_path p)) fun _ => ?_
    refine .bind (.slot rfl (hdependencies ds)) fun _ => ?_
    refine .bind (.slot rfl (pointing_package hc d)) fun _ => ?_
    exact .bind (.slot rfl (pointing_list _ pointing_entryPoint es)) fun _ => .ok _

theorem pointingAttrs_codec : codec.PointingAttrs R :=
  ⟨fun _ => .ok _, fun _ => .ok _⟩

end Modules

end IrDialects.Classic
