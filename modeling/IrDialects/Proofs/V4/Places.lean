import IrDialects.Proofs.Classic.Places
import IrDialects.Proofs.V4.Attributes
import IrDialects.V4.Document

/-!
# Issues of V4 documents

Every decoder of V4 documents is pointing, the parts in the Classic form included. A field is named
by the key under which it was found, so the path goes where the decoder went.
-/

namespace IrDialects.V4

variable {α β : Type} {decode : Json → Decoded α} {b : Nat}

section Nodes

/-- The node whose members are those of an object, or of the body of a tagged one. -/
inductive Contents : Json → Node → Prop
  | plain (what : String) (ms : Members) : Contents (.object ms) ⟨what, ms, false⟩
  | tagged {key label : String} {v : Json} {ms : Members} :
      SpellsTag key label → (∀ m ∈ ms, v = .object ms) →
        Contents (.object [(key, v)]) ⟨label, ms, true⟩

/-- What stands in a node may be one level less deep than the node. -/
theorem Contents.locatedBelow {v w : Json} {n : Node} {key : String} {r : Decoded α}
    (h : Contents v n) (hm : (key, w) ∈ n.members) (hw : Within b SpellsTag w r) :
    Within (b + 1) SpellsTag v (n.located key r) := by
  cases h with
  | plain what ms => exact .memberBelow hm hw
  | @tagged tag label body ms hlabel hv =>
    have hinner := Within.memberBelow hm hw
    rw [← hv _ hm] at hinner
    refine Within.tagged (fun hd e he => ?_) _
    have hbody : body.depth < b + 1 :=
      (Json.depth_lt_of_mem_object (List.mem_singleton_self (tag, body))).trans hd
    cases r with
    | error e' =>
      cases he
      exact .body hlabel (hinner hbody _ rfl)
    | ok a => cases he

theorem Contents.missing {v : Json} {n : Node} (h : Contents v n) (name : String) :
    Arises SpellsTag v (n.missing name) := by
  cases h with
  | plain what ms => exact .here _ _ (by simp)
  | tagged hlabel _ => exact .body hlabel (.here _ _ (by simp))

theorem Contents.fieldBelow {v : Json} {n : Node} (h : Contents v n) (name : String)
    (hd : Pointing b SpellsTag decode) : Within (b + 1) SpellsTag v (n.field name decode) := by
  rw [Node.field]
  split
  · exact .error (h.missing name)
  · rename_i hfind
    exact h.locatedBelow (FieldName.mem_of_find? hfind) (hd _)

theorem Contents.optionalBelow {v : Json} {n : Node} (h : Contents v n) (name : String)
    (default : α) (hd : Pointing b SpellsTag decode) :
    Within (b + 1) SpellsTag v (n.optional name default decode) := by
  rw [Node.optional]
  split
  · exact .ok _
  · exact .ok _
  · rename_i hfind
    exact h.locatedBelow (FieldName.mem_of_find? hfind) (hd _)

theorem Contents.field {v : Json} {n : Node} (h : Contents v n) (name : String)
    (hd : Pointing b SpellsTag decode) : Within b SpellsTag v (n.field name decode) :=
  (h.fieldBelow name hd).weaken

theorem Contents.optional {v : Json} {n : Node} (h : Contents v n) (name : String) (default : α)
    (hd : Pointing b SpellsTag decode) : Within b SpellsTag v (n.optional name default decode) :=
  (h.optionalBelow name default hd).weaken

/-- A tagged node, with its contents. -/
theorem within_unwrap {v : Json} {table : TagTable α} {name : α → String}
    {f : α × Node → Decoded β} (kind : NodeKind) (hkind : kind.table = table.map name)
    (h : ∀ tag n, Contents v n → Within b SpellsTag v (f (tag, n))) :
    Within b SpellsTag v (unwrap table name v >>= f) := by
  have hlookup {key : String} {tag : α} (ht : table.find? key = some tag) :
      SpellsTag key (name tag) := by
    refine ⟨kind, ?_⟩
    rw [NodeKind.lookup?, hkind, TagTable.find?_map, ht, Option.map_some]
  -- Both what the wrapper complains about and what it hands on, since one case split gives both.
  have hwrapper : Within b SpellsTag v (Shape.wrapper table name v) ∧ ∀ tag ms,
      Shape.wrapper table name v = .ok (tag, ms) → Contents v ⟨name tag, ms, true⟩ := by
    rw [Shape.wrapper.eq_def]
    split
    · split
      · exact ⟨.error (.here _ _ (NodeKind.proper_unknownTag _ _)), fun _ _ he => by cases he⟩
      · rename_i ht
        split
        · refine ⟨.ok _, fun tag ms he => ?_⟩
          cases he
          exact .tagged (hlookup ht) (by simp)
        · refine ⟨.ok _, fun tag ms he => ?_⟩
          cases he
          exact .tagged (hlookup ht) fun _ _ => rfl
        · refine ⟨.error ?_, fun _ _ he => by cases he⟩
          exact .member (List.mem_singleton.2 rfl) (.here _ _ (by simp))
    · exact ⟨.complain (by simp), fun _ _ he => by cases he⟩
    · exact ⟨.complain (by simp), fun _ _ he => by cases he⟩
  obtain ⟨hwithin, hcontents⟩ := hwrapper
  refine .andThen (.bind hwithin fun _ => .ok _) fun p hp => ?_
  obtain ⟨⟨tag, ms⟩, hok, hp⟩ := Decoded.bind_eq_ok.1 hp
  cases hp
  exact h tag _ (hcontents tag ms hok)

theorem within_record {v : Json} {what : String} {f : Node → Decoded β}
    (h : ∀ n, Contents v n → Within b SpellsTag v (f n)) :
    Within b SpellsTag v (record what v >>= f) := by
  refine .andThen (.bind (pointing_object what v) fun _ => .ok _) fun n hn => ?_
  obtain ⟨ms, hms, hn⟩ := Decoded.bind_eq_ok.1 hn
  cases hn
  rw [Shape.object_eq_ok] at hms
  subst hms
  exact h _ (.plain what ms)

/-- The members that follow others. -/
theorem within_eachMember {decode : String → Json → Decoded α}
    (h : ∀ key, Pointing b SpellsTag (decode key)) {ms : Members} (before : Members) :
    Within b SpellsTag (.object (before ++ ms)) (eachMember decode ms) := by
  induction ms generalizing before with
  | nil => exact .ok _
  | cons m ms ih =>
    have hfirst : Within b SpellsTag (.object (before ++ m :: ms)) ((decode m.1 m.2).under m.1) :=
      .member (by simp) (h m.1 m.2)
    have hrest := ih (before ++ [m])
    rw [List.append_assoc] at hrest
    exact hfirst.bind fun _ => hrest.bind fun _ => .ok _

theorem pointing_keyed {decode : String → Json → Decoded α}
    (h : ∀ key, Pointing b SpellsTag (decode key)) : Pointing b SpellsTag (keyed decode) := by
  intro v
  exact .objectThen fun ms => within_eachMember h []

end Nodes

section Parts

theorem pointing_name : Pointing b SpellsTag decodeName := by
  intro v
  cases v with
  | string s => exact .ok _
  | array vs => exact Classic.pointing_name _
  | _ => exact .complain (by simp)

theorem pointing_path : Pointing b SpellsTag decodePath := by
  intro v
  cases v with
  | string s => exact .ok _
  | array vs => exact Classic.pointing_path _
  | _ => exact .complain (by simp)

theorem pointing_fqName : Pointing b SpellsTag decodeFQName := by
  intro v
  cases v with
  | string s =>
    rw [decodeFQName]
    split
    · exact .ok _
    · exact .complain (by simp)
  | array vs => exact Classic.pointing_fqName _
  | _ => exact .complain (by simp)

theorem pointing_literal : Pointing b SpellsTag decodeLiteral := by
  intro v
  rw [decodeLiteral.eq_def]
  split
  · exact Classic.pointing_literal _
  · exact within_unwrap .literal rfl fun tag n hn => hn.field _ (Classic.pointing_payload tag)

theorem pointing_holeReason : Pointing b SpellsTag decodeHoleReason := by
  intro v
  rw [decodeHoleReason.eq_def]
  split
  · exact Classic.pointing_holeReason _
  · refine within_unwrap .holeReason rfl fun tag n hn => ?_
    cases tag with
    | unresolvedReference => exact .bind (hn.field _ pointing_fqName) fun _ => .ok _
    | deletedDuringRefactor => exact .bind (hn.field _ (pointing_string _)) fun _ => .ok _
    | typeMismatch =>
      refine .bind (hn.field _ (pointing_string _)) fun _ => ?_
      exact .bind (hn.field _ (pointing_string _)) fun _ => .ok _
    | draft => exact .ok _

theorem pointing_incompleteness : Pointing b SpellsTag decodeIncompleteness := by
  intro v
  rw [decodeIncompleteness.eq_def]
  split
  · exact Classic.pointing_incompleteness _
  · refine within_unwrap .incompleteness rfl fun tag n hn => ?_
    cases tag with
    | draft => exact .ok _
    | hole => exact .bind (hn.field _ pointing_holeReason) fun _ => .ok _

theorem pointing_nativeHint : Pointing b SpellsTag decodeNativeHint := by
  intro v
  rw [decodeNativeHint.eq_def]
  split
  · refine within_unwrap .nativeHint rfl fun tag n hn => ?_
    cases tag with
    | platformSpecific => exact .bind (hn.field _ (pointing_string _)) fun _ => .ok _
    | arithmetic | comparison | stringOp | collectionOp => exact .ok _
  · exact Classic.pointing_nativeHint _

theorem within_description (ms : Members) :
    Within b SpellsTag (.object ms) (decodeDescription ms) := by
  rw [decodeDescription]
  split
  · exact .ok _
  · exact .ok _
  · rename_i hget
    exact .member (Json.mem_of_get? hget) (pointing_string _ _)

theorem pointing_nativeInfo : Pointing b SpellsTag decodeNativeInfo := by
  intro v
  refine .objectThen fun ms => ?_
  refine .memberThen fun hint hmem => ?_
  refine .bind (.member hmem (pointing_nativeHint hint)) fun _ => ?_
  exact .bind (within_description ms) fun _ => .ok _

theorem pointing_namedPair (what : String) (h : Pointing b SpellsTag decode) :
    Pointing b SpellsTag (namedPair what decode) := by
  intro v
  refine .pairThen fun n x => ?_
  refine .bind (.item rfl (pointing_name n)) fun _ => ?_
  exact .bind (.item rfl (h x)) fun _ => .ok _

theorem pointing_accessControlled (h : Pointing b SpellsTag decode) :
    Pointing b SpellsTag (accessControlled decode) := by
  intro v
  refine within_record fun n hn => ?_
  refine .bind (hn.field _ Classic.pointing_access) fun _ => ?_
  exact .bind (hn.field _ h) fun _ => .ok _

end Parts

section Attributes

theorem within_locationPart (ms : Members) (name : String) :
    Within b SpellsTag (.object ms) (locationPart ms name) := by
  rw [locationPart]
  split
  · exact .complain (by simp)
  · rename_i hfind
    exact .member (FieldName.mem_of_find? hfind) (pointing_int _ _)

theorem pointing_location : Pointing b SpellsTag decodeLocation := by
  intro v
  refine .objectThen fun ms => ?_
  refine .bind (within_locationPart ms _) fun _ => ?_
  refine .bind (within_locationPart ms _) fun _ => ?_
  refine .bind (within_locationPart ms _) fun _ => ?_
  exact .bind (within_locationPart ms _) fun _ => .ok _

theorem within_source (ms : Members) : Within b SpellsTag (.object ms) (sourceOf ms) := by
  rw [sourceOf]
  split
  · exact .ok _
  · exact .ok _
  · rename_i hfind
    exact .bind (.member (FieldName.mem_of_find? hfind) (pointing_location _)) fun _ => .ok _

theorem within_extensions (ms : Members) : Within b SpellsTag (.object ms) (extensionsOf ms) := by
  rw [extensionsOf]
  split
  · exact .ok _
  · exact .ok _
  · rename_i hfind
    exact .member (FieldName.mem_of_find? hfind) (pointing_object _ _)

/-- An empty attribute has no members, and none of them can be wrong. -/
theorem within_attrMembers {v : Json} {f : Members → Decoded α} (hnone : ∃ a, f [] = .ok a)
    (h : ∀ ms, Within b SpellsTag (.object ms) (f ms)) :
    Within b SpellsTag v (attrMembers v >>= f) := by
  rw [attrMembers]
  split
  · obtain ⟨a, ha⟩ := hnone
    rw [Decoded.ok_bind, ha]
    exact .ok _
  · exact .objectThen h

theorem pointing_typeAttrs : Pointing b SpellsTag decodeTypeAttrs := by
  intro v
  refine within_attrMembers ⟨_, rfl⟩ fun ms => ?_
  refine .bind (within_source ms) fun _ => ?_
  exact .bind (within_extensions ms) fun _ => .ok _

theorem pointing_valueAttrs : Pointing b SpellsTag decodeValueAttrs := by
  intro v
  refine within_attrMembers ⟨_, rfl⟩ fun ms => ?_
  refine .bind (within_source ms) fun _ => ?_
  exact .bind (within_extensions ms) fun _ => .ok _

theorem pointingAttrs_classicForm : classicForm.PointingAttrs SpellsTag :=
  ⟨pointing_typeAttrs, pointing_valueAttrs⟩

end Attributes

section Types

theorem within_shorthand (s : String) : Within b SpellsTag (.string s) (typeShorthand s) := by
  rw [typeShorthand]
  split
  · exact .ok _
  · dsimp only
    split
    · exact .complain (by simp)
    · exact .ok _

variable {child : Json → Decoded V4Type}

theorem pointing_fields (hchild : Pointing b SpellsTag child) :
    Pointing b SpellsTag (decodeFields child) :=
  pointing_keyed fun _ v => (hchild v).bind fun _ => .ok _

/-- One tagged node of a type. -/
theorem pointing_taggedType (hchild : Pointing b SpellsTag child) :
    Pointing (b + 1) SpellsTag (taggedType child) := by
  intro v
  refine within_unwrap .type rfl fun tag n hn => ?_
  refine .bind (hn.optional _ _ pointing_typeAttrs) fun a => ?_
  cases tag with
  | «variable» => exact .bind (hn.field _ pointing_name) fun _ => .ok _
  | reference =>
    refine .bind (hn.field _ pointing_fqName) fun _ => ?_
    exact .bind (hn.optionalBelow _ _ (pointing_list _ hchild)) fun _ => .ok _
  | tuple => exact .bind (hn.fieldBelow _ (pointing_list _ hchild)) fun _ => .ok _
  | record => exact .bind (hn.fieldBelow _ (pointing_fields hchild)) fun _ => .ok _
  | extensibleRecord =>
    refine .bind (hn.field _ pointing_name) fun _ => ?_
    exact .bind (hn.fieldBelow _ (pointing_fields hchild)) fun _ => .ok _
  | function =>
    refine .bind (hn.fieldBelow _ hchild) fun _ => ?_
    exact .bind (hn.fieldBelow _ hchild) fun _ => .ok _
  | unit => exact .ok _

theorem pointing_typeNode (hchild : Pointing b SpellsTag child) :
    Pointing (b + 1) SpellsTag (typeNode child) := by
  intro v
  cases v with
  | array vs => exact Classic.pointing_type pointing_typeAttrs _
  | string s => exact within_shorthand s
  | _ => exact pointing_taggedType hchild _

theorem pointing_typeAt (fuel : Nat) : Pointing fuel SpellsTag (typeAt fuel) := by
  induction fuel with
  | zero => exact fun _ hd => absurd hd (Nat.not_lt_zero _)
  | succ fuel ih => exact pointing_typeNode ih

theorem pointing_type : Pointing b SpellsTag decodeType :=
  fun v _ => pointing_typeAt _ v (Nat.lt_succ_self _)

/-- A type that may be left out. -/
theorem pointing_someType : Pointing b SpellsTag fun v => do return some (← decodeType v) :=
  fun v => (pointing_type v).bind fun _ => .ok _

end Types

section Patterns

variable {child : Json → Decoded (Pattern ValueAttrs)}

/-- One tagged node of a pattern. -/
theorem pointing_taggedPattern (hchild : Pointing b SpellsTag child) :
    Pointing (b + 1) SpellsTag (taggedPattern child) := by
  intro v
  refine within_unwrap .pattern rfl fun tag n hn => ?_
  refine .bind (hn.optional _ _ pointing_valueAttrs) fun a => ?_
  cases tag with
  | wildcard | emptyList | unit => exact .ok _
  | as =>
    refine .bind (hn.fieldBelow _ hchild) fun _ => ?_
    exact .bind (hn.field _ pointing_name) fun _ => .ok _
  | tuple => exact .bind (hn.fieldBelow _ (pointing_list _ hchild)) fun _ => .ok _
  | constructor =>
    refine .bind (hn.field _ pointing_fqName) fun _ => ?_
    exact .bind (hn.optionalBelow _ _ (pointing_list _ hchild)) fun _ => .ok _
  | headTail =>
    refine .bind (hn.fieldBelow _ hchild) fun _ => ?_
    exact .bind (hn.fieldBelow _ hchild) fun _ => .ok _
  | literal => exact .bind (hn.field _ pointing_literal) fun _ => .ok _

theorem pointing_patternNode (hchild : Pointing b SpellsTag child) :
    Pointing (b + 1) SpellsTag (patternNode child) := by
  intro v
  cases v with
  | array vs => exact Classic.pointing_pattern pointing_valueAttrs _
  | _ => exact pointing_taggedPattern hchild _

theorem pointing_patternAt (fuel : Nat) : Pointing fuel SpellsTag (patternAt fuel) := by
  induction fuel with
  | zero => exact fun _ hd => absurd hd (Nat.not_lt_zero _)
  | succ fuel ih => exact pointing_patternNode ih

theorem pointing_pattern : Pointing b SpellsTag decodePattern :=
  fun v _ => pointing_patternAt _ v (Nat.lt_succ_self _)

end Patterns

section Values

theorem within_valueShorthand (s : String) : Within b SpellsTag (.string s) (valueShorthand s) := by
  rw [valueShorthand]
  split
  · exact .ok _
  · dsimp only
    split
    · exact .complain (by simp)
    · exact .ok _

theorem pointing_input (key : String) : Pointing b SpellsTag (decodeInput key) := by
  intro v
  refine within_record fun n hn => ?_
  refine .bind (hn.optional _ _ pointing_valueAttrs) fun _ => ?_
  exact .bind (hn.field _ pointing_type) fun _ => .ok _

variable {child : Json → Decoded V4Value}

theorem pointing_taggedBody (hchild : Pointing b SpellsTag child) :
    Pointing b SpellsTag (taggedBody child) := by
  intro v
  refine within_unwrap .valueBody rfl fun tag n hn => ?_
  cases tag with
  | expression => exact .bind (hn.field _ hchild) fun _ => .ok _
  | native => exact .bind (hn.field _ pointing_nativeInfo) fun _ => .ok _
  | external =>
    refine .bind (hn.field _ (pointing_string _)) fun _ => ?_
    exact .bind (hn.field _ (pointing_string _)) fun _ => .ok _
  | incomplete => exact .bind (hn.field _ pointing_incompleteness) fun _ => .ok _

theorem pointing_bodyNode (hchild : Pointing b SpellsTag child) :
    Pointing b SpellsTag (bodyNode child) := by
  intro v
  rw [bodyNode.eq_def]
  split
  · exact Classic.pointing_body pointingAttrs_classicForm _
  · split
    · exact pointing_taggedBody hchild v
    · exact (hchild v).bind fun _ => .ok _

theorem pointing_definitionNode (hchild : Pointing b SpellsTag child) :
    Pointing b SpellsTag (definitionNode child) := by
  intro v
  refine within_record fun n hn => ?_
  refine .bind (hn.field _ (pointing_keyed pointing_input)) fun _ => ?_
  refine .bind (hn.field _ pointing_type) fun _ => ?_
  exact .bind (hn.field _ (pointing_bodyNode hchild)) fun _ => .ok _

theorem pointing_case (hchild : Pointing b SpellsTag child) :
    Pointing b SpellsTag (decodeCase child) := by
  intro v
  refine .pairThen fun p b => ?_
  refine .bind (.item rfl (pointing_pattern p)) fun _ => ?_
  exact .bind (.item rfl (hchild b)) fun _ => .ok _

theorem pointing_entries (hchild : Pointing b SpellsTag child) :
    Pointing b SpellsTag (decodeEntries child) :=
  pointing_keyed fun _ v => (hchild v).bind fun _ => .ok _

/-- One tagged node of a value. -/
theorem pointing_taggedValue (hchild : Pointing b SpellsTag child) :
    Pointing (b + 1) SpellsTag (taggedValue child) := by
  have hdefinition := pointing_definitionNode hchild
  intro v
  refine within_unwrap .value rfl fun tag n hn => ?_
  refine .bind (hn.optional _ _ pointing_valueAttrs) fun a => ?_
  cases tag with
  | literal => exact .bind (hn.field _ pointing_literal) fun _ => .ok _
  | constructor | reference => exact .bind (hn.field _ pointing_fqName) fun _ => .ok _
  | tuple | list => exact .bind (hn.fieldBelow _ (pointing_list _ hchild)) fun _ => .ok _
  | record => exact .bind (hn.fieldBelow _ (pointing_entries hchild)) fun _ => .ok _
  | «variable» | fieldFunction => exact .bind (hn.field _ pointing_name) fun _ => .ok _
  | field =>
    refine .bind (hn.fieldBelow _ hchild) fun _ => ?_
    exact .bind (hn.field _ pointing_name) fun _ => .ok _
  | apply =>
    refine .bind (hn.fieldBelow _ hchild) fun _ => ?_
    exact .bind (hn.fieldBelow _ hchild) fun _ => .ok _
  | lambda =>
    refine .bind (hn.field _ pointing_pattern) fun _ => ?_
    exact .bind (hn.fieldBelow _ hchild) fun _ => .ok _
  | letDefinition =>
    refine .bind (hn.field _ pointing_name) fun _ => ?_
    refine .bind (hn.fieldBelow _ hdefinition) fun _ => ?_
    exact .bind (hn.fieldBelow _ hchild) fun _ => .ok _
  | letRecursion =>
    refine .bind (hn.fieldBelow _ (pointing_list _ (pointing_namedPair _ hdefinition))) fun _ => ?_
    exact .bind (hn.fieldBelow _ hchild) fun _ => .ok _
  | destructure =>
    refine .bind (hn.field _ pointing_pattern) fun _ => ?_
    refine .bind (hn.fieldBelow _ hchild) fun _ => ?_
    exact .bind (hn.fieldBelow _ hchild) fun _ => .ok _
  | ifThenElse =>
    refine .bind (hn.fieldBelow _ hchild) fun _ => ?_
    refine .bind (hn.fieldBelow _ hchild) fun _ => ?_
    exact .bind (hn.fieldBelow _ hchild) fun _ => .ok _
  | patternMatch =>
    refine .bind (hn.fieldBelow _ hchild) fun _ => ?_
    exact .bind (hn.fieldBelow _ (pointing_list _ (pointing_case hchild))) fun _ => .ok _
  | updateRecord =>
    refine .bind (hn.fieldBelow _ hchild) fun _ => ?_
    exact .bind (hn.fieldBelow _ (pointing_list _ (pointing_namedPair _ hchild))) fun _ => .ok _
  | unit => exact .ok _
  | hole =>
    refine .bind (hn.field _ pointing_holeReason) fun _ => ?_
    exact .bind (hn.optional _ _ pointing_someType) fun _ => .ok _
  | native =>
    refine .bind (hn.field _ pointing_fqName) fun _ => ?_
    exact .bind (hn.field _ pointing_nativeInfo) fun _ => .ok _
  | external =>
    refine .bind (hn.field _ (pointing_string _)) fun _ => ?_
    exact .bind (hn.field _ (pointing_string _)) fun _ => .ok _

theorem pointing_valueNode (hchild : Pointing b SpellsTag child) :
    Pointing (b + 1) SpellsTag (valueNode child) := by
  intro v
  cases v with
  | array vs => exact Classic.pointing_value pointingAttrs_classicForm _
  | string s => exact within_valueShorthand s
  | _ => exact pointing_taggedValue hchild _

theorem pointing_valueAt (fuel : Nat) : Pointing fuel SpellsTag (valueAt fuel) := by
  induction fuel with
  | zero => exact fun _ hd => absurd hd (Nat.not_lt_zero _)
  | succ fuel ih => exact pointing_valueNode ih

theorem pointing_value : Pointing b SpellsTag decodeValue :=
  fun v _ => pointing_valueAt _ v (Nat.lt_succ_self _)

theorem pointing_definition : Pointing b SpellsTag decodeDefinition :=
  fun v _ => pointing_definitionNode (pointing_valueAt _) v (Nat.lt_succ_self _)

end Values

section Modules

theorem pointing_constructor : Pointing b SpellsTag decodeConstructor := by
  intro v
  refine within_record fun n hn => ?_
  refine .bind (hn.field _ pointing_name) fun _ => ?_
  have hargs := pointing_list (b := b) "list" (pointing_namedPair "constructor argument" pointing_type)
  exact .bind (hn.optional _ _ hargs) fun _ => .ok _

theorem pointing_typeDefinition : Pointing b SpellsTag decodeTypeDefinition := by
  intro v
  rw [decodeTypeDefinition.eq_def]
  split
  · exact Classic.pointing_typeDefinition pointing_typeAttrs _
  · refine within_unwrap .typeDefinition rfl fun tag n hn => ?_
    refine .bind (hn.optional _ _ (pointing_list _ pointing_name)) fun _ => ?_
    cases tag with
    | synonym => exact .bind (hn.field _ pointing_type) fun _ => .ok _
    | custom =>
      have hconstructors := pointing_accessControlled (b := b) (pointing_list "list" pointing_constructor)
      exact .bind (hn.field _ hconstructors) fun _ => .ok _
    | incomplete =>
      refine .bind (hn.field _ pointing_incompleteness) fun _ => ?_
      exact .bind (hn.optional _ _ pointing_someType) fun _ => .ok _

theorem pointing_typeSpecification : Pointing b SpellsTag decodeTypeSpecification := by
  intro v
  rw [decodeTypeSpecification.eq_def]
  split
  · exact Classic.pointing_typeSpecification pointing_typeAttrs _
  · refine within_unwrap .typeSpecification rfl fun tag n hn => ?_
    refine .bind (hn.optional _ _ (pointing_list _ pointing_name)) fun _ => ?_
    cases tag with
    | synonym => exact .bind (hn.field _ pointing_type) fun _ => .ok _
    | abstract => exact .ok _
    | custom => exact .bind (hn.field _ (pointing_list _ pointing_constructor)) fun _ => .ok _

theorem pointing_valueSpecification : Pointing b SpellsTag decodeValueSpecification := by
  intro v
  refine within_record fun n hn => ?_
  refine .bind (hn.field _ (pointing_fields pointing_type)) fun _ => ?_
  exact .bind (hn.field _ pointing_type) fun _ => .ok _

theorem Contents.doc {v : Json} {n : Node} (hn : Contents v n) : Within b SpellsTag v (docField n) :=
  hn.optional _ _ (pointing_string _)

theorem pointing_entry (h : Pointing b SpellsTag decode) :
    Pointing b SpellsTag (decodeEntry decode) := by
  intro v
  refine within_record fun n hn => ?_
  refine .bind (hn.field _ Classic.pointing_access) fun _ => ?_
  refine .bind hn.doc fun _ => ?_
  exact .bind (hn.field _ h) fun _ => .ok _

theorem pointing_specEntry (h : Pointing b SpellsTag decode) :
    Pointing b SpellsTag (decodeSpecEntry decode) := by
  intro v
  refine within_record fun n hn => ?_
  refine .bind hn.doc fun _ => ?_
  exact .bind (hn.field _ h) fun _ => .ok _

theorem pointing_module : Pointing b SpellsTag decodeModule := by
  intro v
  refine within_record fun n hn => ?_
  refine .bind (hn.optional _ _ (pointing_keyed fun _ w => ?_)) fun _ => ?_
  · exact (pointing_entry pointing_typeDefinition w).bind fun _ => .ok _
  refine .bind (hn.optional _ _ (pointing_keyed fun _ w => ?_)) fun _ => ?_
  · exact (pointing_entry pointing_definition w).bind fun _ => .ok _
  exact .bind hn.doc fun _ => .ok _

theorem pointing_moduleSpec : Pointing b SpellsTag decodeModuleSpec := by
  intro v
  refine within_record fun n hn => ?_
  refine .bind (hn.optional _ _ (pointing_keyed fun _ w => ?_)) fun _ => ?_
  · exact (pointing_specEntry pointing_typeSpecification w).bind fun _ => .ok _
  refine .bind (hn.optional _ _ (pointing_keyed fun _ w => ?_)) fun _ => ?_
  · exact (pointing_specEntry pointing_valueSpecification w).bind fun _ => .ok _
  exact .bind hn.doc fun _ => .ok _

theorem pointing_package : Pointing b SpellsTag decodePackage := by
  intro v
  refine within_record fun n hn => ?_
  refine .bind (hn.field _ (pointing_keyed fun _ w => ?_)) fun _ => .ok _
  exact (pointing_accessControlled pointing_module w).bind fun _ => .ok _

theorem pointing_packageSpec : Pointing b SpellsTag decodePackageSpec := by
  intro v
  refine within_record fun n hn => ?_
  refine .bind (hn.field _ (pointing_keyed fun _ w => ?_)) fun _ => .ok _
  exact (pointing_moduleSpec w).bind fun _ => .ok _

theorem pointing_dependency (key : String) : Pointing b SpellsTag (decodeDependency key) :=
  fun v => (pointing_packageSpec v).bind fun _ => .ok _

theorem pointing_entryPoint (key : String) : Pointing b SpellsTag (decodeEntryPoint key) := by
  intro v
  refine within_record fun n hn => ?_
  refine .bind (hn.field _ pointing_fqName) fun _ => ?_
  refine .bind (hn.field _ Classic.pointing_entryKind) fun _ => ?_
  exact .bind hn.doc fun _ => .ok _

/-- Every issue of a distribution arises in it. -/
theorem pointing_distribution : Pointing b SpellsTag decodeDistribution := by
  intro v
  rw [decodeDistribution.eq_def]
  split
  · exact Classic.pointing_distribution pointingAttrs_classicForm _
  · refine within_unwrap .distribution rfl fun tag n hn => ?_
    refine .bind (hn.field _ pointing_path) fun _ => ?_
    refine .bind (hn.optional _ _ (pointing_keyed pointing_dependency)) fun _ => ?_
    cases tag with
    | library => exact .bind (hn.field _ pointing_package) fun _ => .ok _
    | specs => exact .bind (hn.field _ pointing_packageSpec) fun _ => .ok _
    | application =>
      refine .bind (hn.field _ pointing_package) fun _ => ?_
      exact .bind (hn.optional _ _ (pointing_keyed pointing_entryPoint)) fun _ => .ok _

end Modules

end IrDialects.V4
