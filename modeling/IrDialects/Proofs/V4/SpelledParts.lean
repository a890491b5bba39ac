import IrDialects.Proofs.V4.Spelling

/-!
# Reading the spellings of parts

One lemma for each way in which a node holds its parts: if a decoder reads the spellings of a part,
then the decoder that is built from it reads the spellings of the whole. From these follow the
spellings of names, attributes, literals and other nodes without types and values inside them.
-/

namespace IrDialects.V4

variable {α β : Type}

/-- A decoder gives `x` for every value that spells `x` and is nested less than `b` levels deep. -/
def Reads (b : Nat) (R : Json → α → Prop) (decode : Json → Decoded α) : Prop :=
  ∀ v x, v.depth < b → R v x → decode v = .ok x

section Fields

variable {ms : Members} {name : String} {v : Json}

theorem get?_eq_none_of_not_mem {k : String} (h : k ∉ Json.keys ms) : Json.get? ms k = none :=
  List.lookup_eq_none_iff.2 fun m hm => by
    simpa using fun e : k = m.1 => h (e ▸ List.mem_map_of_mem hm)

theorem StandsUnder.mem (h : StandsUnder ms name v) : ∃ key, (key, v) ∈ ms := by
  cases h with
  | hyphenated h => exact ⟨_, h⟩
  | camel _ _ h => exact ⟨_, h⟩

theorem StandsUnder.find? (hk : (Json.keys ms).Nodup) (h : StandsUnder ms name v) :
    ∃ key, FieldName.find? ms name = some (key, v) := by
  cases h with
  | hyphenated h => exact ⟨name, FieldName.find?_of_get? (Json.get?_eq_some_of_mem hk h)⟩
  | @camel key hn hc h =>
    refine (FieldName.exists_find?_eq_some hc).2 ?_
    rw [get?_eq_none_of_not_mem hn, Option.none_or, Json.get?_eq_some_of_mem hk h]

variable {R : Json → α → Prop} {default x : α}

/-- A field that may be left out is missing, `null`, or spells something. -/
theorem MayHave.find? (hk : (Json.keys ms).Nodup) (hnull : ∀ x, R .null x → x = default)
    (h : MayHave R default (.object ms) name x) :
    (x = default ∧ (FieldName.find? ms name = none ∨
      ∃ key, FieldName.find? ms name = some (key, .null))) ∨
    ∃ key v, FieldName.find? ms name = some (key, v) ∧ v ≠ .null ∧ v.depth < (Json.object ms).depth ∧
      R v x := by
  cases h with
  | @given _ _ v _ hv h =>
    obtain ⟨key, hf⟩ := hv.find? hk
    obtain ⟨k, hm⟩ := hv.mem
    by_cases hn : v = .null
    · subst hn
      exact .inl ⟨hnull x h, .inr ⟨key, hf⟩⟩
    · exact .inr ⟨key, v, hf, hn, Json.depth_lt_of_mem_object hm, h⟩
  | omitted h =>
    refine .inl ⟨rfl, ?_⟩
    cases h with
    | missing h hc =>
      refine .inl (FieldName.find?_eq_none (get?_eq_none_of_not_mem h) fun key hkey => ?_)
      exact get?_eq_none_of_not_mem (hc key hkey)
    | null h => exact .inr (h.find? hk)

/-- The node has been opened, and its members are nested less than `b` levels deep. -/
structure Opens (b : Nat) (o : Json) (n : Node) : Prop where
  object : o = .object n.members
  nodup : (Json.keys n.members).Nodup
  shallow : o.depth ≤ b

variable {b : Nat} {o : Json} {n : Node} {decode : Json → Decoded α}

theorem Reads.field (hr : Reads b R decode) (ho : Opens b o n) (h : Has R o name x) :
    n.field name decode = .ok x := by
  cases h with
  | @mk ms _ v _ hv h =>
    obtain rfl : ms = n.members := by simpa using ho.object
    obtain ⟨key, hf⟩ := hv.find? ho.nodup
    obtain ⟨k, hm⟩ := hv.mem
    have hd : v.depth < b := (Json.depth_lt_of_mem_object hm).trans_le ho.shallow
    exact field_eq_ok.2 ⟨key, v, hf, hr v x hd h⟩

theorem Reads.optional (hr : Reads b R decode) (hnull : ∀ x, R .null x → x = default)
    (ho : Opens b o n) (h : MayHave R default o name x) :
    n.optional name default decode = .ok x := by
  obtain ⟨rfl, hk, hd⟩ := ho
  rw [Node.optional]
  rcases h.find? hk hnull with ⟨rfl, hf | ⟨key, hf⟩⟩ | ⟨key, v, hf, hv, hdepth, hx⟩
  · rw [hf]
  · rw [hf]
  · rw [hf]
    have hread := hr v x (hdepth.trans_le hd) hx
    cases v <;> first | contradiction | exact located_eq_ok.2 hread

theorem Wraps.exists_eq_object {table : TagTable α} {tag : α} (h : Wraps table tag v o) :
    ∃ ms, v = .object ms := by
  cases h with
  | object => exact ⟨_, rfl⟩
  | null => exact ⟨_, rfl⟩

/-- A wrapped node is opened, and its members are read. -/
theorem Wraps.unwrap_bind {table : TagTable α} {tag : α} {tagName : α → String}
    {k : α × Node → Decoded β} {y : β} (h : Wraps table tag v o) (hd : v.depth < b + 1)
    (hk : ∀ n, Opens b o n → k (tag, n) = .ok y) : (unwrap table tagName v >>= k) = .ok y := by
  cases h with
  | @object key ms hf hkeys =>
    have hlt := Json.depth_lt_of_mem_object (List.mem_singleton_self (key, Json.object ms))
    dsimp only at hlt
    exact Decoded.bind_eq_ok.2 ⟨_, unwrap_wrapped hf ms, hk _ ⟨rfl, hkeys, by omega⟩⟩
  | @null key hf =>
    have hu : unwrap table tagName (.object [(key, .null)]) = .ok (tag, ⟨tagName tag, [], true⟩) := by
      simp [unwrap, Shape.wrapper, hf]
    have hempty : (Json.object []).depth ≤ b := Nat.le_of_lt_succ hd
    exact Decoded.bind_eq_ok.2 ⟨_, hu, hk _ ⟨rfl, List.nodup_nil, hempty⟩⟩

end Fields

section Containers

variable {b : Nat} {R : Json → α → Prop} {decode : Json → Decoded α}

theorem Reads.items (hr : Reads b R decode) : Reads b (Items R) (list decode) := by
  intro v xs hd h
  induction h with
  | nil => rfl
  | @cons v vs x xs h _ ih =>
    have hv : v.depth < b := (Json.depth_lt_of_mem_array (by simp)).trans hd
    have hvs : (Json.array vs).depth < b := by
      refine Nat.lt_of_le_of_lt ?_ hd
      simp only [Json.depth, Json.depthItems]
      omega
    obtain ⟨_, ⟨⟩, hall⟩ := Shape.list_eq_ok.1 (ih hvs)
    exact Shape.list_eq_ok.2 ⟨v :: vs, rfl, .cons (hr v x hv h) hall⟩

theorem items_null (xs : List α) : Items R .null xs → xs = [] := by
  rintro ⟨⟩

theorem reads_keyed {name : α → Name} {entry : String → Json → Decoded α}
    (hr : ∀ v x, v.depth < b → (name x).Canonical → R v x → entry (name x).kebab v = .ok x) :
    Reads b (Keyed name R) (keyed entry) := by
  intro v xs hd h
  induction h with
  | nil => rfl
  | @cons v ms x xs hn h _ ih =>
    have hv : v.depth < b :=
      (Json.depth_lt_of_mem_object (m := ((name x).kebab, v)) (by simp)).trans hd
    have hms : (Json.object ms).depth < b := by
      refine Nat.lt_of_le_of_lt ?_ hd
      simp only [Json.depth, Json.depthMembers]
      omega
    exact eachMember_eq_ok.2 (.cons (hr v x hv hn h) (eachMember_eq_ok.1 (ih hms)))

/-- Things keyed by name, as the fields of record types and of records are. -/
theorem Reads.entries (hr : Reads b R decode) :
    Reads b (Keyed Prod.fst fun v f => R v f.2)
      (keyed fun key v => return (Name.parse key, ← decode v)) := by
  refine reads_keyed fun v f hd hn h => ?_
  simp [hr v f.2 hd h, hn]

end Containers

section Names

variable {b : Nat}

theorem reads_text : Reads b SpellsText string := by
  rintro _ _ - ⟨⟩
  rfl

theorem reads_name : Reads b SpellsName decodeName := by
  intro v n _ h
  cases h with
  | text hn => exact decodeName_encodeName hn
  | words => exact Classic.decodeName_encodeName n

theorem SpellsQualifiedText.parse? {s : String} {f : FQName} (h : SpellsQualifiedText s f) :
    FQName.parse? s = some f := by
  cases h with
  | hash hf => exact hf.parse?_hashText
  | colons hf => exact hf.parse?_text

theorem reads_fqname : Reads b SpellsFQName decodeFQName := by
  intro v f _ h
  cases h with
  | text h => simp only [decodeFQName, h.parse?]
  | words => exact Classic.decodeFQName_encodeFQName f

theorem Reads.namedPair {α : Type} {R : Json → α → Prop} {decode : Json → Decoded α}
    (hr : Reads b R decode) (what : String) :
    Reads b (Pair SpellsName R) (namedPair what decode) := by
  rintro _ _ hd ⟨hn, h⟩
  obtain ⟨hdn, hdv⟩ := Classic.depth_lt_of_pair hd
  simp [V4.namedPair, Shape.pair, Shape.array, reads_name _ _ hdn hn, hr _ _ hdv h]

end Names

section Attributes

variable {b : Nat} {ms : Members}

theorem present_null {α : Type} {R : Json → α → Prop} (h : ∀ x, ¬ R .null x) (x : Option α) :
    Present R .null x → x = none := by
  rintro ⟨hx⟩
  exact absurd hx (h _)

theorem sourceOf_of_mayHave {source : Option SourceLocation} (hk : (Json.keys ms).Nodup)
    (h : MayHave (Present SpellsLocation) none (.object ms) "source" source) :
    sourceOf ms = .ok source := by
  have hnull : ∀ l, ¬ SpellsLocation .null l := by rintro _ ⟨⟩
  rw [sourceOf]
  rcases h.find? hk (present_null hnull) with
    ⟨rfl, hf | ⟨key, hf⟩⟩ | ⟨key, v, hf, -, -, ⟨⟨hl⟩⟩⟩
  · rw [hf]
  · rw [hf]
  · rw [hf]
    simp [SourceLocation.decodeLocation_eq_ok.2 ⟨_, rfl, hl⟩]

theorem keptMember_of_mayHave {name : String} {kept : Option Json} (hk : (Json.keys ms).Nodup)
    (h : MayHave (Present Keeps) none (.object ms) name kept) : keptMember ms name = kept := by
  have hnull : ∀ x, ¬ Keeps .null x := by
    rintro _ ⟨hne⟩
    exact hne rfl
  rw [keptMember]
  rcases h.find? hk (present_null hnull) with
    ⟨rfl, hf | ⟨key, hf⟩⟩ | ⟨key, v, hf, hv, -, ⟨⟨-⟩⟩⟩
  · rw [hf]
  · rw [hf]
  · rw [hf]
    cases v <;> first | contradiction | rfl

theorem extensionsOf_of_mayHave {extensions : Members} (hk : (Json.keys ms).Nodup)
    (h : MayHave KeepsMembers [] (.object ms) "extensions" extensions) :
    extensionsOf ms = .ok extensions := by
  rw [extensionsOf]
  rcases h.find? hk (by rintro _ ⟨⟩) with ⟨rfl, hf | ⟨key, hf⟩⟩ | ⟨key, v, hf, -, -, ⟨⟩⟩
  · rw [hf]
  · rw [hf]
  · rw [hf]
    rfl

theorem reads_typeAttrs : Reads b SpellsTypeAttrs decodeTypeAttrs := by
  intro v a _ h
  cases h with
  | empty hv =>
    simp [decodeTypeAttrs, attrMembers, hv, sourceOf, keptMember, extensionsOf,
      FieldName.find?_nil]
  | object hk hs hc he =>
    rw [decodeTypeAttrs, attrMembers_object, Decoded.ok_bind, sourceOf_of_mayHave hk hs,
      Decoded.ok_bind, extensionsOf_of_mayHave hk he, keptMember_of_mayHave hk hc]
    rfl

theorem reads_valueAttrs : Reads b SpellsValueAttrs decodeValueAttrs := by
  intro v a _ h
  cases h with
  | empty hv =>
    simp [decodeValueAttrs, attrMembers, hv, sourceOf, keptMember, extensionsOf,
      FieldName.find?_nil]
  | object hk hs ht he =>
    rw [decodeValueAttrs, attrMembers_object, Decoded.ok_bind, sourceOf_of_mayHave hk hs,
      Decoded.ok_bind, extensionsOf_of_mayHave hk he, keptMember_of_mayHave hk ht]
    rfl

theorem typeAttrs_null (a : TypeAttrs) : SpellsTypeAttrs .null a → a = {} := by
  rintro ⟨-⟩
  rfl

theorem valueAttrs_null (a : ValueAttrs) : SpellsValueAttrs .null a → a = {} := by
  rintro ⟨-⟩
  rfl

end Attributes

section Parts

variable {b : Nat}

theorem reads_literal : Reads b SpellsLiteral decodeLiteral := by
  intro v l hd h
  cases h with
  | node hw hl =>
    obtain ⟨ms, rfl⟩ := hw.exists_eq_object
    refine hw.unwrap_bind (Nat.lt_succ_of_lt hd) fun n ho => ?_
    have hread : Reads b (fun w l' => SpellsPayload w l' ∧ l' = l)
        (Classic.decodePayload (Classic.literalTag l)) := by
      rintro _ _ - ⟨⟨h⟩, rfl⟩
      exact Classic.decodePayload_encodePayload h
    cases hl with
    | mk hv h => exact hread.field ho (.mk hv ⟨h, rfl⟩)
  | classic hl => exact Classic.decodeLiteral_encodeLiteral hl

theorem reads_holeReason : Reads b SpellsHoleReason decodeHoleReason := by
  intro v r hd h
  cases h with
  | unresolvedReference hw hf =>
    obtain ⟨ms, rfl⟩ := hw.exists_eq_object
    refine hw.unwrap_bind (Nat.lt_succ_of_lt hd) fun n ho => ?_
    exact Decoded.bind_eq_ok.2 ⟨_, reads_fqname.field ho hf, rfl⟩
  | deletedDuringRefactor hw hs =>
    obtain ⟨ms, rfl⟩ := hw.exists_eq_object
    refine hw.unwrap_bind (Nat.lt_succ_of_lt hd) fun n ho => ?_
    exact Decoded.bind_eq_ok.2 ⟨_, reads_text.field ho hs, rfl⟩
  | typeMismatch hw hs ht =>
    obtain ⟨ms, rfl⟩ := hw.exists_eq_object
    refine hw.unwrap_bind (Nat.lt_succ_of_lt hd) fun n ho => ?_
    refine Decoded.bind_eq_ok.2 ⟨_, reads_text.field ho hs, ?_⟩
    exact Decoded.bind_eq_ok.2 ⟨_, reads_text.field ho ht, rfl⟩
  | draft hw =>
    obtain ⟨ms, rfl⟩ := hw.exists_eq_object
    exact hw.unwrap_bind (Nat.lt_succ_of_lt hd) fun n ho => rfl
  | classic =>
    have hclassic : decodeHoleReason (Classic.encodeHoleReason r) =
        Classic.decodeHoleReason (Classic.encodeHoleReason r) := by cases r <;> rfl
    rw [hclassic, Classic.decodeHoleReason_encodeHoleReason]

theorem reads_incompleteness : Reads b SpellsIncompleteness decodeIncompleteness := by
  intro v i hd h
  cases h with
  | hole hw hr =>
    obtain ⟨ms, rfl⟩ := hw.exists_eq_object
    refine hw.unwrap_bind (Nat.lt_succ_of_lt hd) fun n ho => ?_
    exact Decoded.bind_eq_ok.2 ⟨_, reads_holeReason.field ho hr, rfl⟩
  | draft hw =>
    obtain ⟨ms, rfl⟩ := hw.exists_eq_object
    exact hw.unwrap_bind (Nat.lt_succ_of_lt hd) fun n ho => rfl
  | classic =>
    have hclassic : decodeIncompleteness (Classic.encodeIncompleteness i) =
        Classic.decodeIncompleteness (Classic.encodeIncompleteness i) := by cases i <;> rfl
    rw [hclassic, Classic.decodeIncompleteness_encodeIncompleteness]

theorem reads_nativeHint : Reads b SpellsNativeHint decodeNativeHint := by
  intro v hint hd h
  cases h with
  | arithmetic hw =>
    obtain ⟨ms, rfl⟩ := hw.exists_eq_object
    exact hw.unwrap_bind (Nat.lt_succ_of_lt hd) fun n ho => rfl
  | comparison hw =>
    obtain ⟨ms, rfl⟩ := hw.exists_eq_object
    exact hw.unwrap_bind (Nat.lt_succ_of_lt hd) fun n ho => rfl
  | stringOp hw =>
    obtain ⟨ms, rfl⟩ := hw.exists_eq_object
    exact hw.unwrap_bind (Nat.lt_succ_of_lt hd) fun n ho => rfl
  | collectionOp hw =>
    obtain ⟨ms, rfl⟩ := hw.exists_eq_object
    exact hw.unwrap_bind (Nat.lt_succ_of_lt hd) fun n ho => rfl
  | platformSpecific hw hs =>
    obtain ⟨ms, rfl⟩ := hw.exists_eq_object
    refine hw.unwrap_bind (Nat.lt_succ_of_lt hd) fun n ho => ?_
    exact Decoded.bind_eq_ok.2 ⟨_, reads_text.field ho hs, rfl⟩
  | classic =>
    have hclassic : decodeNativeHint (Classic.encodeNativeHint hint) =
        Classic.decodeNativeHint (Classic.encodeNativeHint hint) := by cases hint <;> rfl
    rw [hclassic, Classic.decodeNativeHint_encodeNativeHint]

/-- A field whose name is one word has only one spelling. -/
theorem get?_of_find? {ms : Members} {name key : String} {v : Json}
    (hc : FieldName.camel? name = some name) (h : FieldName.find? ms name = some (key, v)) :
    Json.get? ms name = some v := by
  rw [FieldName.find?_eq_map hc, Option.map_eq_some_iff] at h
  obtain ⟨w, hw, ⟨⟩⟩ := h
  exact hw

theorem decodeDescription_of_mayHave {ms : Members} {description : String}
    (hk : (Json.keys ms).Nodup)
    (h : MayHave SpellsText "" (.object ms) "description" description) :
    decodeDescription ms = .ok description := by
  have hc : FieldName.camel? "description" = some "description" := rfl
  rw [decodeDescription]
  rcases h.find? hk (by rintro _ ⟨⟩) with ⟨rfl, hf | ⟨key, hf⟩⟩ | ⟨key, v, hf, -, -, ⟨⟩⟩
  · rw [FieldName.find?_eq_map hc, Option.map_eq_none_iff] at hf
    rw [hf]
  · rw [get?_of_find? hc hf]
  · rw [get?_of_find? hc hf]
    rfl

theorem reads_nativeInfo : Reads b SpellsNativeInfo decodeNativeInfo := by
  rintro _ ⟨hint, _⟩ hd ⟨hk, ⟨hv, hh⟩, hdescription⟩
  obtain ⟨key, hf⟩ := hv.find? hk
  obtain ⟨k, hm⟩ := hv.mem
  have hhint := reads_nativeHint _ hint ((Json.depth_lt_of_mem_object hm).trans hd) hh
  simp [decodeNativeInfo, Shape.object, Shape.member, get?_of_find? rfl hf, hhint,
    decodeDescription_of_mayHave hk hdescription]

end Parts

end IrDialects.V4
