import IrDialects.Proofs.Classic.Content
import IrDialects.Proofs.V4.Value
import IrDialects.V4.Document

/-!
# Numbers and keys of the V4 form

The V4 form of a tree has no numbers but those of its attributes and literals and the version of a
document. Siblings are keyed by their names there, so the names decide which keys an object has.
-/

namespace IrDialects.V4

open Json.Reader (IsNumber isNumber_toString)

/-- The attributes and literals that meet the conditions are written with numbers that satisfy `num`
and objects whose keys satisfy `keys`, and so do the written names of siblings. -/
structure Contains (P : Conditions TypeAttrs ValueAttrs) (num : String → Prop)
    (keys : List String → Prop) : Prop where
  typeAttrs : ∀ a, P.typeAttrs a → (encodeTypeAttrs a).All num keys
  valueAttrs : ∀ a, P.valueAttrs a → (encodeValueAttrs a).All num keys
  literal : ∀ l, P.literal l → (Classic.encodePayload l).All num keys
  names : ∀ ns, P.Keyed ns → keys (ns.map Name.kebab)
  paths : ∀ ps, P.KeyedPaths ps → keys (ps.map Path.text)
  keys : ∀ ks : List String, ks.Nodup → keys ks

variable {P : Conditions TypeAttrs ValueAttrs} {num : String → Prop} {keys : List String → Prop}
  {m : Mode}

section Nodes

theorem keys_member_sublist (key : String) (v : Json) (empty : Bool) :
    (Json.keys (member m key v empty)).Sublist [key] := by
  cases h : empty && !m.isExpanded <;> simp [member, h, Json.keys]

theorem all_of_mem_member {key : String} {v : Json} {empty : Bool} (hv : v.All num keys) :
    ∀ p ∈ member m key v empty, p.2.All num keys := by
  cases h : empty && !m.isExpanded <;> simp [member, h, hv]

/-- Members that may be left out leave the keys distinct. -/
theorem Contains.all_object (h : Contains P num keys) {ms : Members} (ks : List String)
    (hk : (Json.keys ms).Sublist ks) (hks : ks.Nodup) (hms : ∀ p ∈ ms, p.2.All num keys) :
    (Json.object ms).All num keys :=
  .object (h.keys _ (hk.nodup hks)) hms

theorem Contains.all_wrapped (h : Contains P num keys) (tag : String) {ms : Members}
    (hms : (Json.object ms).All num keys) : (wrapped tag ms).All num keys :=
  .object (h.keys [tag] (List.nodup_singleton tag)) (by simpa using Json.all_object.1 hms)

/-- A member that may be left out behind the others of a node. -/
theorem Contains.all_append_member (h : Contains P num keys) (ms : Members) {key : String}
    {v : Json} {empty : Bool} (hk : (Json.keys ms ++ [key]).Nodup)
    (hms : ∀ p ∈ ms, p.2.All num keys) (hv : v.All num keys) :
    (Json.object (ms ++ member m key v empty)).All num keys := by
  refine h.all_object (Json.keys ms ++ [key]) ?_ hk ?_
  · rw [Json.keys_append]
    exact (List.Sublist.refl _).append (keys_member_sublist key v empty)
  · exact List.forall_mem_append.2 ⟨hms, all_of_mem_member hv⟩

theorem Contains.all_typeNode (h : Contains P num keys) {a : TypeAttrs} (ha : P.typeAttrs a)
    (tag : String) (ms : Members) (hk : (Json.keys ms ++ ["attrs"]).Nodup)
    (hms : ∀ p ∈ ms, p.2.All num keys) : (wrapped tag (ms ++ typeAttrMember m a)).All num keys :=
  h.all_wrapped tag (h.all_append_member ms hk hms (h.typeAttrs a ha))

theorem Contains.all_valueNode (h : Contains P num keys) {a : ValueAttrs} (ha : P.valueAttrs a)
    (tag : String) (ms : Members) (hk : (Json.keys ms ++ ["attrs"]).Nodup)
    (hms : ∀ p ∈ ms, p.2.All num keys) : (wrapped tag (ms ++ valueAttrMember m a)).All num keys :=
  h.all_wrapped tag (h.all_append_member ms hk hms (h.valueAttrs a ha))

/-- Siblings that are keyed by their names. -/
theorem Contains.all_keyed (h : Contains P num keys) {α : Type} {f : α → Name}
    {encode : α → Json} {xs : List α} (hk : P.Keyed (xs.map f))
    (hxs : ∀ x ∈ xs, (encode x).All num keys) :
    (Json.object (xs.map fun x => ((f x).kebab, encode x))).All num keys := by
  refine .object ?_ (List.forall_mem_map.2 hxs)
  simpa [Json.keys, Function.comp_def] using h.names _ hk

/-- Siblings that are keyed by their paths. -/
theorem Contains.all_keyedPaths (h : Contains P num keys) {α : Type} {f : α → Path}
    {encode : α → Json} {xs : List α} (hk : P.KeyedPaths (xs.map f))
    (hxs : ∀ x ∈ xs, (encode x).All num keys) :
    (Json.object (xs.map fun x => ((f x).text, encode x))).All num keys := by
  refine .object ?_ (List.forall_mem_map.2 hxs)
  simpa [Json.keys, Function.comp_def] using h.paths _ hk

end Nodes

section Parts

@[simp] theorem all_encodeName (n : Name) : (encodeName n).All num keys := .string _

@[simp] theorem all_encodePath (p : Path) : (encodePath p).All num keys := .string _

@[simp] theorem all_encodeFQName (f : FQName) : (encodeFQName f).All num keys := .string _

@[simp] theorem all_encodeParams (ps : List Name) : (encodeParams ps).All num keys := by
  simp [encodeParams]

theorem Contains.all_encodeLiteral (h : Contains P num keys) {l : Literal} (hl : P.literal l) :
    (encodeLiteral l).All num keys :=
  h.all_wrapped _ (by simp [Json.keys, h.keys, h.literal l hl])

theorem Contains.all_encodeHoleReason (h : Contains P num keys) (r : HoleReason) :
    (encodeHoleReason r).All num keys := by
  cases r <;> exact h.all_wrapped _ (by simp [Json.keys, h.keys])

theorem Contains.all_encodeIncompleteness (h : Contains P num keys) (i : Incompleteness) :
    (encodeIncompleteness i).All num keys := by
  cases i <;> exact h.all_wrapped _ (by simp [Json.keys, h.keys, h.all_encodeHoleReason])

theorem Contains.all_encodeNativeInfo (h : Contains P num keys) (i : NativeInfo) :
    (encodeNativeInfo m i).All num keys := by
  have hhint : (encodeNativeHint i.hint).All num keys := by
    cases i.hint <;> exact h.all_wrapped _ (by simp [Json.keys, h.keys])
  exact h.all_append_member [("hint", encodeNativeHint i.hint)] (by simp [Json.keys])
    (by simpa using hhint) (.string _)

end Parts

/-- The keys of a node that refers to something with arguments. -/
theorem nodup_keys_args (f : FQName) (v : Json) (empty : Bool) :
    (Json.keys (("fqname", encodeFQName f) :: member m "args" v empty) ++ ["attrs"]).Nodup := by
  have hargs := (keys_member_sublist (m := m) "args" v empty).cons_cons "fqname"
  exact (hargs.append_right ["attrs"]).nodup (by simp)

theorem Contains.all_encodeType (h : Contains P num keys) {t : V4Type} (ht : t.Satisfies P) :
    (encodeType m t).All num keys := by
  induction ht with
  | @«variable» a n ha _ =>
    exact h.all_typeNode ha "Variable" [("name", encodeName n)] (by simp [Json.keys]) (by simp)
  | @reference a f ts ha _ _ ih =>
    rw [encodeType, encodeTypes_eq_map]
    refine h.all_typeNode ha "Reference"
      (("fqname", encodeFQName f) :: member m "args" (.array (ts.map (encodeType m))) ts.isEmpty)
      ?_ ?_
    · exact nodup_keys_args f _ _
    · exact List.forall_mem_cons.2 ⟨.string _, all_of_mem_member (Json.all_array_map.2 ih)⟩
  | @tuple a ts ha _ ih =>
    rw [encodeType, encodeTypes_eq_map]
    exact h.all_typeNode ha "Tuple" [("elements", .array (ts.map (encodeType m)))]
      (by simp [Json.keys]) (by simpa using ih)
  | @record a fs ha hk _ ih =>
    rw [encodeType, encodeFields_eq_map]
    have hfs := h.all_keyed hk ih
    exact h.all_typeNode ha "Record" [("fields", _)] (by simp [Json.keys])
      (List.forall_mem_singleton.2 hfs)
  | @extensibleRecord a n fs ha _ hk _ ih =>
    rw [encodeType, encodeFields_eq_map]
    have hfs := h.all_keyed hk ih
    exact h.all_typeNode ha "ExtensibleRecord" [("variable", encodeName n), ("fields", _)]
      (by simp [Json.keys])
      (List.forall_mem_cons.2 ⟨.string _, List.forall_mem_singleton.2 hfs⟩)
  | @function a x y ha _ _ ihx ihy =>
    exact h.all_typeNode ha "Function" [("arg", encodeType m x), ("result", encodeType m y)]
      (by simp [Json.keys]) (by simp [ihx, ihy])
  | unit ha => exact h.all_typeNode ha "Unit" [] (by simp [Json.keys]) (by simp)

theorem Contains.all_encodePattern (h : Contains P num keys) {p : Pattern ValueAttrs}
    (hp : p.Satisfies P) : (encodePattern m p).All num keys := by
  induction hp with
  | wildcard ha => exact h.all_valueNode ha "WildcardPattern" [] (by simp [Json.keys]) (by simp)
  | emptyList ha => exact h.all_valueNode ha "EmptyListPattern" [] (by simp [Json.keys]) (by simp)
  | unit ha => exact h.all_valueNode ha "UnitPattern" [] (by simp [Json.keys]) (by simp)
  | @as a p n ha _ _ ih =>
    exact h.all_valueNode ha "AsPattern" [("pattern", encodePattern m p), ("name", encodeName n)]
      (by simp [Json.keys]) (by simp [ih])
  | @tuple a ps ha _ ih =>
    rw [encodePattern, encodePatterns_eq_map]
    exact h.all_valueNode ha "TuplePattern" [("elements", .array (ps.map (encodePattern m)))]
      (by simp [Json.keys]) (by simpa using ih)
  | @constructor a f ps ha _ _ ih =>
    rw [encodePattern, encodePatterns_eq_map]
    refine h.all_valueNode ha "ConstructorPattern"
      (("fqname", encodeFQName f) :: member m "args" (.array (ps.map (encodePattern m))) ps.isEmpty)
      ?_ ?_
    · exact nodup_keys_args f _ _
    · exact List.forall_mem_cons.2 ⟨.string _, all_of_mem_member (Json.all_array_map.2 ih)⟩
  | @headTail a x y ha _ _ ihx ihy =>
    exact h.all_valueNode ha "HeadTailPattern"
      [("head", encodePattern m x), ("tail", encodePattern m y)]
      (by simp [Json.keys]) (by simp [ihx, ihy])
  | @literal a l ha hl =>
    exact h.all_valueNode ha "LiteralPattern" [("literal", encodeLiteral l)] (by simp [Json.keys])
      (by simp [h.all_encodeLiteral hl])

section Values

theorem Contains.all_encodeInputs (h : Contains P num keys) {is : List (Input TypeAttrs ValueAttrs)}
    (hk : P.Keyed (is.map Input.name)) (his : ∀ i ∈ is, i.Satisfies P) :
    (Json.object (is.map (encodeInput m))).All num keys := by
  refine h.all_keyed (f := Input.name) hk fun i hi => ?_
  refine h.all_object ["type-attributes", "type"] ?_ (by simp) ?_
  · rw [Json.keys_append]
    exact (keys_member_sublist "type-attributes" _ _).append_right ["type"]
  · exact List.forall_mem_append.2 ⟨all_of_mem_member (h.valueAttrs _ (his i hi).attrs),
      List.forall_mem_singleton.2 (h.all_encodeType (his i hi).type)⟩

theorem Contains.all_encodeBody (h : Contains P num keys) {b : V4Body}
    (hb : ∀ v, b = .expression v → (encodeValue m v).All num keys) :
    (encodeBody m b).All num keys := by
  cases b with
  | expression v => exact h.all_wrapped _ (by simp [Json.keys, h.keys, hb v rfl])
  | native i => exact h.all_wrapped _ (by simp [Json.keys, h.keys, h.all_encodeNativeInfo])
  | external s p => exact h.all_wrapped _ (by simp [Json.keys, h.keys])
  | incomplete i =>
    exact h.all_wrapped _ (by simp [Json.keys, h.keys, h.all_encodeIncompleteness])

theorem Contains.all_encodeDefinition (h : Contains P num keys) {d : V4Definition} (hd : d.Framed P)
    (hb : ∀ v, d.body = .expression v → (encodeValue m v).All num keys) :
    (encodeDefinition m d).All num keys := by
  obtain ⟨is, t, b⟩ := d
  have his : (Json.object (is.map (encodeInput m))).All num keys :=
    h.all_encodeInputs hd.keys hd.inputs
  have ht : (encodeType m t).All num keys := h.all_encodeType hd.output
  have hbody : (encodeBody m b).All num keys := h.all_encodeBody hb
  refine .object (h.keys _ (by simp [Json.keys])) ?_
  simpa [ht, hbody] using his

theorem Contains.all_encodeValue (h : Contains P num keys) {v : V4Value} (hv : v.Satisfies P) :
    (encodeValue m v).All num keys := by
  -- Tag and members are given in each case: `simp` then evaluates the keys of the node.
  induction hv with
  | @literal a l ha hl =>
    exact h.all_valueNode ha "Literal" [("literal", encodeLiteral l)] (by simp [Json.keys])
      (by simp [h.all_encodeLiteral hl])
  | @constructor a f ha _ =>
    exact h.all_valueNode ha "Constructor" [("fqname", encodeFQName f)] (by simp [Json.keys])
      (by simp)
  | @tuple a vs ha _ ih =>
    rw [encodeValue, encodeValues_eq_map]
    exact h.all_valueNode ha "Tuple" [("elements", .array (vs.map (encodeValue m)))]
      (by simp [Json.keys]) (by simpa using ih)
  | @list a vs ha _ ih =>
    rw [encodeValue, encodeValues_eq_map]
    exact h.all_valueNode ha "List" [("items", .array (vs.map (encodeValue m)))]
      (by simp [Json.keys]) (by simpa using ih)
  | @record a fs ha hk _ ih =>
    rw [encodeValue, encodeEntries_eq_map]
    have hfs := h.all_keyed hk ih
    exact h.all_valueNode ha "Record" [("fields", _)] (by simp [Json.keys])
      (List.forall_mem_singleton.2 hfs)
  | @«variable» a n ha _ =>
    exact h.all_valueNode ha "Variable" [("name", encodeName n)] (by simp [Json.keys]) (by simp)
  | @reference a f ha _ =>
    exact h.all_valueNode ha "Reference" [("fqname", encodeFQName f)] (by simp [Json.keys]) (by simp)
  | @field a v n ha _ _ ih =>
    exact h.all_valueNode ha "Field" [("value", encodeValue m v), ("name", encodeName n)]
      (by simp [Json.keys]) (by simp [ih])
  | @fieldFunction a n ha _ =>
    exact h.all_valueNode ha "FieldFunction" [("name", encodeName n)] (by simp [Json.keys])
      (by simp)
  | @apply a f x ha _ _ ihf ihx =>
    exact h.all_valueNode ha "Apply" [("function", encodeValue m f), ("argument", encodeValue m x)]
      (by simp [Json.keys]) (by simp [ihf, ihx])
  | @lambda a p b ha hp _ ih =>
    exact h.all_valueNode ha "Lambda" [("pattern", encodePattern m p), ("body", encodeValue m b)]
      (by simp [Json.keys]) (by simp [h.all_encodePattern hp, ih])
  | @letDefinition a n d b ha _ hd _ _ ihv ihb =>
    exact h.all_valueNode ha "LetDefinition"
      [("name", encodeName n), ("definition", encodeDefinition m d), ("body", encodeValue m b)]
      (by simp [Json.keys]) (by simp [h.all_encodeDefinition hd ihv, ihb])
  | @letRecursion a ds b ha _ hds _ _ ihv ihb =>
    rw [encodeValue, encodeBindings_eq_map]
    refine h.all_valueNode ha "LetRecursion" [("bindings", .array (ds.map fun d =>
      .array [encodeName d.1, encodeDefinition m d.2])), ("body", encodeValue m b)]
      (by simp [Json.keys]) ?_
    simpa [ihb] using fun n d hd => h.all_encodeDefinition (hds (n, d) hd) (ihv (n, d) hd)
  | @destructure a p v b ha hp _ _ ihv ihb =>
    exact h.all_valueNode ha "Destructure"
      [("pattern", encodePattern m p), ("value", encodeValue m v), ("body", encodeValue m b)]
      (by simp [Json.keys]) (by simp [h.all_encodePattern hp, ihv, ihb])
  | @ifThenElse a x t e ha _ _ _ ihx iht ihe =>
    exact h.all_valueNode ha "IfThenElse" [("condition", encodeValue m x),
      ("then-branch", encodeValue m t), ("else-branch", encodeValue m e)]
      (by simp [Json.keys]) (by simp [ihx, iht, ihe])
  | @patternMatch a v cs ha _ hps _ ihv ihcs =>
    rw [encodeValue, encodeCases_eq_map]
    refine h.all_valueNode ha "PatternMatch" [("subject", encodeValue m v),
      ("cases", .array (cs.map fun k => .array [encodePattern m k.1, encodeValue m k.2]))]
      (by simp [Json.keys]) ?_
    simpa [ihv] using fun p v hk => ⟨h.all_encodePattern (hps (p, v) hk), ihcs (p, v) hk⟩
  | @updateRecord a v us ha _ _ _ ihv ihus =>
    rw [encodeValue, encodeUpdates_eq_map]
    refine h.all_valueNode ha "UpdateRecord" [("record", encodeValue m v),
      ("updates", .array (us.map fun u => .array [encodeName u.1, encodeValue m u.2]))]
      (by simp [Json.keys]) ?_
    simpa [ihv] using fun n v hu => ihus (n, v) hu
  | unit ha => exact h.all_valueNode ha "Unit" [] (by simp [Json.keys]) (by simp)
  | @hole a r t ha _ ht =>
    have htype : ∀ t' ∈ t, (encodeType m t').All num keys := fun t' h' => h.all_encodeType (ht t' h')
    refine h.all_valueNode ha "Hole" (("reason", encodeHoleReason r) ::
      t.toList.map fun t => ("tpe", encodeType m t)) ?_ ?_
    · cases t <;> simp [Json.keys]
    · cases t <;> simp_all [h.all_encodeHoleReason]
  | @native a f i ha _ =>
    exact h.all_valueNode ha "Native" [("fqname", encodeFQName f), ("info", encodeNativeInfo m i)]
      (by simp [Json.keys]) (by simp [h.all_encodeNativeInfo])
  | @external a s p ha =>
    exact h.all_valueNode ha "External"
      [("external-name", .string s), ("target-platform", .string p)] (by simp [Json.keys]) (by simp)

end Values

theorem Contains.all_encodeAccess (h : Contains P num keys) {v : Json} (hv : v.All num keys)
    (a : Access) : (Classic.encodeAccess a v).All num keys := by
  simp [Classic.encodeAccess, Json.keys, h.keys, hv]

theorem Contains.all_encodeConstructor (h : Contains P num keys) {k : Constructor TypeAttrs}
    (hk : k.Satisfies P) : (encodeConstructor m k).All num keys := by
  have hargs : (Json.array (encodeArguments m k.arguments)).All num keys := by
    simpa [encodeArguments] using fun n t ht => h.all_encodeType (hk.types (n, t) ht)
  exact h.all_append_member [("name", encodeName k.name)] (by simp [Json.keys]) (by simp) hargs

theorem Contains.all_encodeTypeDefinition (h : Contains P num keys) {d : TypeDefinition TypeAttrs}
    (hd : d.Satisfies P) : (encodeTypeDefinition m d).All num keys := by
  cases hd with
  | synonym _ ht => exact h.all_wrapped _ (by simp [Json.keys, h.keys, h.all_encodeType ht])
  | custom _ hks =>
    have hks' := h.all_encodeAccess (Json.all_array_map.2 fun k hk =>
      h.all_encodeConstructor (m := m) (hks k hk))
    exact h.all_wrapped _ (by simp [Json.keys, h.keys, hks'])
  | @incomplete ps i t _ _ ht =>
    cases t with
    | none => exact h.all_wrapped _ (by simp [Json.keys, h.keys, h.all_encodeIncompleteness])
    | some t =>
      have ht' : (encodeType m t).All num keys := h.all_encodeType (ht t rfl)
      exact h.all_wrapped _ (by simp [Json.keys, h.keys, h.all_encodeIncompleteness, ht'])

theorem Contains.all_encodeTypeSpecification (h : Contains P num keys)
    {s : TypeSpecification TypeAttrs} (hs : s.Satisfies P) :
    (encodeTypeSpecification m s).All num keys := by
  cases hs with
  | synonym _ ht => exact h.all_wrapped _ (by simp [Json.keys, h.keys, h.all_encodeType ht])
  | abstract _ => exact h.all_wrapped _ (by simp [Json.keys, h.keys])
  | custom _ hks =>
    refine h.all_wrapped _ ?_
    simpa [Json.keys, h.keys] using fun k hk => h.all_encodeConstructor (hks k hk)

theorem Contains.all_encodeValueSpecification (h : Contains P num keys)
    {s : ValueSpecification TypeAttrs} (hs : s.Satisfies P) :
    (encodeValueSpecification m s).All num keys := by
  have his := h.all_keyed hs.keys fun f hf => h.all_encodeType (m := m) (hs.inputs f hf)
  rw [encodeValueSpecification, encodeFields_eq_map]
  exact .object (h.keys _ (by simp [Json.keys])) (List.forall_mem_cons.2
    ⟨his, List.forall_mem_singleton.2 (h.all_encodeType hs.output)⟩)

theorem keys_documented_sublist (doc : String) (v : Json) :
    (Json.keys (docMember m doc ++ [("value", v)])).Sublist ["doc", "value"] := by
  rw [Json.keys_append]
  exact (keys_member_sublist "doc" _ _).append_right ["value"]

theorem Contains.all_encodeEntry (h : Contains P num keys) {v : Json} (hv : v.All num keys)
    (a : Access) (doc : String) : (encodeEntry m a doc v).All num keys := by
  refine h.all_object ["access", "doc", "value"] ?_ (by simp) ?_
  · exact (keys_documented_sublist doc v).cons_cons "access"
  · refine List.forall_mem_cons.2 ⟨.string _, List.forall_mem_append.2 ⟨?_, by simpa using hv⟩⟩
    exact all_of_mem_member (.string doc)

theorem Contains.all_encodeSpecEntry (h : Contains P num keys) {v : Json} (hv : v.All num keys)
    (doc : String) : (encodeSpecEntry m doc v).All num keys := by
  refine h.all_object ["doc", "value"] (keys_documented_sublist doc v) (by simp) ?_
  exact List.forall_mem_append.2 ⟨all_of_mem_member (.string doc), by simpa using hv⟩

/-- The types and the values of a module, and its documentation. -/
theorem Contains.all_modulePart (h : Contains P num keys) {types values : Members}
    (htypes : (Json.object types).All num keys) (hvalues : (Json.object values).All num keys)
    (doc : String) :
    (Json.object (("types", .object types) :: ("values", .object values) ::
      docMember m doc)).All num keys :=
  h.all_append_member [("types", .object types), ("values", .object values)] (by simp [Json.keys])
    (List.forall_mem_cons.2 ⟨htypes, List.forall_mem_singleton.2 hvalues⟩) (.string doc)

theorem Contains.all_encodeModule (h : Contains P num keys)
    {d : ModuleDefinition TypeAttrs ValueAttrs} (hd : d.Satisfies P) :
    (encodeModule m d).All num keys := by
  refine h.all_modulePart (h.all_keyed hd.typeKeys fun e he => ?_)
    (h.all_keyed hd.valueKeys fun e he => ?_) d.doc
  · exact h.all_encodeEntry (h.all_encodeTypeDefinition (hd.types e he)) e.access e.doc
  · refine h.all_encodeEntry (h.all_encodeDefinition (hd.values e he).framed fun v hv => ?_) e.access
      e.doc
    exact h.all_encodeValue ((hd.values e he).expression v hv)

theorem Contains.all_encodeModuleSpec (h : Contains P num keys) {s : ModuleSpecification TypeAttrs}
    (hs : s.Satisfies P) : (encodeModuleSpec m s).All num keys := by
  refine h.all_modulePart (h.all_keyed hs.typeKeys fun e he => ?_)
    (h.all_keyed hs.valueKeys fun e he => ?_) s.doc
  · exact h.all_encodeSpecEntry (h.all_encodeTypeSpecification (hs.types e he)) e.doc
  · exact h.all_encodeSpecEntry (h.all_encodeValueSpecification (hs.values e he)) e.doc

theorem Contains.all_encodePackage (h : Contains P num keys)
    {p : PackageDefinition TypeAttrs ValueAttrs} (hp : p.Satisfies P) :
    (encodePackage m p).All num keys := by
  refine .object (h.keys _ (by simp [Json.keys])) (List.forall_mem_singleton.2 ?_)
  exact h.all_keyedPaths hp.keys fun e he =>
    h.all_encodeAccess (h.all_encodeModule (hp.modules e he)) e.access

theorem Contains.all_encodePackageSpec (h : Contains P num keys) {p : PackageSpecification TypeAttrs}
    (hp : p.Satisfies P) : (encodePackageSpec m p).All num keys := by
  refine .object (h.keys _ (by simp [Json.keys])) (List.forall_mem_singleton.2 ?_)
  exact h.all_keyedPaths hp.keys fun e he => h.all_encodeModuleSpec (hp.modules e he)

theorem Contains.all_encodeEntryPoints (h : Contains P num keys) {es : List EntryPoint}
    (hes : EntryPoint.AllSatisfy P es) : (Json.object (es.map (encodeEntryPoint m))).All num keys := by
  refine h.all_keyed (f := EntryPoint.name) hes.keys fun e _ => ?_
  exact h.all_append_member [("target", encodeFQName e.target), ("kind", .string e.kind.name)]
    (by simp [Json.keys]) (by simp) (.string e.doc)

theorem Contains.all_encodeDistribution (h : Contains P num keys) {d : V4Distribution}
    (hd : d.Satisfies P) : (encodeDistribution m d).All num keys := by
  have hdeps : ∀ ds : List (Dependency TypeAttrs), Dependency.AllSatisfy P ds →
      (Json.object (ds.map fun d => (d.name.text, encodePackageSpec m d.specification))).All num
        keys := fun ds hds =>
    h.all_keyedPaths hds.keys fun d hd => h.all_encodePackageSpec (hds.specifications d hd)
  cases hd with
  | library _ hds hd =>
    have hds' := hdeps _ hds
    refine h.all_wrapped _ (.object (h.keys _ (by simp [distributionHead, Json.keys])) ?_)
    exact List.forall_mem_cons.2 ⟨.string _, List.forall_mem_cons.2
      ⟨hds', List.forall_mem_singleton.2 (h.all_encodePackage hd)⟩⟩
  | specs _ hds hs =>
    have hds' := hdeps _ hds
    refine h.all_wrapped _ (.object (h.keys _ (by simp [distributionHead, Json.keys])) ?_)
    exact List.forall_mem_cons.2 ⟨.string _, List.forall_mem_cons.2
      ⟨hds', List.forall_mem_singleton.2 (h.all_encodePackageSpec hs)⟩⟩
  | application _ hds hd hes =>
    have hds' := hdeps _ hds
    refine h.all_wrapped _ (.object (h.keys _ (by simp [distributionHead, Json.keys])) ?_)
    exact List.forall_mem_cons.2 ⟨.string _, List.forall_mem_cons.2 ⟨hds', List.forall_mem_cons.2
      ⟨h.all_encodePackage hd, List.forall_mem_singleton.2 (h.all_encodeEntryPoints hes)⟩⟩⟩

/-- The version of a document is written as a text or as the number 4. -/
theorem Contains.all_encodeDocument (h : Contains P num keys) (hnum : num (toString (4 : Int)))
    {d : V4Document} (hd : d.distribution.Satisfies P) : (encodeDocument m d).All num keys := by
  have hversion : (encodeVersion (writtenVersion d.version)).All num keys := by
    rw [writtenVersion]
    split
    · rename_i hmajor
      cases hv : d.version with
      | text s => exact .string s
      | number n =>
        rw [hv] at hmajor
        cases hmajor
        exact .number hnum
    · exact .string _
  simp [encodeDocument, Json.keys, h.keys, hversion, h.all_encodeDistribution hd]

section Written

theorem clean_encodeLocation {l : SourceLocation} (h : l.InRange) : (encodeLocation l).Clean := by
  have hnum : ∀ {n : Int}, Number.Whole.InRange n → (Json.ofInt n).Clean :=
    fun hn => .number (isNumber_toString hn)
  refine .object (by simp [Json.keys]) ?_
  simp [hnum h.startLine, hnum h.startColumn, hnum h.endLine, hnum h.endColumn]

theorem all_attrObject (hnum : ∀ s, IsNumber s → num s)
    (hkeys : ∀ ks : List String, ks.Nodup → keys ks) {source : Option SourceLocation}
    {key : String} {kept : Option Json} {extensions : Members}
    (hkey : ["source", key, "extensions"].Nodup) (hs : ∀ l ∈ source, l.InRange)
    (hk : ∀ v ∈ kept, v.All num keys) (he : (Json.object extensions).All num keys) :
    (attrObject source key kept extensions).All num keys := by
  have hsource : ∀ l ∈ source, (encodeLocation l).All num keys := fun l hl =>
    (clean_encodeLocation (hs l hl)).imp hnum hkeys
  refine .object (hkeys _ ?_) (List.forall_mem_append.2 ⟨List.forall_mem_append.2 ⟨?_, ?_⟩, ?_⟩)
  · cases source <;> cases kept <;> cases extensions <;> simp_all [Json.keys]
  · simpa using hsource
  · simpa using hk
  · cases extensions with
    | nil => simp
    | cons p ps => simpa using he

theorem clean_encodeTypeAttrs {a : TypeAttrs} (h : a.Written) : (encodeTypeAttrs a).Clean :=
  all_attrObject (fun _ hs => hs) (fun _ hks => hks) (by simp) h.source h.clean h.extensions

theorem clean_encodeValueAttrs {a : ValueAttrs} (h : a.Written) : (encodeValueAttrs a).Clean :=
  all_attrObject (fun _ hs => hs) (fun _ hks => hks) (by simp) h.source h.clean h.extensions

/-- Canonical names of siblings are written differently if the names differ. -/
theorem contains_written : Contains written IsNumber List.Nodup where
  typeAttrs _ := clean_encodeTypeAttrs
  valueAttrs _ := clean_encodeValueAttrs
  literal _ hl := hl.all_encodePayload
  names _ h := List.Nodup.map_on
    (fun n hn n' hn' => Name.kebab_inj (h.each n hn) (h.each n' hn')) h.all
  paths _ h := List.Nodup.map_on
    (fun p hp p' hp' => Path.text_inj (h.each p hp) (h.each p' hp')) h.all
  keys _ hks := hks

theorem contains_writable : Contains writable IsNumber (fun _ => True) where
  typeAttrs _ ha := (clean_encodeTypeAttrs ha).imp (fun _ h => h) fun _ _ => trivial
  valueAttrs _ ha := (clean_encodeValueAttrs ha).imp (fun _ h => h) fun _ _ => trivial
  literal _ hl := hl.all_encodePayload
  names _ _ := trivial
  paths _ _ := trivial
  keys _ _ := trivial

theorem isNumber_four : IsNumber (toString (4 : Int)) := isNumber_toString ⟨by omega, by omega⟩

theorem clean_encodeDocument {d : V4Document} (h : d.distribution.Satisfies written) :
    (encodeDocument m d).Clean :=
  contains_written.all_encodeDocument isNumber_four h

end Written

end IrDialects.V4
