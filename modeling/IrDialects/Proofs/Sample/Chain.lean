import IrDialects.Proofs.Traverse.Counting
import IrDialects.Proofs.V4.RoundTrip
import IrDialects.Sample.Chain

/-!
# Chains of any depth

The text of a chain is flat: openings, the innermost variable, endings. It spells the same value as the
Classic form of the tree, which grows by an application around it. So both dialects read the chain from
the text, as long as the reader of JSON bears the nesting.
-/

namespace IrDialects.Sample

open Json.Reader (depthLimit)

variable {τ ν : Type} (b : Builder τ ν) (n : Nat)

/-- A longer chain has one more application around it. -/
theorem applyChain_succ :
    applyChain b (n + 1) = .apply b.onValues (applyChain b n) (b.var "x") := by
  rw [applyChain, Builder.apply, List.replicate_succ', List.foldl_append]
  rfl

section Form

/-- The Classic form of a variable with an attribute. -/
def variableForm (attrs : Json) (name : String) : Json :=
  .array [.string "Variable", attrs, .array [.string name]]

/-- The Classic form of a chain with an attribute at every node. -/
def chainForm (attrs : Json) : Nat → Json
  | 0 => variableForm attrs "f"
  | n + 1 => .array [.string "Apply", attrs, chainForm attrs n, variableForm attrs "x"]

variable {attrs : Json}

theorem depth_chainForm (h : attrs.depth ≤ 1) : (chainForm attrs n).depth = n + 2 := by
  have hvariable (name : String) : (variableForm attrs name).depth = 2 := by
    simp only [variableForm, Json.depth, Json.depthItems]
    omega
  induction n with
  | zero => exact hvariable "f"
  | succ n ih =>
    simp only [chainForm, Json.depth, Json.depthItems, ih, hvariable]
    omega

theorem clean_chainForm (h : attrs.Clean) : (chainForm attrs n).Clean := by
  have hvariable (name : String) : (variableForm attrs name).Clean := by simp [variableForm, h]
  induction n with
  | zero => exact hvariable "f"
  | succ n ih => simp [chainForm, h, ih, hvariable]

theorem encodeValue_applyChain (c : Classic.Codec τ ν) :
    Classic.encodeValue c (applyChain b n) = chainForm (c.valueAttrs.encode b.onValues) n := by
  induction n with
  | zero => rfl
  | succ n ih =>
    rw [applyChain_succ, Classic.encodeValue, ih]
    rfl

end Form


section Reading

variable {c : Classic.Codec τ ν} {attrs : Json}

theorem valueAt_variableForm (ha : c.valueAttrs.decode attrs = .ok b.onValues) (fuel : Nat)
    (name : String) : Classic.valueAt c (fuel + 1) (variableForm attrs name) =
      .ok (.variable b.onValues ⟨[name]⟩) := by
  have hname : Classic.decodeName (.array [.string name]) = .ok ⟨[name]⟩ :=
    Classic.decodeName_encodeName ⟨[name]⟩
  refine Decoded.bind_eq_ok.2 ⟨_, Shape.tagged_ok (ValueTag.find?_name .variable) _, ?_⟩
  simp [Shape.two, ha, hname]

/-- The Classic form of a chain is read as the chain, if its attribute is read as that of the tree. -/
theorem valueAt_chainForm (ha : c.valueAttrs.decode attrs = .ok b.onValues) {fuel : Nat}
    (hf : (chainForm attrs n).depth < fuel) :
    Classic.valueAt c fuel (chainForm attrs n) = .ok (applyChain b n) := by
  induction n generalizing fuel with
  | zero =>
    obtain ⟨fuel, rfl⟩ := Classic.exists_fuel hf
    exact valueAt_variableForm b ha fuel "f"
  | succ n ih =>
    obtain ⟨fuel, rfl⟩ := Classic.exists_fuel hf
    obtain ⟨-, -, hfun, harg⟩ := Classic.forall_depth_lt hf
    obtain ⟨fuel', rfl⟩ := Classic.exists_fuel harg
    have hx := valueAt_variableForm b ha fuel' "x"
    rw [applyChain_succ]
    refine Decoded.bind_eq_ok.2 ⟨_, Shape.tagged_ok (ValueTag.find?_name .apply) _, ?_⟩
    simp [Shape.three, ha, ih hfun, hx]
    rfl

theorem decodeValue_chainForm (ha : c.valueAttrs.decode attrs = .ok b.onValues) :
    Classic.decodeValue c (chainForm attrs n) = .ok (applyChain b n) :=
  valueAt_chainForm b n ha (Nat.lt_succ_self _)

/-- V4 reads arrays in the Classic form. -/
theorem v4_decodeValue_chainForm {b : Builder TypeAttrs ValueAttrs}
    (ha : V4.classicForm.valueAttrs.decode attrs = .ok b.onValues) :
    V4.decodeValue (chainForm attrs n) = .ok (applyChain b n) := by
  have hnode : V4.decodeValue (chainForm attrs n) =
      Classic.decodeValue V4.classicForm (chainForm attrs n) := by
    cases n <;> rfl
  rw [hnode, decodeValue_chainForm b n ha]

end Reading

section Text

open Json.Writer (value)

/-- What the text of a chain has in front of a chain that is one shorter. -/
def opening : String := "[\"Apply\",null,"

/-- The text of the function at the bottom of a chain. -/
def innermost : String := "[\"Variable\",null,[\"f\"]]"

/-- What the text of a chain has after the shorter chain. -/
def ending : String := ",[\"Variable\",null,[\"x\"]]]"

theorem value_chainForm_succ (rest : List Char) :
    value ⟨true⟩ (chainForm .null (n + 1)) rest =
      opening.toList ++ value ⟨true⟩ (chainForm .null n) (ending.toList ++ rest) := rfl

theorem value_chainForm (rest : List Char) :
    value ⟨true⟩ (chainForm .null n) rest =
      (List.replicate n opening.toList).flatten ++
        (innermost.toList ++ ((List.replicate n ending.toList).flatten ++ rest)) := by
  induction n generalizing rest with
  | zero => rfl
  | succ n ih =>
    -- the new application is the outermost one: first of the openings, last of the endings
    rw [value_chainForm_succ, ih, List.replicate_succ, List.replicate_succ', List.flatten_cons,
      List.flatten_concat]
    simp only [List.append_assoc]

/-- The flat text is what is written for the Classic form with `null` for all attributes. -/
theorem marshal_chainForm : Json.marshal (chainForm .null n) = .ok (applyChainText n) := by
  have hclean : (chainForm .null n).Clean := clean_chainForm n .null
  have htext : applyChainText n = String.join (List.replicate n opening) ++ innermost ++
      String.join (List.replicate n ending) := rfl
  have hchars : (applyChainText n).toList = value ⟨true⟩ (chainForm .null n) [] := by
    simp only [htext, String.toList_append, String.toList_join, List.map_replicate,
      value_chainForm, List.append_assoc, List.append_nil, List.flatMap_def]
  rw [Json.marshal, Json.Writer.settle_eq_self hclean.orderly,
    Json.Writer.text_eq_ok (Json.fault?_eq_none_of_isNumber hclean), ← hchars, String.ofList_toList]

/-- The outcome of reading a text for `a` with so many levels of nesting: the reader of JSON refuses
what goes beyond its limit. -/
def upToLimit {α : Type} (depth : Nat) (a : α) : Except Fault α :=
  if depth ≤ depthLimit then .ok a else .error (.plain "invalid JSON")

theorem ofBytes_of_decode {α : Type} {decode : Json → Decoded α} {v : Json} {a : α} {text : String}
    (hv : v.Clean) (ht : Json.marshal v = .ok text) (h : decode v = .ok a) :
    Decoded.ofBytes decode (Text.Bytes.encode text) = upToLimit v.depth a := by
  rw [Decoded.ofBytes_marshal decode hv.orderly ht, h]
  rfl

theorem ofBytes_applyChainText {α : Type} {decode : Json → Decoded α} {a : α}
    (h : decode (chainForm .null n) = .ok a) :
    Decoded.ofBytes decode (Text.Bytes.encode (applyChainText n)) = upToLimit (n + 2) a := by
  have hdepth : (chainForm .null n).depth = n + 2 := depth_chainForm n (Nat.zero_le 1)
  rw [ofBytes_of_decode (clean_chainForm n .null) (marshal_chainForm n) h, hdepth]

theorem classic_readValue_applyChainText :
    Classic.readValue (Text.Bytes.encode (applyChainText n)) =
      upToLimit (n + 2) (applyChain .classic n) :=
  ofBytes_applyChainText n (decodeValue_chainForm .classic n rfl)

theorem v4_readValue_applyChainText :
    V4.readValue (Text.Bytes.encode (applyChainText n)) = upToLimit (n + 2) (applyChain .v4 n) :=
  ofBytes_applyChainText n (v4_decodeValue_chainForm n rfl)

end Text

section Counts

theorem preorder_var (name : String) (path : List String) :
    (Visit.value (b.var name) : Visit τ ν).preorder (fun _ => true) path =
      [⟨path, .value (b.var name)⟩] := by
  rw [Visit.preorder_eq]
  rfl

theorem preorder_applyChain_succ (path : List String) :
    (Visit.value (applyChain b (n + 1))).preorder (fun _ => true) path =
      ⟨path, .value (applyChain b (n + 1))⟩ ::
        ((Visit.value (applyChain b n)).preorder (fun _ => true) (path ++ ["function"]) ++
          [⟨path ++ ["argument"], .value (b.var "x")⟩]) := by
  rw [applyChain_succ, Visit.preorder_eq, if_pos rfl, Visit.parts, Value.parts, Sighting.tour_cons,
    Sighting.tour_cons, Sighting.tour_nil, preorder_var, List.append_nil]

/-- Each application adds two values, itself and its argument, and nothing else. -/
theorem number_preorder_applyChain (path : List String) (k : Visit.Kind) :
    Sighting.number ((Visit.value (applyChain b n)).preorder (fun _ => true) path) k =
      if k = .value then 2 * n + 1 else 0 := by
  have hnil : Sighting.number ([] : List (Sighting τ ν)) k = 0 := rfl
  have hcons (path : List String) (v : Value τ ν) (ms : List (Sighting τ ν)) :
      Sighting.number (⟨path, .value v⟩ :: ms) k =
        Sighting.number ms k + if k = .value then 1 else 0 := by
    rw [Sighting.number_cons]
    exact congrArg _ (if_congr eq_comm rfl rfl)
  induction n generalizing path with
  | zero =>
    have hzero : applyChain b 0 = b.var "f" := rfl
    rw [hzero, preorder_var, hcons, hnil, Nat.zero_add, Nat.mul_zero, Nat.zero_add]
  | succ n ih =>
    rw [preorder_applyChain_succ, hcons, Sighting.number_append, ih, hcons, hnil]
    split
    · omega
    · rfl

theorem ofValue_applyChain : Stats.ofValue (applyChain b n) = { valueNodes := 2 * n + 1 } := by
  have hnumber (k : Visit.Kind) : Sighting.number (Root.value (applyChain b n)).nodes k =
      if k = .value then 2 * n + 1 else 0 := by
    rw [Root.nodes, Root.parts, Sighting.tour_cons, Sighting.tour_nil, List.append_nil]
    exact number_preorder_applyChain b n _ k
  rw [Stats.ofValue_eq_total, Stats.total]
  simp only [hnumber]
  rfl

end Counts

section Trees

variable {τ' ν' : Type} (f : τ → τ') (g : ν → ν')

/-- Replacing the attributes of a chain gives the chain with the other attributes. -/
theorem mapAttrs_applyChain :
    (applyChain b n).mapAttrs f g = applyChain ⟨f b.onTypes, g b.onValues⟩ n := by
  induction n with
  | zero => rfl
  | succ n ih =>
    rw [applyChain_succ, applyChain_succ, Value.mapAttrs, ih]
    rfl

variable {P : Conditions τ ν}

theorem satisfies_applyChain (ha : P.valueAttrs b.onValues) (hf : P.name (.parse "f"))
    (hx : P.name (.parse "x")) : (applyChain b n).Satisfies P := by
  induction n with
  | zero => exact .variable ha hf
  | succ n ih =>
    rw [applyChain_succ]
    exact .apply ha ih (.variable ha hx)

end Trees

section Writing

/-- The levels of nesting in the V4 text of a variable without attributes: only an expanded text has
an object for the attributes. -/
def variableDepth : V4.Mode → Nat
  | .compact => 2
  | .expanded => 3

theorem depth_encodeValue_applyChain (m : V4.Mode) :
    (V4.encodeValue m (applyChain .v4 n)).depth = 2 * n + variableDepth m := by
  have hvariable (name : String) :
      (V4.encodeValue m (Builder.var .v4 name)).depth = variableDepth m := by
    cases m <;> rfl
  have hattrs : Json.depthMembers (V4.valueAttrMember m Builder.v4.onValues) ≤ 1 := by
    cases m <;> decide
  have hpos : 1 ≤ variableDepth m := by cases m <;> decide
  induction n with
  | zero => exact (hvariable "f").trans (Nat.zero_add _).symm
  | succ n ih =>
    rw [applyChain_succ, V4.encodeValue, V4.wrapped]
    simp only [Json.depth, Json.depthMembers, ih, hvariable]
    omega

theorem classic_writeValue_applyChain :
    ∃ text, Classic.writeValue (applyChain .classic n) = .ok text ∧
      Classic.readValue (Text.Bytes.encode text) = upToLimit (n + 2) (applyChain .classic n) := by
  have hform : Classic.encodeValue Classic.codec (applyChain .classic n) =
      chainForm (.object []) n := encodeValue_applyChain .classic n Classic.codec
  have hclean : (chainForm (.object []) n).Clean :=
    clean_chainForm n (.object List.nodup_nil (List.forall_mem_nil _))
  have hdepth : (chainForm (.object []) n).depth = n + 2 := depth_chainForm n (Nat.le_refl 1)
  obtain ⟨text, ht⟩ := Json.exists_marshal hclean
  refine ⟨text, by rw [Classic.writeValue, hform, ht], ?_⟩
  rw [← hdepth]
  exact ofBytes_of_decode hclean ht (decodeValue_chainForm .classic n rfl)

theorem v4_writeValue_applyChain (m : V4.Mode) :
    ∃ text, V4.writeValue m (applyChain .v4 n) = .ok text ∧
      V4.readValue (Text.Bytes.encode text) =
        upToLimit (2 * n + variableDepth m) (applyChain .v4 n) := by
  have hf : Name.Canonical (.parse "f") := by decide
  have hx : Name.Canonical (.parse "x") := by decide
  have hclean : (V4.encodeValue m (applyChain .v4 n)).Clean :=
    V4.contains_written.all_encodeValue
      (satisfies_applyChain .v4 n ValueAttrs.written_empty hf hx)
  have hread : V4.decodeValue (V4.encodeValue m (applyChain .v4 n)) = .ok (applyChain .v4 n) :=
    V4.decodeValue_encodeValue m
      (satisfies_applyChain .v4 n ValueAttrs.written_empty.toReadable hf hx)
  obtain ⟨text, ht⟩ := Json.exists_marshal hclean
  refine ⟨text, ht, ?_⟩
  rw [← depth_encodeValue_applyChain]
  exact ofBytes_of_decode hclean ht hread

end Writing

/-- Both dialects read a chain from its flat text, the two trees are the conversions of each other, they
have the nodes they look like, and each dialect reads back what it writes for its tree. The only
limit is the nesting that the reader of JSON bears: V4 has two levels for each application. -/
theorem chains_are_read_up_to_the_limit :
    Classic.readValue (Text.Bytes.encode (applyChainText n)) =
      upToLimit (n + 2) (applyChain .classic n) ∧
    V4.readValue (Text.Bytes.encode (applyChainText n)) = upToLimit (n + 2) (applyChain .v4 n) ∧
    Convert.valueToV4 (applyChain .classic n) = applyChain .v4 n ∧
    Convert.valueToClassic (applyChain .v4 n) = applyChain .classic n ∧
    Stats.ofValue (applyChain .classic n) = { valueNodes := 2 * n + 1 } ∧
    Stats.ofValue (applyChain .v4 n) = { valueNodes := 2 * n + 1 } ∧
    (∃ text, Classic.writeValue (applyChain .classic n) = .ok text ∧
      Classic.readValue (Text.Bytes.encode text) = upToLimit (n + 2) (applyChain .classic n)) ∧
    ∀ m, ∃ text, V4.writeValue m (applyChain .v4 n) = .ok text ∧
      V4.readValue (Text.Bytes.encode text) =
        upToLimit (2 * n + variableDepth m) (applyChain .v4 n) :=
  ⟨classic_readValue_applyChainText n, v4_readValue_applyChainText n,
    mapAttrs_applyChain .classic n _ _, mapAttrs_applyChain .v4 n _ _,
    ofValue_applyChain .classic n, ofValue_applyChain .v4 n,
    classic_writeValue_applyChain n, v4_writeValue_applyChain n⟩

/-- A chain of 9999 applications is nested one level more deeply than the reader of JSON bears, and half
as long a chain does not come back from its V4 text. -/
theorem long_chain_is_refused :
    Classic.readValue (Text.Bytes.encode (applyChainText 9999)) = .error (.plain "invalid JSON") ∧
    V4.readValue (Text.Bytes.encode (applyChainText 9999)) = .error (.plain "invalid JSON") ∧
    (∃ text, V4.writeValue .compact (applyChain .v4 5000) = .ok text ∧
      V4.readValue (Text.Bytes.encode text) = .error (.plain "invalid JSON")) ∧
    ¬ ∀ n, Classic.readValue (Text.Bytes.encode (applyChainText n)) =
      .ok (applyChain .classic n) := by
  have hrefused {α : Type} {depth : Nat} (h : depthLimit < depth) (a : α) :
      upToLimit depth a = .error (.plain "invalid JSON") := if_neg (Nat.not_le.2 h)
  have hclassic := (classic_readValue_applyChainText 9999).trans (hrefused (by decide) _)
  have hv4 := (v4_readValue_applyChainText 9999).trans (hrefused (by decide) _)
  obtain ⟨text, ht, hread⟩ := v4_writeValue_applyChain 5000 .compact
  refine ⟨hclassic, hv4, ⟨text, ht, hread.trans (hrefused (by decide) _)⟩, fun h => ?_⟩
  cases hclassic.symm.trans (h 9999)

end IrDialects.Sample
