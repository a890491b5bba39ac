import IrDialects.Proofs.V4.Places

/-!
# Locations of issues

The path of an issue is followed from the value that was read: a segment is the index of an item or
the key of a member. Every issue of a Classic decoder is located in this sense.

A V4 decoder names a node by its canonical tag, whatever the key in the document is. So its path is
that of a value once the tags in it are spelled as in the document, and it leads nowhere if one of
them is spelled in another way.

No issue of either dialect is that the fuel of a decoder ran out.
-/

namespace IrDialects

section Paths

/-- The path leads from the first value to the second. A text that is told to be a native hint
counts as the array that it stands for. -/
inductive Json.Leads (isHint : String → Prop) : Json → List String → Json → Prop
  | here (v : Json) : Leads isHint v [] v
  | item {vs : List Json} {i : Nat} {v w : Json} {path : List String} :
      vs[i]? = some v → Leads isHint v path w → Leads isHint (.array vs) (toString i :: path) w
  | member {ms : Members} {k : String} {v w : Json} {path : List String} :
      (k, v) ∈ ms → Leads isHint v path w → Leads isHint (.object ms) (k :: path) w
  | hint {s : String} : isHint s → Leads isHint (.string s) ["0"] (.string s)

/-- The path of an issue leads to a value. Only a text that the issue rejects as a native hint
counts as an array. -/
def Issue.Located (e : Issue) (v : Json) : Prop :=
  ∃ w, v.Leads (fun s => e.complaint = NodeKind.nativeHint.unknownTag s) e.path w

/-- Two paths that go down together, the first one by the keys of the document and the second one by
labels that stand for the only key of an object. -/
inductive Respelled (R : String → String → Prop) : Json → List String → List String → Prop
  | here (v : Json) : Respelled R v [] []
  | item {vs : List Json} {i : Nat} {v : Json} {own path : List String} :
      vs[i]? = some v → Respelled R v own path →
        Respelled R (.array vs) (toString i :: own) (toString i :: path)
  | member {ms : Members} {k : String} {v : Json} {own path : List String} :
      (k, v) ∈ ms → Respelled R v own path → Respelled R (.object ms) (k :: own) (k :: path)
  | label {key label : String} {v : Json} {own path : List String} :
      R key label → Respelled R v own path →
        Respelled R (.object [(key, v)]) (key :: own) (label :: path)
  | hint (s : String) : Respelled R (.string s) ["0"] ["0"]

/-- An issue that is located once the labels in its path are replaced by the document's keys. -/
def Traced (R : String → String → Prop) (v : Json) (e : Issue) : Prop :=
  ∃ own, Issue.Located { e with path := own } v ∧ Respelled R v own e.path

variable {R : String → String → Prop} {isHint : String → Prop}

theorem Json.Leads.of_array {vs : List Json} {s : String} {path : List String} {w : Json}
    (h : (Json.array vs).Leads isHint (s :: path) w) :
    ∃ (i : Nat) (v : Json), s = toString i ∧ vs[i]? = some v ∧ v.Leads isHint path w := by
  cases h with
  | item hi h => exact ⟨_, _, rfl, hi, h⟩

theorem Json.Leads.of_object {ms : Members} {s : String} {path : List String} {w : Json}
    (h : (Json.object ms).Leads isHint (s :: path) w) :
    ∃ v, (s, v) ∈ ms ∧ v.Leads isHint path w := by
  cases h with
  | member hm h => exact ⟨_, hm, h⟩

theorem Respelled.eq_of_forall_not {v : Json} {own path : List String} (h : Respelled R v own path)
    (hR : ∀ key label, ¬ R key label) : own = path := by
  induction h with
  | here | hint => rfl
  | item _ _ ih | member _ _ ih => rw [ih]
  | label hlabel => exact absurd hlabel (hR _ _)

/-- The only key of an object is no tag, or a tag as it is written. -/
def KeepsTag (ks : List String) : Prop :=
  ∀ key label, ks = [key] → SpellsTag key label → label = key

theorem Respelled.eq_of_keepsTag {v : Json} {own path : List String}
    (h : Respelled SpellsTag v own path) (htags : v.All (fun _ => True) KeepsTag) :
    own = path := by
  induction h with
  | here | hint => rfl
  | item hi _ ih =>
    rw [Json.all_array] at htags
    rw [ih (htags _ (List.mem_of_getElem? hi))]
  | member hm _ ih =>
    rw [Json.all_object] at htags
    rw [ih (htags.2 _ hm)]
  | label hlabel _ ih =>
    rw [Json.all_object] at htags
    rw [htags.1 _ _ rfl hlabel, ih (htags.2 _ (List.mem_singleton.2 rfl))]

/-- A member of an object without repeated keys is told by its key. -/
theorem Json.eq_of_mem_of_mem {ms : Members} {k : String} {v w : Json}
    (hnodup : (keys ms).Nodup) (hv : (k, v) ∈ ms) (hw : (k, w) ∈ ms) : v = w := by
  have h := List.inj_on_of_nodup_map hnodup hv hw rfl
  exact congrArg Prod.snd h

/-- Where no key is repeated, a path with a label that is not the key itself leads nowhere. -/
theorem Respelled.eq_of_leads {v : Json} {own path : List String} {w : Json}
    (h : Respelled R v own path) (hkeys : v.repeatedKey? = none) (hw : v.Leads isHint path w) :
    own = path := by
  rw [Json.repeatedKey?_eq_none] at hkeys
  -- Both paths are followed from the same value, and a segment leads to one value at most.
  induction h generalizing w with
  | here | hint => rfl
  | item hi _ ih =>
    rw [Json.all_array] at hkeys
    obtain ⟨j, v', hj, hv', hrest⟩ := hw.of_array
    obtain rfl := Number.Whole.eq_of_toString_eq hj
    rw [hi, Option.some_inj] at hv'
    subst hv'
    rw [ih (hkeys _ (List.mem_of_getElem? hi)) hrest]
  | member hm _ ih =>
    rw [Json.all_object] at hkeys
    obtain ⟨v', hm', hrest⟩ := hw.of_object
    obtain rfl := Json.eq_of_mem_of_mem hkeys.1 hm hm'
    rw [ih (hkeys.2 _ hm) hrest]
  | label _ _ ih =>
    rw [Json.all_object] at hkeys
    obtain ⟨v', hm', hrest⟩ := hw.of_object
    obtain ⟨rfl, rfl⟩ := Prod.mk.inj (List.mem_singleton.1 hm')
    rw [ih (hkeys.2 _ hm') hrest]

end Paths

section Traces

variable {R : String → String → Prop} {v : Json} {e : Issue}

theorem Traced.here (v : Json) {e : Issue} (h : e.path = []) : Traced R v e := by
  refine ⟨[], ⟨v, .here v⟩, ?_⟩
  rw [h]
  exact .here v

theorem Traced.member {ms : Members} {k : String} (hm : (k, v) ∈ ms) (h : Traced R v e) :
    Traced R (.object ms) (e.under k) := by
  obtain ⟨own, ⟨w, hw⟩, hown⟩ := h
  exact ⟨k :: own, ⟨w, .member hm hw⟩, .member hm hown⟩

/-- An issue that arises in a value is traced: each step of the path names its own segment. -/
theorem Arises.traced (h : Arises R v e) : Traced R v e := by
  induction h with
  | here v => exact .here v rfl
  | item hi _ ih =>
    obtain ⟨own, ⟨w, hw⟩, hown⟩ := ih
    exact ⟨_ :: own, ⟨w, .item hi hw⟩, .item hi hown⟩
  | member hm _ ih => exact ih.member hm
  | body hlabel _ ih =>
    obtain ⟨own, ⟨w, hw⟩, hown⟩ := ih
    exact ⟨_ :: own, ⟨w, .member (List.mem_singleton.2 rfl) hw⟩, .label hlabel hown⟩
  | bare s => exact ⟨["0"], ⟨.string s, .hint rfl⟩, .hint s⟩
  | withTag _ _ ih => exact ih

theorem Traced.located (h : Traced R v e) (hR : ∀ key label, ¬ R key label) : e.Located v := by
  obtain ⟨own, hlocated, hown⟩ := h
  obtain rfl := hown.eq_of_forall_not hR
  exact hlocated

end Traces

section Documents

variable {R : String → String → Prop} {α β : Type}

/-- A segment by which an issue that arises in a value may go down. -/
inductive Json.Opens (R : String → String → Prop) : Json → String → Prop
  | item (vs : List Json) (i : Nat) : Opens R (.array vs) (toString i)
  | member {ms : Members} {k : String} {v : Json} : (k, v) ∈ ms → Opens R (.object ms) k
  | label {key label : String} (v : Json) : R key label → Opens R (.object [(key, v)]) label
  | hint (s : String) : Opens R (.string s) "0"

theorem Arises.opens {v : Json} {e : Issue} (h : Arises R v e) {s : String} {path : List String}
    (hpath : e.path = s :: path) : v.Opens R s := by
  induction h with
  | here => cases hpath
  | item _ _ _ =>
    cases hpath
    exact .item _ _
  | member hm _ _ =>
    cases hpath
    exact .member hm
  | body hlabel _ _ =>
    cases hpath
    exact .label _ hlabel
  | bare s =>
    cases hpath
    exact .hint s
  | withTag _ _ ih => exact ih hpath

/-- No tag is spelled like the key of the version. -/
theorem SpellsTag.ne_formatVersion {key label : String} (h : SpellsTag key label) :
    label ≠ "formatVersion" := by
  obtain ⟨kind, h⟩ := h
  have hindex : ∀ p ∈ kind.table.index, p.2 ≠ "formatVersion" := by
    cases kind with
    | untagged => exact fun p hp => absurd hp List.not_mem_nil
    | _ => decide
  obtain ⟨before, after, he, -⟩ := List.lookup_eq_some_iff.1 h
  exact hindex (TagTable.fold key, label) (by simp [he])

/-- No index of an item is the key of the version. -/
theorem Json.not_opens_array (items : List Json) : ¬ (array items).Opens R "formatVersion" := by
  generalize hs : "formatVersion" = s
  rintro (⟨_, i⟩ | _)
  have hmem : 'f' ∈ Nat.toDigits 10 i := by
    rw [← Nat.toList_repr]
    exact (congrArg String.toList hs) ▸ (by decide : 'f' ∈ "formatVersion".toList)
  exact absurd (Number.Whole.isDigit_toDigits hmem) (by decide)

/-- The key of the version is not one of the keys of a document without a version, and no tag. -/
theorem Json.not_opens_object {ms : Members} (h : get? ms "formatVersion" = none) :
    ¬ (object ms).Opens SpellsTag "formatVersion" := by
  generalize hs : "formatVersion" = s
  intro hopens
  cases hopens with
  | member hm =>
    subst hs
    have hne := List.lookup_eq_none_iff.1 h _ hm
    simp at hne
  | label _ hlabel => exact hlabel.ne_formatVersion hs.symm

/-- An issue of a document is about its version and found there, or it arises elsewhere. -/
inductive Issue.OfDocument (R : String → String → Prop) : Json → Issue → Prop
  | version {ms : Members} {w : Json} {c : Complaint} :
      Json.get? ms "formatVersion" = some w → c.kind = .unknownFormatVersion →
        OfDocument R (.object ms) (c.issue.under "formatVersion")
  | below {v : Json} {e : Issue} :
      Arises R v e → e.path.head? ≠ some "formatVersion" → OfDocument R v e

theorem Issue.OfDocument.of_not_opens {v : Json} {e : Issue} (h : Arises R v e)
    (hv : ¬ v.Opens R "formatVersion") : OfDocument R v e := by
  refine .below h fun hhead => ?_
  obtain ⟨path, hpath⟩ := List.head?_eq_some_iff.1 hhead
  exact hv (h.opens hpath)

theorem Issue.OfDocument.of_complaint {v : Json} {c : Complaint} (h : c.Proper) :
    OfDocument R v c.issue :=
  .below (.here v _ h) (by simp [Complaint.issue])

/-- A document with a version is read version first and then below its distribution. -/
theorem Issue.OfDocument.of_version {decodeVersion : Json → Decoded α} {decode : Json → Decoded β}
    {γ : Type} {f : α → β → γ} {ms : Members} {w : Json} {e : Issue}
    (hversion : ∀ e, decodeVersion w = .error e →
      ∃ c : Complaint, c.kind = .unknownFormatVersion ∧ e = c.issue)
    (hdecode : ∀ {b}, Pointing b R decode) (hget : Json.get? ms "formatVersion" = some w)
    (h : (do
      let version ← (decodeVersion w).under "formatVersion"
      let d ← Shape.member "document" "distribution" ms
      let d ← (decode d).under "distribution"
      return f version d) = .error e) : OfDocument R (.object ms) e := by
  -- The version is read first: its faults are at its place, and all later ones are elsewhere.
  cases hw : decodeVersion w with
  | error e' =>
    obtain ⟨c, hc, rfl⟩ := hversion e' hw
    rw [hw] at h
    cases h
    exact .version hget hc
  | ok version =>
    rw [hw] at h
    change (Shape.member "document" "distribution" ms >>= fun d =>
      (decode d).under "distribution" >>= fun d => .ok (f version d)) = .error e at h
    rw [Shape.member] at h
    cases hd : Json.get? ms "distribution" with
    | none =>
      rw [hd] at h
      cases h
      exact .of_complaint (by simp)
    | some d =>
      rw [hd, Decoded.ok_bind] at h
      cases hin : decode d with
      | error e' =>
        rw [hin] at h
        cases h
        have harises := hdecode d (Nat.lt_succ_self _) e' hin
        exact .below (.member (Json.mem_of_get? hd) harises) (by simp [Issue.under])
      | ok x =>
        rw [hin] at h
        cases h

/-- Whatever is wrong with a version, it is about the version. -/
theorem Classic.issue_of_decodeVersion {w : Json} {e : Issue} (h : decodeVersion w = .error e) :
    ∃ c : Complaint, c.kind = .unknownFormatVersion ∧ e = c.issue := by
  rw [decodeVersion.eq_def] at h
  split at h
  · split at h
    · split at h <;> cases h
      exact ⟨_, rfl, rfl⟩
    · cases h
      exact ⟨_, rfl, rfl⟩
  · cases h
    exact ⟨_, rfl, rfl⟩

theorem Classic.ofDocument {v : Json} {e : Issue} (h : decodeDocument codec v = .error e) :
    e.OfDocument R v := by
  cases v with
  | array items =>
    have hwithin : Within ((Json.array items).depth + 1) R (.array items)
        (decodeDocument codec (.array items)) :=
      (pointing_distribution pointingAttrs_codec _).bind fun _ => .ok _
    exact .of_not_opens (hwithin (Nat.lt_succ_self _) e h) (Json.not_opens_array items)
  | object ms =>
    cases hget : Json.get? ms "formatVersion" with
    | none =>
      simp only [decodeDocument, Shape.object, Decoded.ok_bind, Shape.member, hget] at h
      cases h
      exact .of_complaint (by simp)
    | some w =>
      simp only [decodeDocument, Shape.object, Decoded.ok_bind, Shape.member, hget] at h
      exact .of_version (fun _ => issue_of_decodeVersion)
        (pointing_distribution pointingAttrs_codec) hget h
  | _ =>
    cases h
    exact .of_complaint (by simp)

theorem V4.issue_of_decodeVersion {w : Json} {e : Issue} (h : decodeVersion w = .error e) :
    ∃ c : Complaint, c.kind = .unknownFormatVersion ∧ e = c.issue := by
  have hmajor {version : FormatVersion} (h : checkMajor version = .error e) :
      ∃ c : Complaint, c.kind = .unknownFormatVersion ∧ e = c.issue := by
    rw [checkMajor] at h
    split at h <;> cases h
    exact ⟨_, rfl, rfl⟩
  rw [decodeVersion.eq_def] at h
  split at h
  · split at h
    · exact hmajor h
    · cases h
      exact ⟨_, rfl, rfl⟩
  · exact hmajor h
  · cases h
    exact ⟨_, rfl, rfl⟩

theorem V4.ofDocument {v : Json} {e : Issue} (h : decodeDocument v = .error e) :
    e.OfDocument SpellsTag v := by
  cases v with
  | object ms =>
    cases hget : Json.get? ms "formatVersion" with
    | none =>
      simp only [decodeDocument, Shape.object, Decoded.ok_bind, hget] at h
      split at h
      · have hwithin := (pointing_distribution (b := (Json.object ms).depth + 1) (.object ms)).bind
          fun d => Within.ok (⟨.defaultV4, d⟩ : V4Document)
        exact .of_not_opens (hwithin (Nat.lt_succ_self _) e h) (Json.not_opens_object hget)
      · cases h
        exact .of_complaint (by simp)
    | some w =>
      simp only [decodeDocument, Shape.object, Decoded.ok_bind, hget] at h
      exact .of_version (fun _ => issue_of_decodeVersion) pointing_distribution hget h
  | _ =>
    cases h
    exact .of_complaint (by simp)

theorem Issue.OfDocument.traced {v : Json} {e : Issue} (h : OfDocument R v e) : Traced R v e := by
  cases h with
  | version hget _ => exact .member (Json.mem_of_get? hget) (.here _ rfl)
  | below h _ => exact h.traced

end Documents

section Decoders

variable {α : Type} {decode : Json → Decoded α}

/-- Every issue of a decoder is located in the value that it reads. -/
def Locating (decode : Json → Decoded α) : Prop := ∀ v e, decode v = .error e → e.Located v

theorem Locating.of_pointing (h : ∀ {b}, Pointing b (fun _ _ => False) decode) :
    Locating decode :=
  fun v e he => (h v (Nat.lt_succ_self _) e he).traced.located fun _ _ => id

/-- The issues of Classic documents, and of all their parts, are located. -/
theorem Classic.every_issue_is_located :
    Locating (decodeDocument codec) ∧ Locating (decodeDistribution codec) ∧
    Locating (decodePackage codec) ∧ Locating (decodePackageSpec plainAttrs) ∧
    Locating (decodeModule codec) ∧ Locating (decodeModuleSpec plainAttrs) ∧
    Locating (decodeTypeDefinition plainAttrs) ∧ Locating (decodeTypeSpecification plainAttrs) ∧
    Locating (decodeDefinition codec) ∧ Locating (decodeValueSpecification plainAttrs) ∧
    Locating (decodeType plainAttrs) ∧ Locating (decodePattern plainAttrs) ∧
    Locating (decodeValue codec) ∧ Locating (decodeBody codec) ∧
    Locating decodeLiteral ∧ (∀ tag, Locating (decodePayload tag)) ∧
    Locating decodeName ∧ Locating decodePath ∧ Locating decodeFQName ∧
    (∀ what, Locating (decodeNames what)) ∧
    Locating decodeHoleReason ∧ Locating decodeIncompleteness ∧
    Locating decodeNativeHint ∧ Locating decodeNativeInfo := by
  have hattrs : ∀ {b}, Pointing b (fun _ _ => False) plainAttrs.decode := fun _ => .ok _
  have hcodec : codec.PointingAttrs fun _ _ => False := pointingAttrs_codec
  have hdocument : Locating (decodeDocument codec) := fun v e he =>
    (ofDocument he).traced.located (R := fun _ _ => False) fun _ _ => id
  exact ⟨hdocument, .of_pointing (pointing_distribution hcodec),
    .of_pointing (pointing_package hcodec), .of_pointing (pointing_packageSpec hattrs),
    .of_pointing (pointing_module hcodec), .of_pointing (pointing_moduleSpec hattrs),
    .of_pointing (pointing_typeDefinition hattrs), .of_pointing (pointing_typeSpecification hattrs),
    .of_pointing (pointing_definition hcodec), .of_pointing (pointing_valueSpecification hattrs),
    .of_pointing (pointing_type hattrs), .of_pointing (pointing_pattern hattrs),
    .of_pointing (pointing_value hcodec), .of_pointing (pointing_body hcodec),
    .of_pointing pointing_literal, fun tag => .of_pointing (pointing_payload tag),
    .of_pointing pointing_name, .of_pointing pointing_path, .of_pointing pointing_fqName,
    fun what => .of_pointing (pointing_names what), .of_pointing pointing_holeReason,
    .of_pointing pointing_incompleteness, .of_pointing pointing_nativeHint,
    .of_pointing pointing_nativeInfo⟩

/-- A V4 decoder fails on a value with an issue. -/
def V4.Rejects (v : Json) (e : Issue) : Prop :=
  decodeDocument v = .error e ∨ decodeDistribution v = .error e ∨ decodeType v = .error e ∨
    decodePattern v = .error e ∨ decodeValue v = .error e ∨ decodeDefinition v = .error e

theorem V4.traced_of_rejects {v : Json} {e : Issue} (h : Rejects v e) : Traced SpellsTag v e := by
  obtain h | h | h | h | h | h := h
  · exact (ofDocument h).traced
  · exact (pointing_distribution v (Nat.lt_succ_self _) e h).traced
  · exact (pointing_type v (Nat.lt_succ_self _) e h).traced
  · exact (pointing_pattern v (Nat.lt_succ_self _) e h).traced
  · exact (pointing_value v (Nat.lt_succ_self _) e h).traced
  · exact (pointing_definition v (Nat.lt_succ_self _) e h).traced

/-- The issue of a V4 decoder is located once the tags in its path are spelled as in the document.
So it is located if every tag of the document is spelled as it is written, and where no key is
repeated it is located only if those in its path are. -/
theorem V4.issue_is_located_up_to_tags {v : Json} {e : Issue} (h : Rejects v e) :
    (v.All (fun _ => True) KeepsTag → e.Located v) ∧
      ∃ own, Issue.Located { e with path := own } v ∧ Respelled SpellsTag v own e.path ∧
        (v.repeatedKey? = none → (e.Located v ↔ own = e.path)) := by
  -- `own` is the path with the tags as the document spells them.
  obtain ⟨own, hlocated, hown⟩ := traced_of_rejects h
  have hsame (heq : own = e.path) : e.Located v := by
    rw [heq] at hlocated
    exact hlocated
  refine ⟨fun htags => hsame (hown.eq_of_keepsTag htags), own, hlocated, hown, fun hkeys => ?_⟩
  refine ⟨fun hpath => ?_, hsame⟩
  obtain ⟨w, hw⟩ := hpath
  exact hown.eq_of_leads hkeys hw

section Fuel

/-- A decoder never complains that its fuel ran out. -/
def Finishing (decode : Json → Decoded α) : Prop :=
  ∀ v e, decode v = .error e → e.complaint ≠ .tooDeep

theorem Finishing.of_pointing {R : String → String → Prop} (h : ∀ {b}, Pointing b R decode) :
    Finishing decode :=
  fun v e he => (h v (Nat.lt_succ_self _) e he).proper.2

theorem Issue.OfDocument.complaint_ne_tooDeep {R : String → String → Prop} {v : Json} {e : Issue}
    (h : e.OfDocument R v) : e.complaint ≠ .tooDeep := by
  cases h with
  | version _ hc =>
    rintro rfl
    cases hc
  | below h _ => exact h.proper.2

/-- The fuel of the Classic decoders is more than what they read is deep. -/
theorem Classic.decoders_finish :
    Finishing (decodeDocument codec) ∧ Finishing (decodeDistribution codec) ∧
    Finishing (decodeType plainAttrs) ∧ Finishing (decodePattern plainAttrs) ∧
    Finishing (decodeValue codec) ∧ Finishing (decodeBody codec) ∧
    Finishing (decodeDefinition codec) := by
  have hattrs : ∀ {b}, Pointing b (fun _ _ => False) plainAttrs.decode := fun _ => .ok _
  have hcodec : codec.PointingAttrs fun _ _ => False := pointingAttrs_codec
  have hdocument : Finishing (decodeDocument codec) := fun v e he =>
    (ofDocument (R := fun _ _ => False) he).complaint_ne_tooDeep
  exact ⟨hdocument, .of_pointing (pointing_distribution hcodec),
    .of_pointing (pointing_type hattrs), .of_pointing (pointing_pattern hattrs),
    .of_pointing (pointing_value hcodec), .of_pointing (pointing_body hcodec),
    .of_pointing (pointing_definition hcodec)⟩

/-- The fuel of the V4 decoders is more than what they read is deep. -/
theorem V4.decoders_finish :
    Finishing decodeDocument ∧ Finishing decodeDistribution ∧ Finishing decodeType ∧
    Finishing decodePattern ∧ Finishing decodeValue ∧ Finishing decodeDefinition :=
  ⟨fun _ _ he => (ofDocument he).complaint_ne_tooDeep, .of_pointing pointing_distribution,
    .of_pointing pointing_type, .of_pointing pointing_pattern, .of_pointing pointing_value,
    .of_pointing pointing_definition⟩

end Fuel

section Small

/-- A variable without a name, whose tag begins with a small letter. -/
def smallVariable : Json := .object [("variable", .object [])]

/-- What is wrong with it: its path begins with a capital. -/
def smallVariableIssue : Issue := ⟨.missingField "Variable" "name", ["Variable"], "Variable"⟩

theorem not_located_smallVariable : ¬ smallVariableIssue.Located smallVariable := by
  rintro ⟨w, hw⟩
  obtain ⟨v, hv, -⟩ := hw.of_object
  have hkey : "Variable" = "variable" := congrArg Prod.fst (List.mem_singleton.1 hv)
  exact absurd hkey (by decide)

theorem decodeValue_smallVariable : V4.decodeValue smallVariable = .error smallVariableIssue := rfl

/-- The path of the issue is that of a member under another key. -/
theorem V4.smallVariable_is_located_elsewhere : ∃ own, own ≠ smallVariableIssue.path ∧
    Issue.Located { smallVariableIssue with path := own } smallVariable ∧
    Respelled SpellsTag smallVariable own smallVariableIssue.path := by
  have hrejects : Rejects smallVariable smallVariableIssue := by
    simp only [Rejects, decodeValue_smallVariable, true_or, or_true]
  obtain ⟨-, own, hlocated, hown, hiff⟩ := issue_is_located_up_to_tags hrejects
  have hkeys : smallVariable.repeatedKey? = none := rfl
  exact ⟨own, fun heq => not_located_smallVariable ((hiff hkeys).2 heq), hlocated, hown⟩

theorem V4.small_variable_is_not_located : ¬ Locating decodeValue :=
  fun h => not_located_smallVariable (h _ _ decodeValue_smallVariable)

end Small

end Decoders

end IrDialects
