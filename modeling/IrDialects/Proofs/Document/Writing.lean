import IrDialects.Proofs.Document.Migration
import IrDialects.Proofs.Tree.Labels

/-!
# Writing documents that were read

The reader takes numbers that are no JSON, such as `01`, and the writer refuses them. A number of a
literal or of a source location is read into a number and written anew, so a spelling survives only
in the parts of an attribute that are kept as they are. Only these can keep a document from being
written, and a conversion drops them.
-/

namespace IrDialects

open AnyDocument
open Json.Reader (IsNumber isStrictText isNumber_toString)

namespace Json

/-- A number with the given spelling occurs in a value. -/
inductive HasNumber (s : String) : Json → Prop
  | number : HasNumber s (.number s)
  | item {vs : List Json} {v : Json} : v ∈ vs → HasNumber s v → HasNumber s (.array vs)
  | member {ms : Members} {m : String × Json} :
      m ∈ ms → HasNumber s m.2 → HasNumber s (.object ms)

/-- Every number of a value has a spelling that the writer accepts. -/
abbrev Strict (v : Json) : Prop := v.All (fun s => isStrictText s) (fun _ => True)

theorem strict_of_forall_hasNumber {v : Json} (h : ∀ s, v.HasNumber s → isStrictText s) :
    v.Strict := by
  induction v using induct with
  | null => exact .null
  | bool b => exact .bool b
  | number s => exact .number (h s .number)
  | string s => exact .string s
  | array vs ih => exact .array fun v hv => ih v hv fun s hs => h s (.item hv hs)
  | object ms ih => exact .object trivial fun m hm => ih m hm fun s hs => h s (.member hm hs)

theorem Strict.exists_marshal {v : Json} (h : v.Strict) : ∃ text, marshal v = .ok text :=
  ⟨_, Writer.text_eq_ok (Writer.fault?_eq_none.2 (Writer.all_settle h))⟩

end Json

section Attributes

/-- The parts of an attribute that are written as they were read. -/
def ClassicAttrs.verbatim (a : ClassicAttrs) : List Json := a.raw.toList

/-- The parts of a type attribute that are written as they were read. -/
def TypeAttrs.verbatim (a : TypeAttrs) : List Json :=
  a.constraints.toList ++ a.extensions.map Prod.snd

/-- The parts of a value attribute that are written as they were read. -/
def ValueAttrs.verbatim (a : ValueAttrs) : List Json :=
  a.inferredType.toList ++ a.extensions.map Prod.snd

/-- The JSON that a document keeps as it is, attribute by attribute. -/
def AnyDocument.verbatim : AnyDocument → List Json
  | classic d =>
    d.distribution.labels.flatMap (Sum.elim ClassicAttrs.verbatim ClassicAttrs.verbatim)
  | v4 d => d.distribution.labels.flatMap (Sum.elim TypeAttrs.verbatim ValueAttrs.verbatim)

end Attributes

namespace Classic

/-- What trees meet that were read and whose attributes can be written. -/
def strict : Conditions ClassicAttrs ClassicAttrs :=
  { read with
    typeAttrs := fun a => a.Kept ∧ ∀ v ∈ a.verbatim, v.Strict
    valueAttrs := fun a => a.Kept ∧ ∀ v ∈ a.verbatim, v.Strict }

theorem contains_strict : Contains codec strict (fun s => isStrictText s) (fun _ => True) := by
  have hattrs (a : ClassicAttrs) (ha : a.Kept ∧ ∀ v ∈ a.verbatim, v.Strict) :
      (plainAttrs.encode a).Strict := by
    obtain ⟨_ | v⟩ := a
    · exact .object trivial (by simp)
    · exact ha.2 v (by simp [ClassicAttrs.verbatim])
  exact
    { typeAttrs := hattrs
      valueAttrs := hattrs
      literal := fun _ hl => hl.all_encodePayload.imp (fun _ hs => hs.isStrictText) fun _ hk => hk
      keys := fun _ _ => trivial }

theorem strict_encodeDocument {d : ClassicDocument} (h : d.distribution.Satisfies strict) :
    (encodeDocument codec d).Strict :=
  contains_strict.all_encodeDocument
    (fun _ hl hu => (isNumber_toString ⟨by omega, by omega⟩).isStrictText) h

/-- A tree that was read can be written if the kept parts of the listed attributes can. -/
theorem satisfies_strict {d : Distribution ClassicAttrs ClassicAttrs} (h : d.Satisfies read)
    (hlabels : ∀ v ∈ d.labels.flatMap (Sum.elim ClassicAttrs.verbatim ClassicAttrs.verbatim),
      v.Strict) : d.Satisfies strict := by
  have hempty : ClassicAttrs.Kept {} ∧ ∀ v ∈ ClassicAttrs.verbatim {}, v.Strict :=
    ⟨ClassicAttrs.kept_empty, by simp [ClassicAttrs.verbatim]⟩
  refine h.and_labels hempty hempty fun x hx => ?_
  cases x <;> exact fun v hv => hlabels v (List.mem_flatMap.2 ⟨_, hx, hv⟩)

end Classic

namespace V4

/-- What trees meet that were read and whose attributes can be written. -/
def strict : Conditions TypeAttrs ValueAttrs :=
  { read with
    typeAttrs := fun a => a.Readable ∧ ∀ v ∈ a.verbatim, v.Strict
    valueAttrs := fun a => a.Readable ∧ ∀ v ∈ a.verbatim, v.Strict }

theorem strict_attrObject {source : Option SourceLocation} {key : String} {kept : Option Json}
    {extensions : Members} (hkey : ["source", key, "extensions"].Nodup)
    (hsource : ∀ l ∈ source, l.InRange)
    (hverbatim : ∀ v ∈ kept.toList ++ extensions.map Prod.snd, v.Strict) :
    (attrObject source key kept extensions).Strict := by
  obtain ⟨hkept, hextensions⟩ := List.forall_mem_append.1 hverbatim
  refine all_attrObject (fun _ hs => hs.isStrictText) (fun _ _ => trivial) hkey hsource ?_ ?_
  · simpa using hkept
  · exact .object trivial (List.forall_mem_map.1 hextensions)

theorem contains_strict : Contains strict (fun s => isStrictText s) (fun _ => True) where
  typeAttrs _ ha := strict_attrObject (by simp) ha.1.source ha.2
  valueAttrs _ ha := strict_attrObject (by simp) ha.1.source ha.2
  literal _ hl := hl.all_encodePayload.imp (fun _ hs => hs.isStrictText) fun _ hk => hk
  names _ _ := trivial
  paths _ _ := trivial
  keys _ _ := trivial

theorem strict_encodeDocument {m : Mode} {d : V4Document} (h : d.distribution.Satisfies strict) :
    (encodeDocument m d).Strict :=
  contains_strict.all_encodeDocument isNumber_four.isStrictText h

/-- A tree that was read can be written if the kept parts of the listed attributes can. -/
theorem satisfies_strict {d : V4Distribution} (h : d.Satisfies read)
    (hlabels : ∀ v ∈ d.labels.flatMap (Sum.elim TypeAttrs.verbatim ValueAttrs.verbatim),
      v.Strict) : d.Satisfies strict := by
  have htype : TypeAttrs.Readable {} ∧ ∀ v ∈ TypeAttrs.verbatim {}, v.Strict :=
    ⟨⟨by simp, by simp⟩, by simp [TypeAttrs.verbatim]⟩
  have hvalue : ValueAttrs.Readable {} ∧ ∀ v ∈ ValueAttrs.verbatim {}, v.Strict :=
    ⟨⟨by simp, by simp⟩, by simp [ValueAttrs.verbatim]⟩
  refine h.and_labels htype hvalue fun x hx => ?_
  cases x <;> exact fun v hv => hlabels v (List.mem_flatMap.2 ⟨_, hx, hv⟩)

/-- All that a conversion keeps of an attribute is a source location. -/
theorem strict_ofSource {source : Option SourceLocation} (h : ∀ l ∈ source, l.InRange) :
    ∀ v ∈ (ClassicAttrs.ofSource source).verbatim, v.Strict := by
  have hnum {n : Int} (hn : Number.Whole.InRange n) : (Json.ofInt n).Strict :=
    .number (isNumber_toString hn).isStrictText
  cases source with
  | none => simp [ClassicAttrs.ofSource, ClassicAttrs.verbatim]
  | some l =>
    have hl := h l rfl
    simp [ClassicAttrs.ofSource, ClassicAttrs.verbatim, hnum hl.startLine, hnum hl.startColumn,
      hnum hl.endLine, hnum hl.endColumn]

theorem carried_strict :
    read.Carried read Classic.strict TypeAttrs.toClassic ValueAttrs.toClassic where
  typeAttrs _ ha _ := ⟨ClassicAttrs.kept_ofSource ha.source, strict_ofSource ha.source⟩
  valueAttrs _ ha _ := ⟨ClassicAttrs.kept_ofSource ha.source, strict_ofSource ha.source⟩
  literal _ hl _ := hl
  name _ _ _ := trivial
  path _ _ _ := trivial
  qualified _ _ _ := trivial
  names _ _ _ := trivial
  paths _ _ _ := trivial

end V4

namespace AnyDocument

variable {bytes : List UInt8} {doc : AnyDocument}

/-- In the dialect in which it was not read, a document can always be written. -/
theorem exists_encode_of_ne (h : decode bytes = .ok doc) {target : Dialect}
    (htarget : target ≠ doc.dialect) (mode : V4.Mode) :
    ∃ text, doc.encode target mode = .ok text := by
  simp only [encode_eq_ok]
  cases doc with
  | classic d =>
    cases target with
    | classic => exact absurd rfl htarget
    | v4 => exact exists_migrate_v4 h mode
  | v4 d =>
    cases target with
    | classic =>
      obtain ⟨-, hread⟩ := v4_of_decode h
      have hstrict := hread.mapAttrs V4.carried_strict hread
      exact (Classic.strict_encodeDocument (d := Convert.toClassic d) hstrict).exists_marshal
    | v4 => exact absurd rfl htarget

/-- In its own dialect a document can be written if the kept parts of its attributes can. -/
theorem exists_encode_of_verbatim (h : decode bytes = .ok doc) (mode : V4.Mode)
    (hstrict : ∀ v ∈ doc.verbatim, v.Strict) : ∃ text, doc.encode doc.dialect mode = .ok text := by
  simp only [encode_eq_ok]
  cases doc with
  | classic d =>
    have htree := Classic.satisfies_strict (classic_of_decode h).2 hstrict
    exact (Classic.strict_encodeDocument htree).exists_marshal
  | v4 d =>
    have htree := V4.satisfies_strict (v4_of_decode h).2 hstrict
    exact (V4.strict_encodeDocument htree).exists_marshal

/-- A document that was read can be written in the other dialect. In its own it can be written
unless an attribute keeps a number whose spelling is no JSON. -/
theorem writing_fails_for_kept_numbers_only (h : decode bytes = .ok doc) (mode : V4.Mode) :
    (∀ target, target ≠ doc.dialect → ∃ text, doc.encode target mode = .ok text) ∧
      ∀ failure, doc.encode doc.dialect mode = .error failure →
        failure.code = "ENCODE_FAILED" ∧
          ∃ v ∈ doc.verbatim, ∃ s, v.HasNumber s ∧ isStrictText s = false := by
  refine ⟨fun target htarget => exists_encode_of_ne h htarget mode, fun failure hfailure => ?_⟩
  refine ⟨?_, ?_⟩
  · rw [encode] at hfailure
    cases hmarshal : Json.marshal (doc.encodeJson mode doc.dialect) with
    | ok text =>
      rw [hmarshal] at hfailure
      cases hfailure
    | error fault =>
      rw [hmarshal] at hfailure
      cases hfailure
      rfl
  -- If every kept number were a strict literal, the document would have been written.
  · by_contra hnone
    have hstrict : ∀ v ∈ doc.verbatim, v.Strict := by
      refine fun v hv => Json.strict_of_forall_hasNumber fun s hs => ?_
      by_contra hbad
      exact hnone ⟨v, hv, s, hs, Bool.eq_false_iff.2 hbad⟩
    obtain ⟨text, htext⟩ := exists_encode_of_verbatim h mode hstrict
    rw [htext] at hfailure
    cases hfailure

/-- Whether a text is read as a document that cannot be written in its own dialect. -/
def isStuck (mode : V4.Mode) (bytes : List UInt8) : Bool :=
  match decode bytes with
  | .ok doc => !(doc.encode doc.dialect mode).isOk
  | .error _ => false

theorem exists_of_isStuck {mode : V4.Mode} (h : isStuck mode bytes = true) :
    ∃ doc failure, decode bytes = .ok doc ∧ doc.encode doc.dialect mode = .error failure := by
  rw [isStuck] at h
  split at h
  · rename_i doc hdoc
    cases hencode : doc.encode doc.dialect mode with
    | ok text =>
      rw [hencode] at h
      cases h
    | error failure => exact ⟨doc, failure, hdoc, hencode⟩
  · cases h

/-- A type whose attribute is the number `01`. -/
def leadingZero : List UInt8 :=
  Text.Bytes.encode ("[\"Specs\",[],[],\x7b\"modules\":[[[],\x7b\"types\":[[[],\x7b\"value\":" ++
    "[\"TypeAliasSpecification\",[],[\"Unit\",01]]\x7d]]\x7d]]\x7d]")

theorem leadingZero_is_written_in_the_other_dialect_only :
    ∃ doc failure, decode leadingZero = .ok doc ∧
      (∀ target, target ≠ doc.dialect → ∃ text, doc.encode target .compact = .ok text) ∧
      doc.encode doc.dialect .compact = .error failure ∧ failure.code = "ENCODE_FAILED" ∧
      ∃ v ∈ doc.verbatim, ∃ s, v.HasNumber s ∧ isStrictText s = false := by
  have hstuck : isStuck .compact leadingZero = true := by decide +kernel
  obtain ⟨doc, failure, hdoc, hfailure⟩ := exists_of_isStuck hstuck
  obtain ⟨hother, hown⟩ := writing_fails_for_kept_numbers_only hdoc .compact
  obtain ⟨hcode, hnumber⟩ := hown failure hfailure
  exact ⟨doc, failure, hdoc, hother, hfailure, hcode, hnumber⟩

end AnyDocument

end IrDialects
