import IrDialects.Document.Conversion
import IrDialects.Proofs.Classic.Content
import IrDialects.Proofs.Classic.DocumentImage
import IrDialects.Proofs.Classic.RoundTrip
import IrDialects.Proofs.Tree.Replacement
import IrDialects.Proofs.V4.Content
import IrDialects.Proofs.V4.DocumentImage

/-!
# Conversion of documents that were read

Attributes that were read from a document can be told from missing ones, and their source locations
have numbers of 64 bits. Conversion to either dialect keeps it so, which makes a converted document
one that could have been read.
-/

namespace IrDialects

open Json.Reader (IsNumber IsToken isNumber_toString)

/-- A Classic attribute as a document can have it: it is not one of the forms that say nothing. -/
def ClassicAttrs.Kept (a : ClassicAttrs) : Prop := ∀ v ∈ a.raw, v.Orderly ∧ v.isEmpty = false

theorem ClassicAttrs.kept_empty : ClassicAttrs.Kept {} := by
  simp [Kept]

theorem ClassicAttrs.kept_ofSource {source : Option SourceLocation}
    (h : ∀ l ∈ source, l.InRange) : (ofSource source).Kept := by
  cases source with
  | none => exact kept_empty
  | some l =>
    have hl := h l rfl
    have hnum : ∀ {n : Int}, Number.Whole.InRange n → (Json.ofInt n).Orderly :=
      fun hn => .number (isNumber_toString hn).isToken
    rintro _ ⟨⟩
    refine ⟨.object (List.nodup_singleton _) (List.forall_mem_singleton.2 ?_), rfl⟩
    refine .object (by simp [Json.keys]) ?_
    simp [hnum hl.startLine, hnum hl.startColumn, hnum hl.endLine, hnum hl.endColumn]

namespace Classic

/-- What trees meet that were read from a Classic document. -/
def read : Conditions ClassicAttrs ClassicAttrs where
  typeAttrs := ClassicAttrs.Kept
  valueAttrs := ClassicAttrs.Kept
  literal := Literal.Writable

private theorem kept_of_decode {v : Json} {a : ClassicAttrs} (hv : v.Orderly)
    (h : plainAttrs.decode v = .ok a) : a.Kept := by
  cases h
  rw [ClassicAttrs.ofJson]
  split
  · exact ClassicAttrs.kept_empty
  · rename_i hne
    simpa [ClassicAttrs.Kept, hne] using hv

theorem yields_read : Yields codec read where
  typeAttrs _ _ := kept_of_decode
  valueAttrs _ _ := kept_of_decode
  literal _ hl := hl
  name _ := trivial
  path _ := trivial
  qualified _ := trivial
  names _ := trivial
  paths _ := trivial

theorem readable_read : Readable codec read where
  typeAttrs _ ha := plainAttrs_reads_back.2 fun v hv => (ha v hv).2
  valueAttrs _ ha := plainAttrs_reads_back.2 fun v hv => (ha v hv).2
  literal _ hl := hl

private theorem orderly_encode {a : ClassicAttrs} (h : a.Kept) : (plainAttrs.encode a).Orderly := by
  obtain ⟨_ | v⟩ := a
  · exact .object List.nodup_nil (by simp)
  · exact (h v rfl).1

theorem contains_read : Contains codec read IsToken List.Nodup where
  typeAttrs _ := orderly_encode
  valueAttrs _ := orderly_encode
  literal _ hl := Json.Clean.orderly hl.all_encodePayload
  keys _ hks := hks.nodup

/-- What trees meet that carry no attributes. -/
def bare : Conditions ClassicAttrs ClassicAttrs where
  typeAttrs a := a = {}
  valueAttrs a := a = {}
  literal := Literal.Writable

theorem contains_bare : Contains codec bare IsNumber Ordered where
  typeAttrs := by
    rintro _ rfl
    exact .object List.Pairwise.nil (by simp)
  valueAttrs := by
    rintro _ rfl
    exact .object List.Pairwise.nil (by simp)
  literal _ hl := hl.all_encodePayload
  keys _ hks := hks

theorem carried_bare : read.Carried read bare (fun _ => {}) (fun _ => {}) where
  typeAttrs _ _ _ := rfl
  valueAttrs _ _ _ := rfl
  literal _ hl _ := hl
  name _ _ _ := trivial
  path _ _ _ := trivial
  qualified _ _ _ := trivial
  names _ _ _ := trivial
  paths _ _ _ := trivial

/-- The Classic form of a document without attributes has its keys in order. -/
theorem ordered_encodeDocument {d : ClassicDocument} (h : d.distribution.Satisfies bare) :
    (encodeDocument codec d).All IsNumber Ordered :=
  contains_bare.all_encodeDocument (fun _ hl hu => isNumber_toString ⟨by omega, by omega⟩) h

/-- The Classic form of a document without attributes can be written. -/
theorem clean_encodeDocument {d : ClassicDocument} (h : d.distribution.Satisfies bare) :
    (encodeDocument codec d).Clean :=
  (ordered_encodeDocument h).imp (fun _ hs => hs) fun _ hks => hks.nodup

/-- The Classic form of a document that was read is one that can be read. -/
theorem orderly_encodeDocument {d : ClassicDocument} (h : d.distribution.Satisfies read) :
    (encodeDocument codec d).Orderly := by
  refine contains_read.all_encodeDocument (fun n hl hu => ?_) h
  exact (isNumber_toString ⟨by omega, by omega⟩).isToken

end Classic

namespace V4

private theorem inRange_of_locationPart {ms : Members} {name : String} {n : Int}
    (h : locationPart ms name = .ok n) : Number.Whole.InRange n := by
  rw [locationPart] at h
  split at h
  · cases h
  · exact Shape.inRange_of_int (Decoded.under_eq_ok.1 h)

theorem inRange_of_decodeLocation {v : Json} {l : SourceLocation}
    (h : decodeLocation v = .ok l) : l.InRange := by
  simp only [decodeLocation, Decoded.bind_eq_ok, Decoded.pure_eq] at h
  obtain ⟨ms, -, a, ha, b, hb, c, hc, d, hd, ⟨⟩⟩ := h
  exact ⟨inRange_of_locationPart ha, inRange_of_locationPart hb, inRange_of_locationPart hc,
    inRange_of_locationPart hd⟩

theorem inRange_of_sourceOf {ms : Members} {source : Option SourceLocation}
    (h : sourceOf ms = .ok source) : ∀ l ∈ source, l.InRange := by
  rw [sourceOf] at h
  split at h
  · cases h
    simp
  · cases h
    simp
  · obtain ⟨l, hl, ⟨⟩⟩ := Decoded.bind_eq_ok.1 h
    simpa using inRange_of_decodeLocation (Decoded.under_eq_ok.1 hl)

theorem ne_null_of_keptMember {ms : Members} {name : String} :
    ∀ v ∈ keptMember ms name, v ≠ .null := by
  rw [keptMember]
  split
  · simp
  · simp
  · rename_i v hv _
    rintro _ ⟨⟩ rfl
    exact hv rfl

theorem yields_read : Classic.Yields classicForm read where
  typeAttrs v a _ h := by
    simp only [classicForm, decodeTypeAttrs, Decoded.bind_eq_ok, Decoded.pure_eq] at h
    obtain ⟨ms, -, source, hs, extensions, -, ⟨⟩⟩ := h
    exact ⟨inRange_of_sourceOf hs, ne_null_of_keptMember⟩
  valueAttrs v a _ h := by
    simp only [classicForm, decodeValueAttrs, Decoded.bind_eq_ok, Decoded.pure_eq] at h
    obtain ⟨ms, -, source, hs, extensions, -, ⟨⟩⟩ := h
    exact ⟨inRange_of_sourceOf hs, ne_null_of_keptMember⟩
  literal _ hl := hl
  name _ := trivial
  path _ := trivial
  qualified _ := trivial
  names _ := trivial
  paths _ := trivial

theorem carried_toClassic :
    read.Carried read Classic.read TypeAttrs.toClassic ValueAttrs.toClassic where
  typeAttrs _ ha _ := ClassicAttrs.kept_ofSource ha.source
  valueAttrs _ ha _ := ClassicAttrs.kept_ofSource ha.source
  literal _ hl _ := hl
  name _ _ _ := trivial
  path _ _ _ := trivial
  qualified _ _ _ := trivial
  names _ _ _ := trivial
  paths _ _ _ := trivial

end V4

namespace Classic

theorem inRange_of_source? {a : ClassicAttrs} : ∀ l ∈ a.source?, l.InRange := by
  intro l hl
  rw [ClassicAttrs.source?] at hl
  split at hl
  · obtain ⟨⟨key, v⟩, -, hv⟩ := Option.bind_eq_some_iff.1 hl
    dsimp only at hv
    cases hd : V4.decodeLocation v with
    | error e =>
      rw [hd] at hv
      cases hv
    | ok l' =>
      rw [hd] at hv
      cases hv
      exact V4.inRange_of_decodeLocation hd
  · cases hl

theorem written_toType (a : ClassicAttrs) : a.toType.Written where
  source := inRange_of_source?
  constraints := by simp [ClassicAttrs.toType]
  clean := by simp [ClassicAttrs.toType]
  extensions := .object List.nodup_nil (by simp [ClassicAttrs.toType])

theorem written_toValue (a : ClassicAttrs) : a.toValue.Written where
  source := inRange_of_source?
  inferredType := by simp [ClassicAttrs.toValue]
  clean := by simp [ClassicAttrs.toValue]
  extensions := .object List.nodup_nil (by simp [ClassicAttrs.toValue])

/-- A Classic document that was read has a V4 form that can be written, whatever its names are. -/
theorem carried_writable :
    read.Carried read V4.writable ClassicAttrs.toType ClassicAttrs.toValue where
  typeAttrs a _ _ := written_toType a
  valueAttrs a _ _ := written_toValue a
  literal _ hl _ := hl
  name _ _ _ := trivial
  path _ _ _ := trivial
  qualified _ _ _ := trivial
  names _ _ _ := trivial
  paths _ _ _ := trivial

/-- If its names are canonical and tell siblings apart, then it is read back from there. -/
theorem carried_written :
    read.Carried .portable V4.written ClassicAttrs.toType ClassicAttrs.toValue where
  typeAttrs a _ _ := written_toType a
  valueAttrs a _ _ := written_toValue a
  literal _ hl _ := hl
  name _ _ hn := hn
  path _ _ hp := hp
  qualified _ _ hf := hf
  names _ _ hns := hns
  paths _ _ hps := hps

end Classic

end IrDialects
