import IrDialects.Document.AnyDocument
import IrDialects.Proofs.Document.Conversion
import IrDialects.Proofs.Json.RoundTrip
import IrDialects.Proofs.V4.Document

/-!
# Reading documents that were written

The dialect of a written document is told from its version. What a document is read from decides
what can be said of its tree, and a document that was written is read back unless its form is nested
too deeply.
-/

namespace IrDialects

open AnyDocument

/-- The failure to read a text that is nested too deeply, or no JSON for another reason. -/
def Failure.notJson : Failure := .detect (.plain Json.ReadFault.invalid.message)

section Detection

theorem Dialect.ofVersion_ofInt {n : Int} (hl : 1 ≤ n) (hu : n ≤ 3) :
    Dialect.ofVersion (.ofInt n) = .ok .classic := by
  have hr : Number.Whole.InRange n := by constructor <;> omega
  rw [Dialect.ofVersion.eq_def, Json.ofInt]
  simp only [Number.Whole.parse_toString hr, Dialect.ofNumber?, hl, hu, and_self, if_true]

theorem Classic.writtenVersion_mem (version : FormatVersion) :
    1 ≤ Classic.writtenVersion version ∧ Classic.writtenVersion version ≤ 3 := by
  rw [Classic.writtenVersion.eq_def]
  split
  · split <;> omega
  · omega

theorem Dialect.detect_classic {τ ν : Type} (c : Classic.Codec τ ν) (d : Document τ ν) :
    Dialect.detect (Classic.encodeDocument c d) = .ok .classic := by
  obtain ⟨hl, hu⟩ := Classic.writtenVersion_mem d.version
  simp [Dialect.detect, Classic.encodeDocument, Dialect.versionOf?, Dialect.ofVersion_ofInt hl hu]

theorem Dialect.ofVersion_encodeVersion {version : FormatVersion} (h : version.major? = some 4) :
    Dialect.ofVersion (V4.encodeVersion version) = .ok .v4 := by
  cases version with
  | number n =>
    cases h
    rfl
  | text s =>
    have hne : s.isEmpty = false := by
      rw [Bool.eq_false_iff]
      intro he
      rw [String.isEmpty_iff.1 he, V4.major?_empty] at h
      cases h
    simp [V4.encodeVersion, Dialect.ofVersion, FormatVersion.ofText, hne, h]

theorem V4.major?_writtenVersion (version : FormatVersion) :
    (V4.writtenVersion version).major? = some 4 := by
  rw [V4.writtenVersion]
  split
  · assumption
  · exact V4.major?_defaultV4

theorem Dialect.detect_v4 (m : V4.Mode) (d : V4Document) :
    Dialect.detect (V4.encodeDocument m d) = .ok .v4 := by
  have hv := Dialect.ofVersion_encodeVersion (V4.major?_writtenVersion d.version)
  simp [Dialect.detect, V4.encodeDocument, Dialect.versionOf?, hv]

end Detection

namespace AnyDocument

/-- What a text is read as follows from the value that it spells. -/
theorem decode_marshal {v : Json} {text : String} (hv : v.Orderly)
    (ht : Json.marshal v = .ok text) :
    decode (Text.Bytes.encode text) =
      if v.depth ≤ Json.Reader.depthLimit then decodeJson v else .error .notJson := by
  rw [decode, Json.parseBytes_marshal hv ht]
  by_cases hd : v.depth ≤ Json.Reader.depthLimit
  · simp only [if_pos hd]
  · simp only [if_neg hd]
    rfl

/-- A text that was written with a repeated key is no JSON to the reader. -/
theorem exists_decode_marshal_eq_error {keys : List String → Prop} {v : Json} {text : String}
    (hv : v.All Json.Reader.IsToken keys) (hkeys : v.repeatedKey? ≠ none)
    (ht : Json.marshal v = .ok text) :
    ∃ fault : Json.ReadFault,
      decode (Text.Bytes.encode text) = .error (.detect (.plain fault.message)) := by
  obtain ⟨fault, hfault⟩ := Json.exists_parseBytes_marshal_eq_error hv hkeys ht
  exact ⟨fault, by rw [decode, hfault]⟩

theorem decodeJson_classic {d : ClassicDocument} (hv : Classic.IsVersion d.version)
    (hd : d.distribution.Satisfies Classic.read) :
    decodeJson (Classic.encodeDocument Classic.codec d) = .ok (.classic d) := by
  have hread := Classic.decodeDocument_encodeDocument Classic.readable_read hv hd
  rw [decodeJson, Dialect.detect_classic]
  simp [decodeIn, hread, Except.mapError]

/-- A Classic distribution that stands alone is read as a document of the default version. -/
theorem decodeJson_distribution {d : Distribution ClassicAttrs ClassicAttrs}
    (hd : d.Satisfies Classic.read) :
    decodeJson (Classic.encodeDistribution Classic.codec d) =
      .ok (.classic ⟨.defaultClassic, d⟩) := by
  have hread := Classic.decodeDistribution_encodeDistribution Classic.readable_read hd
  have hdetect : Dialect.detect (Classic.encodeDistribution Classic.codec d) = .ok .classic := by
    cases d <;> rfl
  have hdocument : Classic.decodeDocument Classic.codec
      (Classic.encodeDistribution Classic.codec d) = .ok ⟨.defaultClassic, d⟩ := by
    cases d <;> exact Decoded.bind_eq_ok.2 ⟨_, hread, rfl⟩
  rw [decodeJson, hdetect]
  simp [decodeIn, hdocument, Except.mapError]

theorem decodeJson_legible {m : V4.Mode} {d : V4Document} (hv : d.version.major? = some 4)
    (hd : d.distribution.Satisfies V4.legible) :
    decodeJson (V4.encodeDocument m d) = .ok (.v4 d) := by
  have hread := V4.decodeDocument_encodeDocument (m := m) hv hd
  rw [decodeJson, Dialect.detect_v4]
  simp [decodeIn, hread, Except.mapError]

theorem decodeJson_v4 {m : V4.Mode} {d : V4Document} (hv : d.version.major? = some 4)
    (hd : d.distribution.Satisfies V4.written) :
    decodeJson (V4.encodeDocument m d) = .ok (.v4 d) :=
  decodeJson_legible hv (hd.both V4.carried_legible hd)

theorem decode_eq_ok {bytes : List UInt8} {doc : AnyDocument} (h : decode bytes = .ok doc) :
    ∃ v dialect, v.Orderly ∧ decodeIn dialect v = .ok doc := by
  rw [decode] at h
  split at h
  · cases h
  · rename_i v hv
    rw [decodeJson] at h
    split at h
    · cases h
    · rename_i dialect _
      refine ⟨v, dialect, Json.orderly_of_parseBytes hv, ?_⟩
      cases hd : decodeIn dialect v with
      | error e =>
        rw [hd] at h
        cases h
      | ok doc' =>
        rw [hd] at h
        cases h
        rfl

/-- What the tree of a document meets in the dialect in which it was read. -/
theorem classic_of_decode {bytes : List UInt8} {d : ClassicDocument}
    (h : decode bytes = .ok (.classic d)) :
    Classic.IsVersion d.version ∧ d.distribution.Satisfies Classic.read := by
  obtain ⟨v, dialect, hv, hd⟩ := decode_eq_ok h
  cases dialect with
  | classic =>
    obtain ⟨d', hd', ⟨⟩⟩ := Decoded.map_eq_ok.1 hd
    exact Classic.decodeDocument_image Classic.yields_read hv hd'
  | v4 =>
    obtain ⟨d', -, ⟨⟩⟩ := Decoded.map_eq_ok.1 hd

theorem satisfies_of_decode {P : Conditions TypeAttrs ValueAttrs}
    (y : Classic.Yields V4.classicForm P) {bytes : List UInt8} {d : V4Document}
    (h : decode bytes = .ok (.v4 d)) : d.version.major? = some 4 ∧ d.distribution.Satisfies P := by
  obtain ⟨v, dialect, hv, hd⟩ := decode_eq_ok h
  cases dialect with
  | classic =>
    obtain ⟨d', -, ⟨⟩⟩ := Decoded.map_eq_ok.1 hd
  | v4 =>
    obtain ⟨d', hd', ⟨⟩⟩ := Decoded.map_eq_ok.1 hd
    exact V4.decodeDocument_image y hv hd'

theorem v4_of_decode {bytes : List UInt8} {d : V4Document} (h : decode bytes = .ok (.v4 d)) :
    d.version.major? = some 4 ∧ d.distribution.Satisfies V4.read :=
  satisfies_of_decode V4.yields_read h

/-- Whatever dialect a document was read in, its Classic tree is one that can be read. -/
theorem toClassic_of_decode {bytes : List UInt8} {doc : AnyDocument} (h : decode bytes = .ok doc) :
    Classic.IsVersion doc.toClassic.version ∧ doc.toClassic.distribution.Satisfies Classic.read := by
  cases doc with
  | classic d => exact classic_of_decode h
  | v4 d =>
    obtain ⟨-, hd⟩ := v4_of_decode h
    exact ⟨Classic.isVersion_defaultClassic, hd.mapAttrs V4.carried_toClassic hd⟩

end AnyDocument

end IrDialects
