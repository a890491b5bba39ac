import IrDialects.Proofs.Document.Fingerprint
import IrDialects.Proofs.Document.Normalization
import IrDialects.Proofs.Json.Layout

/-!
# What can be done with a document that was read

A document that was read can be summarized, its dialect can be told from its bytes alone, and whatever
it is written to can be laid out: numbers that were read stay within the range of floating-point
numbers. A migration fails because the document cannot be read or because it cannot be written, and
the failure says which.
-/

namespace IrDialects

open AnyDocument
open Json.Reader (IsToken)

variable {bytes : List UInt8} {doc : AnyDocument}

namespace AnyDocument

/-- The numbers of what a document is written to are tokens. -/
theorem tokens_encodeJson (h : decode bytes = .ok doc) (mode : V4.Mode) (target : Dialect) :
    (doc.encodeJson mode target).All IsToken (fun _ => True) := by
  cases target with
  | classic =>
    have hclassic := Classic.orderly_encodeDocument (toClassic_of_decode h).2
    exact hclassic.imp (fun _ hs => hs) fun _ _ => trivial
  | v4 =>
    cases doc with
    | classic d =>
      obtain ⟨-, htree⟩ := classic_of_decode h
      have hwritable : (Convert.toV4 d).distribution.Satisfies V4.writable :=
        htree.mapAttrs Classic.carried_writable htree
      exact (V4.contains_writable.all_encodeDocument V4.isNumber_four hwritable).imp
        (fun _ hs => hs.isToken) fun _ hks => hks
    | v4 d =>
      obtain ⟨-, hkept⟩ := satisfies_of_decode V4.yields_kept h
      exact V4.contains_kept.all_encodeDocument V4.isNumber_four.isToken hkept

theorem exists_inspect (h : decode bytes = .ok doc) : ∃ s, doc.inspect = .ok s := by
  obtain ⟨print, hprint⟩ := exists_fingerprint_of_decode h
  exact ⟨_, by rw [inspect, hprint]; rfl⟩

theorem stats_of_inspect {s : Summary} (h : doc.inspect = .ok s) : s.stats = doc.stats := by
  rw [inspect] at h
  cases hprint : doc.fingerprint with
  | error f =>
    rw [hprint] at h
    cases h
  | ok print =>
    rw [hprint] at h
    cases h
    rfl

/-- What has been read has a dialect that can be told. -/
theorem exists_detectBytes (h : decode bytes = .ok doc) : ∃ d, Dialect.detectBytes bytes = .ok d := by
  rw [decode] at h
  cases hv : Json.parseBytes bytes with
  | error e =>
    rw [hv] at h
    cases h
  | ok v =>
    simp only [hv, decodeJson] at h
    cases hd : Dialect.detect v with
    | error e =>
      rw [hd] at h
      cases h
    | ok d =>
      refine ⟨d, ?_⟩
      rw [Dialect.detectBytes, hv]
      simp only [hd, Except.mapError]

/-- A document cannot be read because its text is no JSON, because its dialect cannot be told, or
because it is no document of that dialect. -/
theorem decode_eq_error {f : Failure} (h : decode bytes = .error f) :
    (∃ e, Json.parseBytes bytes = .error e ∧ f = .detect (.plain e.message)) ∨
    (∃ v e, Json.parseBytes bytes = .ok v ∧ Dialect.detect v = .error e ∧ f = .detect (.issue e)) ∨
    ∃ v d e, Json.parseBytes bytes = .ok v ∧ Dialect.detect v = .ok d ∧ decodeIn d v = .error e ∧
      f = .decode d (.issue e) := by
  rw [decode] at h
  split at h
  · rename_i e he
    cases h
    exact .inl ⟨e, he, rfl⟩
  · rename_i v hv
    rw [decodeJson] at h
    split at h
    · rename_i e he
      cases h
      exact .inr (.inl ⟨v, e, hv, he, rfl⟩)
    · rename_i d hd
      cases hin : decodeIn d v with
      | error e =>
        rw [hin] at h
        cases h
        exact .inr (.inr ⟨v, d, e, hv, hd, hin, rfl⟩)
      | ok doc =>
        rw [hin] at h
        cases h

/-- A document that cannot be read is one whose dialect cannot be told or that is none of its own. -/
theorem isDetect_or_isDecode {f : Failure} (h : decode bytes = .error f) :
    (f.isDetect || f.isDecode) = true := by
  obtain ⟨e, -, rfl⟩ | ⟨v, e, -, -, rfl⟩ | ⟨v, d, e, -, -, -, rfl⟩ := decode_eq_error h <;> rfl

theorem not_isDetect_or_isDecode {target : Dialect} {mode : V4.Mode} {f : Failure}
    (h : doc.encode target mode = .error f) : (f.isDetect || f.isDecode) = false := by
  rw [encode] at h
  cases hm : Json.marshal (doc.encodeJson mode target) with
  | error e =>
    rw [hm] at h
    cases h
    rfl
  | ok text =>
    rw [hm] at h
    cases h

end AnyDocument

/-- What a migration hands over can be laid out. -/
theorem exists_indent_of_migrate {target : Dialect} {mode : V4.Mode} {m : Migration}
    (h : migrate bytes target mode = .ok m) :
    ∃ laid, Json.indent m.output = .ok laid ∧ Json.LaidOut m.output laid := by
  obtain ⟨doc, text, hdoc, htext, rfl⟩ := migrate_eq_ok.1 h
  exact Json.exists_indent (tokens_encodeJson hdoc mode target) htext

end IrDialects
