import IrDialects.Proofs.Document.Locations
import IrDialects.Proofs.Document.Detection
import IrDialects.Proofs.Document.Output

/-!
# Classes of failures

An issue of a document is about the version exactly if it is found at the version: everything else
arises below a distribution, whose path begins with other segments and where no complaint is about a
version. So a document whose dialect was told is only ever found to have a wrong shape or a field of
another type, and what has no issue at all is no JSON.
-/

namespace IrDialects

variable {R : String → String → Prop} {α β : Type}

/-- The issue is about the version of a document exactly if it is found at the version. -/
def Issue.ClassedByPlace (e : Issue) : Prop :=
  e.kind = .unknownFormatVersion ↔ e.path = ["formatVersion"]

theorem Issue.OfDocument.classedByPlace {v : Json} {e : Issue} (h : e.OfDocument R v) :
    e.ClassedByPlace := by
  cases h with
  | version _ hc => exact iff_of_true hc rfl
  | below h hpath => exact iff_of_false h.kind_ne fun he => hpath (by rw [he, List.head?_cons])

theorem Classic.classedByPlace {v : Json} {e : Issue} (h : decodeDocument codec v = .error e) :
    e.ClassedByPlace :=
  (ofDocument (R := fun _ _ => False) h).classedByPlace

theorem V4.classedByPlace {v : Json} {e : Issue} (h : decodeDocument v = .error e) :
    e.ClassedByPlace :=
  (ofDocument h).classedByPlace

theorem Decoded.map_eq_error {f : α → β} {x : Decoded α} {e : Issue} :
    f <$> x = .error e ↔ x = .error e := by
  cases x <;> simp

theorem IssueKind.eq_of_ne {k : IssueKind} (h : k ≠ .unknownFormatVersion) :
    k = .malformedShape ∨ k = .fieldTypeMismatch := by
  cases k with
  | malformedShape => exact .inl rfl
  | unknownFormatVersion => exact absurd rfl h
  | fieldTypeMismatch => exact .inr rfl

namespace AnyDocument

/-- Once the dialect is told, whatever is found wrong is not the version. -/
theorem kind_of_decodeIn {d : Dialect} {v : Json} {e : Issue} (hd : Dialect.detect v = .ok d)
    (h : decodeIn d v = .error e) : e.kind ≠ .unknownFormatVersion := by
  refine (Dialect.within_check hd (Nat.lt_succ_self _) e ?_).kind_ne
  cases d with
  | classic =>
    rw [Dialect.check, Decoded.map_eq_error.1 h]
    rfl
  | v4 =>
    rw [Dialect.check, Decoded.map_eq_error.1 h]
    rfl

/-- The decoders of documents fail with an issue, which is about the version exactly if its path is
that of the version. A document that cannot be read is either one whose dialect cannot be told or one
that its decoder rejects, never both. What a decoder rejects has a malformed shape or a field of
another type, and a failure without an issue means that the bytes are no JSON. -/
theorem failures_are_classified :
    (∀ v e, Classic.decodeDocument Classic.codec v = .error e → e.ClassedByPlace) ∧
    (∀ v e, V4.decodeDocument v = .error e → e.ClassedByPlace) ∧
    ∀ bytes f, decode bytes = .error f →
      (f.isDetect ^^ f.isDecode) = true ∧
      (f.isDecode = true → ∃ e, f.cause?.bind Fault.issue? = some e ∧
        (e.kind = .malformedShape ∨ e.kind = .fieldTypeMismatch)) ∧
      (f.cause?.bind Fault.issue? = none → ∃ e, Json.parseBytes bytes = .error e) := by
  refine ⟨fun v e => Classic.classedByPlace, fun v e => V4.classedByPlace, fun bytes f h => ?_⟩
  obtain ⟨e, he, rfl⟩ | ⟨v, e, -, -, rfl⟩ | ⟨v, d, e, -, hd, he, rfl⟩ := decode_eq_error h
  · exact ⟨rfl, fun hdecode => Bool.noConfusion hdecode, fun _ => ⟨e, he⟩⟩
  · exact ⟨rfl, fun hdecode => Bool.noConfusion hdecode, fun hissue => by cases hissue⟩
  · exact ⟨rfl, fun _ => ⟨e, rfl, IssueKind.eq_of_ne (kind_of_decodeIn hd he)⟩,
      fun hissue => by cases hissue⟩

end AnyDocument

end IrDialects
