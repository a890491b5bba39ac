import IrDialects.Proofs.Classic.Parts
import IrDialects.Proofs.Naming.Canonical
import IrDialects.Proofs.V4.Node
import IrDialects.V4.Incomplete
import IrDialects.V4.Literal
import IrDialects.V4.Naming

/-!
# Names, literals and small nodes of V4 documents

What a V4 document has to be for its form to be read back: names are strings there and keys of
objects, so they have to be canonical. For a text of it to be read back, siblings that are told apart
by their keys have to differ too.
-/

namespace IrDialects

/-- The names of a tree are canonical and tell siblings apart. -/
def Conditions.portable {τ ν : Type} : Conditions τ ν where
  name := Name.Canonical
  path := Path.Canonical
  qualified := FQName.Canonical
  names := List.Nodup
  paths := List.Nodup

namespace V4

/-- What trees meet that were read from a V4 document. -/
def read : Conditions TypeAttrs ValueAttrs where
  typeAttrs := TypeAttrs.Readable
  valueAttrs := ValueAttrs.Readable
  literal := Literal.Writable

/-- The V4 form of a tree can be written; its names are free. -/
def writable : Conditions TypeAttrs ValueAttrs where
  typeAttrs := TypeAttrs.Written
  valueAttrs := ValueAttrs.Written
  literal := Literal.Writable

/-- The parts of a tree are read back from their V4 form. -/
def legible : Conditions TypeAttrs ValueAttrs where
  typeAttrs := TypeAttrs.Readable
  valueAttrs := ValueAttrs.Readable
  literal := Literal.Writable
  name := Name.Canonical
  path := Path.Canonical
  qualified := FQName.Canonical

/-- A tree is read back from the text of its V4 form. -/
def written : Conditions TypeAttrs ValueAttrs where
  typeAttrs := TypeAttrs.Written
  valueAttrs := ValueAttrs.Written
  literal := Literal.Writable
  name := Name.Canonical
  path := Path.Canonical
  qualified := FQName.Canonical
  names := List.Nodup
  paths := List.Nodup

theorem decodeName_encodeName {n : Name} (h : n.Canonical) : decodeName (encodeName n) = .ok n := by
  simp [decodeName, encodeName, h]

theorem decodePath_encodePath {p : Path} (h : p.Canonical) : decodePath (encodePath p) = .ok p := by
  simp [decodePath, encodePath, h]

theorem decodeFQName_encodeFQName {f : FQName} (h : f.Canonical) :
    decodeFQName (encodeFQName f) = .ok f := by
  simp [decodeFQName, encodeFQName, h]

theorem decodeLiteral_encodeLiteral {l : Literal} (h : l.Writable) :
    decodeLiteral (encodeLiteral l) = .ok l := by
  refine Decoded.bind_eq_ok.2 ⟨_, unwrap_wrapped (LiteralTag.find?_name _) _, ?_⟩
  exact field_of_get? (Json.get?_cons ..) (Classic.decodePayload_encodePayload h)

theorem decodeHoleReason_encodeHoleReason {r : HoleReason} (h : r.Satisfies legible) :
    decodeHoleReason (encodeHoleReason r) = .ok r := by
  cases r with
  | unresolvedReference f =>
    refine Decoded.bind_eq_ok.2
      ⟨_, unwrap_wrapped (HoleReasonTag.find?_name .unresolvedReference) _, ?_⟩
    have hf := decodeFQName_encodeFQName (h f rfl)
    exact Decoded.bind_eq_ok.2 ⟨f, field_of_get? (by simp) hf, rfl⟩
  | deletedDuringRefactor t =>
    refine Decoded.bind_eq_ok.2
      ⟨_, unwrap_wrapped (HoleReasonTag.find?_name .deletedDuringRefactor) _, ?_⟩
    exact Decoded.bind_eq_ok.2 ⟨t, field_of_get? (v := .string t) (by simp) rfl, rfl⟩
  | typeMismatch e f =>
    refine Decoded.bind_eq_ok.2 ⟨_, unwrap_wrapped (HoleReasonTag.find?_name .typeMismatch) _, ?_⟩
    refine Decoded.bind_eq_ok.2 ⟨e, field_of_get? (v := .string e) (by simp) rfl, ?_⟩
    exact Decoded.bind_eq_ok.2 ⟨f, field_of_get? (v := .string f) (by simp) rfl, rfl⟩
  | draft =>
    exact Decoded.bind_eq_ok.2 ⟨_, unwrap_wrapped (HoleReasonTag.find?_name .draft) _, rfl⟩

theorem decodeIncompleteness_encodeIncompleteness {i : Incompleteness} (h : i.Satisfies legible) :
    decodeIncompleteness (encodeIncompleteness i) = .ok i := by
  cases i with
  | hole r =>
    refine Decoded.bind_eq_ok.2 ⟨_, unwrap_wrapped (IncompletenessTag.find?_name .hole) _, ?_⟩
    have hr := decodeHoleReason_encodeHoleReason (h r rfl)
    exact Decoded.bind_eq_ok.2 ⟨r, field_of_get? (by simp) hr, rfl⟩
  | draft =>
    exact Decoded.bind_eq_ok.2 ⟨_, unwrap_wrapped (IncompletenessTag.find?_name .draft) _, rfl⟩

theorem decodeNativeHint_encodeNativeHint (h : NativeHint) :
    decodeNativeHint (encodeNativeHint h) = .ok h := by
  cases h with
  | arithmetic =>
    exact Decoded.bind_eq_ok.2 ⟨_, unwrap_wrapped (NativeHintTag.find?_name .arithmetic) _, rfl⟩
  | comparison =>
    exact Decoded.bind_eq_ok.2 ⟨_, unwrap_wrapped (NativeHintTag.find?_name .comparison) _, rfl⟩
  | stringOp =>
    exact Decoded.bind_eq_ok.2 ⟨_, unwrap_wrapped (NativeHintTag.find?_name .stringOp) _, rfl⟩
  | collectionOp =>
    exact Decoded.bind_eq_ok.2 ⟨_, unwrap_wrapped (NativeHintTag.find?_name .collectionOp) _, rfl⟩
  | platformSpecific p =>
    refine Decoded.bind_eq_ok.2
      ⟨_, unwrap_wrapped (NativeHintTag.find?_name .platformSpecific) _, ?_⟩
    exact Decoded.bind_eq_ok.2 ⟨p, field_of_get? (v := .string p) (by simp) rfl, rfl⟩

theorem decodeNativeInfo_encodeNativeInfo (m : Mode) (i : NativeInfo) :
    decodeNativeInfo (encodeNativeInfo m i) = .ok i := by
  obtain ⟨hint, description⟩ := i
  have hdescription : decodeDescription (("hint", encodeNativeHint hint) ::
      member m "description" (.string description) description.isEmpty) = .ok description := by
    cases m with
    | expanded => simp [decodeDescription, member, Mode.isExpanded, string, Shape.string]
    | compact =>
      by_cases hd : description = "" <;>
        simp [decodeDescription, member, Mode.isExpanded, string, Shape.string, hd]
  simp [decodeNativeInfo, encodeNativeInfo, Shape.object, Shape.member,
    decodeNativeHint_encodeNativeHint, hdescription]

end V4

end IrDialects
