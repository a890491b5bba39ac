import IrDialects.Classic.Document
import IrDialects.Proofs.Tree.Conditions
import IrDialects.Proofs.Wire.Decoding
import IrDialects.Proofs.Wire.Tag

/-!
# Names, literals and small nodes in the Classic form

Everything that has no attributes is read back from its Classic form: names in any spelling, literals
that can be written, reasons for holes and descriptions of native operations.
-/

namespace IrDialects

/-- Whether a literal has a written form: integers have 64 bits, floating-point numbers are finite,
and decimals are numerals. -/
def Literal.Writable : Literal → Prop
  | .integer n => Number.Whole.InRange n
  | .float x => ∃ negative m, x = .finite negative m
  | .decimal s => Number.Decimal.check s = .ok ()
  | _ => True

namespace Classic

@[simp] theorem decodeName_encodeName (n : Name) : decodeName (encodeName n) = .ok n := by
  have h : Shape.list "name" (Shape.string "name word") (.array (n.words.map .string)) =
      .ok n.words := Shape.list_map _ fun _ _ => rfl
  simp only [decodeName, encodeName, h, Decoded.ok_bind, Decoded.pure_eq]

@[simp] theorem decodePath_encodePath (p : Path) : decodePath (encodePath p) = .ok p := by
  have h : Shape.list "path" decodeName (.array (p.names.map encodeName)) = .ok p.names :=
    Shape.list_map _ fun n _ => decodeName_encodeName n
  simp only [decodePath, encodePath, h, Decoded.ok_bind, Decoded.pure_eq]

@[simp] theorem decodeFQName_encodeFQName (f : FQName) :
    decodeFQName (encodeFQName f) = .ok f := by
  simp [decodeFQName, encodeFQName, Shape.array]

@[simp] theorem decodeNames_encodeNames (what : String) (ns : List Name) :
    decodeNames what (encodeNames ns) = .ok ns :=
  Shape.list_map _ fun n _ => decodeName_encodeName n

theorem decodeDecimal_eq_ok {s : String} {l : Literal} :
    decodeDecimal s = .ok l ↔ Number.Decimal.check s = .ok () ∧ l = .decimal s := by
  rw [decodeDecimal, Number.Decimal.checkOrMessage]
  cases h : Number.Decimal.check s with
  | error p => simp [Except.mapError]
  | ok u => simp [Except.mapError, eq_comm]

theorem decodePayload_encodePayload {l : Literal} (h : l.Writable) :
    decodePayload (literalTag l) (encodePayload l) = .ok l := by
  cases l with
  | bool b => rfl
  | char c =>
    have hc : (String.singleton c).toList = [c] := by simp
    simp [decodePayload, literalTag, encodePayload, Shape.string, hc]
  | string s => rfl
  | integer n =>
    simp [decodePayload, literalTag, encodePayload, Shape.int_ofInt h]
  | float x =>
    obtain ⟨negative, m, rfl⟩ := h
    have hx : Shape.float LiteralTag.float.name
        (.number (Number.FloatLayout.document.text (.finite negative m))) =
          .ok (.finite negative m) :=
      Shape.float_eq_ok.2 ⟨_, rfl, Number.FloatLayout.read_text .document negative m⟩
    simp [decodePayload, literalTag, encodePayload, hx]
  | decimal s => exact decodeDecimal_eq_ok.2 ⟨h, rfl⟩

theorem find?_writtenTag (l : Literal) :
    LiteralTag.table.find? (writtenTag l) = some (literalTag l) := by
  cases l with
  | integer n => exact LiteralTag.find?_wholeNumber
  | _ => exact LiteralTag.find?_name _

theorem decodeLiteral_encodeLiteral {l : Literal} (h : l.Writable) :
    decodeLiteral (encodeLiteral l) = .ok l := by
  simp [decodeLiteral, encodeLiteral, Shape.tagged_ok (find?_writtenTag l), Shape.one,
    decodePayload_encodePayload h]

@[simp] theorem decodeHoleReason_encodeHoleReason (r : HoleReason) :
    decodeHoleReason (encodeHoleReason r) = .ok r := by
  cases r with
  | unresolvedReference f =>
    refine Decoded.bind_eq_ok.2
      ⟨_, Shape.tagged_ok (HoleReasonTag.find?_name .unresolvedReference) _, ?_⟩
    simp [Shape.one]
  | deletedDuringRefactor t =>
    refine Decoded.bind_eq_ok.2
      ⟨_, Shape.tagged_ok (HoleReasonTag.find?_name .deletedDuringRefactor) _, ?_⟩
    simp [Shape.one, Shape.string]
  | typeMismatch e f =>
    refine Decoded.bind_eq_ok.2 ⟨_, Shape.tagged_ok (HoleReasonTag.find?_name .typeMismatch) _, ?_⟩
    simp [Shape.two, Shape.string]
  | draft =>
    refine Decoded.bind_eq_ok.2 ⟨_, Shape.tagged_ok (HoleReasonTag.find?_name .draft) _, ?_⟩
    simp [Shape.zero]

@[simp] theorem decodeIncompleteness_encodeIncompleteness (i : Incompleteness) :
    decodeIncompleteness (encodeIncompleteness i) = .ok i := by
  cases i with
  | hole r =>
    refine Decoded.bind_eq_ok.2 ⟨_, Shape.tagged_ok (IncompletenessTag.find?_name .hole) _, ?_⟩
    simp [Shape.one]
  | draft =>
    refine Decoded.bind_eq_ok.2 ⟨_, Shape.tagged_ok (IncompletenessTag.find?_name .draft) _, ?_⟩
    simp [Shape.zero]

@[simp] theorem decodeNativeHint_encodeNativeHint (h : NativeHint) :
    decodeNativeHint (encodeNativeHint h) = .ok h := by
  cases h with
  | arithmetic =>
    refine Decoded.bind_eq_ok.2 ⟨_, Shape.tagged_ok (NativeHintTag.find?_name .arithmetic) _, ?_⟩
    simp [Shape.zero]
  | comparison =>
    refine Decoded.bind_eq_ok.2 ⟨_, Shape.tagged_ok (NativeHintTag.find?_name .comparison) _, ?_⟩
    simp [Shape.zero]
  | stringOp =>
    refine Decoded.bind_eq_ok.2 ⟨_, Shape.tagged_ok (NativeHintTag.find?_name .stringOp) _, ?_⟩
    simp [Shape.zero]
  | collectionOp =>
    refine Decoded.bind_eq_ok.2 ⟨_, Shape.tagged_ok (NativeHintTag.find?_name .collectionOp) _, ?_⟩
    simp [Shape.zero]
  | platformSpecific p =>
    refine Decoded.bind_eq_ok.2
      ⟨_, Shape.tagged_ok (NativeHintTag.find?_name .platformSpecific) _, ?_⟩
    simp [Shape.one, Shape.string]

@[simp] theorem decodeNativeInfo_encodeNativeInfo (i : NativeInfo) :
    decodeNativeInfo (encodeNativeInfo i) = .ok i := by
  obtain ⟨hint, description⟩ := i
  by_cases h : description = "" <;>
    simp [decodeNativeInfo, encodeNativeInfo, Shape.object, Shape.member, Shape.optionalString,
      Shape.string, h]

end Classic

end IrDialects
