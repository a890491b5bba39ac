import IrDialects.Document.Expression
import IrDialects.Proofs.Json.RoundTrip
import IrDialects.Proofs.Tree.Nesting
import IrDialects.Proofs.V4.Content
import IrDialects.Proofs.V4.Document
import IrDialects.Proofs.V4.DocumentImage

/-!
# Texts of V4 documents

A V4 document whose names are canonical has a text in both modes, and the text is read back as the
same document. The one exception is a text with more levels of nesting than the reader of JSON
allows: it is no JSON to that reader.
-/

namespace IrDialects

open Json.Reader (depthLimit)

/-- Something is read from a text as from the value that the text spells. -/
theorem Decoded.ofBytes_marshal {α : Type} (decode : Json → Decoded α) {v : Json} {text : String}
    (hv : v.Orderly) (ht : Json.marshal v = .ok text) :
    ofBytes decode (Text.Bytes.encode text) =
      if v.depth ≤ depthLimit then (decode v).mapError .issue
      else .error (.plain Json.ReadFault.invalid.message) := by
  rw [ofBytes, Json.parseBytes_marshal hv ht]
  by_cases hd : v.depth ≤ depthLimit
  · simp only [if_pos hd]
  · simp only [if_neg hd]

namespace V4

theorem decode_marshal {v : Json} {text : String} (hv : v.Orderly)
    (ht : Json.marshal v = .ok text) :
    decode (Text.Bytes.encode text) =
      if v.depth ≤ depthLimit then (decodeDocument v).mapError .issue
      else .error (.plain Json.ReadFault.invalid.message) :=
  Decoded.ofBytes_marshal decodeDocument hv ht

/-- What becomes of a document that is written and read again. -/
theorem decode_encode (m : Mode) {d : V4Document} (hv : d.version.major? = some 4)
    (hd : d.distribution.Satisfies written) :
    ∃ text, encode m d = .ok text ∧ decode (Text.Bytes.encode text) =
      if (encodeDocument m d).depth ≤ depthLimit then .ok d
      else .error (.plain Json.ReadFault.invalid.message) := by
  have hclean : (encodeDocument m d).Clean := clean_encodeDocument hd
  obtain ⟨text, ht⟩ := Json.exists_marshal hclean
  refine ⟨text, ht, ?_⟩
  rw [decode_marshal hclean.orderly ht,
    decodeDocument_encodeDocument hv (hd.both carried_legible hd)]
  rfl

/-- Every V4 document with canonical names, distinct siblings and parts that can be written is read
back from its text in either mode, as long as the text is not nested too deeply; a text that is
nested too deeply is refused. -/
theorem document_reads_back (m : Mode) (d : V4Document) (hv : d.version.major? = some 4)
    (hd : d.distribution.Satisfies written) :
    ∃ text, encode m d = .ok text ∧
      ((encodeDocument m d).depth ≤ depthLimit → decode (Text.Bytes.encode text) = .ok d) ∧
      (depthLimit < (encodeDocument m d).depth →
        decode (Text.Bytes.encode text) = .error (.plain "invalid JSON")) := by
  obtain ⟨text, ht, hread⟩ := decode_encode m hv hd
  refine ⟨text, ht, fun hdepth => ?_, fun hdepth => ?_⟩
  · rw [hread, if_pos hdepth]
  · rw [hread, if_neg (Nat.not_le.2 hdepth)]
    rfl

/-- A library with an alias for a record, and a value that adds one to its argument. -/
def smallLibrary : V4Document where
  version := .text "4.1"
  distribution :=
    .library ⟨[⟨["my", "org"]⟩]⟩ []
      ⟨[⟨⟨[⟨["geometry"]⟩]⟩, .everyone,
        { types := [⟨⟨["point"]⟩, .everyone, "", .synonym [] (.record
            { source := some ⟨1, 2, 1, 20⟩ } [(⟨["x", "1"]⟩, .variable {} ⟨["a"]⟩),
              (⟨["x", "2"]⟩, .variable {} ⟨["a"]⟩)])⟩]
          values := [⟨⟨["next"]⟩, .packageOnly, "the next one", .mk [⟨⟨["n"]⟩, {}, .unit {}⟩]
            (.unit {}) (.expression (.apply {} (.apply {} (.reference {}
              ⟨⟨[⟨["sdk"]⟩]⟩, ⟨[⟨["basics"]⟩]⟩, ⟨["add"]⟩⟩) (.variable {} ⟨["n"]⟩))
                (.literal {} (.integer 1))))⟩] }⟩]⟩

theorem satisfies_smallLibrary : smallLibrary.distribution.Satisfies written := by
  have ht : written.typeAttrs {} := TypeAttrs.written_empty
  have hv : written.valueAttrs {} := ValueAttrs.written_empty
  have hsource : written.typeAttrs { source := some ⟨1, 2, 1, 20⟩ } := by
    have hnum : ∀ n : Int, 1 ≤ n → n ≤ 20 → Number.Whole.InRange n :=
      fun n _ _ => ⟨by omega, by omega⟩
    refine ⟨⟨?_, by simp⟩, by simp, .object List.nodup_nil (by simp)⟩
    rintro _ ⟨⟩
    exact ⟨hnum 1 (by omega) (by omega), hnum 2 (by omega) (by omega), hnum 1 (by omega) (by omega),
      hnum 20 (by omega) (by omega)⟩
  have hname : ∀ n ∈ [⟨["point"]⟩, ⟨["x", "1"]⟩, ⟨["x", "2"]⟩, ⟨["a"]⟩, ⟨["next"]⟩, ⟨["n"]⟩, ⟨["add"]⟩],
      Name.Canonical n := by decide
  have hpath : ∀ p ∈ [⟨[⟨["my", "org"]⟩]⟩, ⟨[⟨["geometry"]⟩]⟩, ⟨[⟨["sdk"]⟩]⟩, ⟨[⟨["basics"]⟩]⟩],
      Path.Canonical p := by decide
  simp only [List.forall_mem_cons] at hname hpath
  obtain ⟨hpoint, hx, hx', ha, hnext, hn, hadd, -⟩ := hname
  obtain ⟨hpackage, hmodule, hsdk, hbasics, -⟩ := hpath
  have hkey : ∀ n : Name, n.Canonical → written.Keyed [n] :=
    fun n hn => ⟨List.forall_mem_singleton.2 hn, List.nodup_singleton n⟩
  have htype : TypeExpr.Satisfies written (.record { source := some ⟨1, 2, 1, 20⟩ }
      [(⟨["x", "1"]⟩, .variable {} ⟨["a"]⟩), (⟨["x", "2"]⟩, .variable {} ⟨["a"]⟩)]) := by
    refine .record hsource ⟨?_, ?_⟩ (by simpa using .variable ht ha)
    · exact List.forall_mem_cons.2 ⟨hx, List.forall_mem_singleton.2 hx'⟩
    · exact List.nodup_cons.2 ⟨by simp, List.nodup_singleton _⟩
  have hbody : Value.Satisfies written (.apply {} (.apply {} (.reference {}
      ⟨⟨[⟨["sdk"]⟩]⟩, ⟨[⟨["basics"]⟩]⟩, ⟨["add"]⟩⟩) (.variable {} ⟨["n"]⟩))
        (.literal {} (.integer 1))) :=
    .apply hv (.apply hv (.reference hv ⟨hsdk, hbasics, hadd, by simp⟩) (.variable hv hn))
      (.literal hv ⟨by omega, by omega⟩)
  refine .library hpackage ⟨⟨by simp, List.nodup_nil⟩, by simp⟩
    ⟨⟨List.forall_mem_singleton.2 hmodule, List.nodup_singleton _⟩, List.forall_mem_singleton.2 ?_⟩
  refine ⟨hkey _ hpoint, List.forall_mem_singleton.2 (.synonym (by simp) htype), hkey _ hnext,
    List.forall_mem_singleton.2 ⟨⟨hkey _ hn, ?_, .unit ht, ?_⟩, ?_⟩⟩
  · exact List.forall_mem_singleton.2 ⟨hv, .unit ht⟩
  · rintro _ ⟨⟩
  · rintro _ ⟨⟩
    exact hbody

theorem smallLibrary_text_reads_back :
    ∃ text, encode .compact smallLibrary = .ok text ∧
      decode (Text.Bytes.encode text) = .ok smallLibrary := by
  obtain ⟨text, ht, hread, -⟩ :=
    document_reads_back .compact smallLibrary rfl satisfies_smallLibrary
  exact ⟨text, ht, hread (by decide)⟩

section Nesting

theorem lt_depth_of_mem {ms : Members} {k : String} {v : Json} {n : Nat} (hn : n ≤ v.depth)
    (h : (k, v) ∈ ms) : n < (Json.object ms).depth :=
  Nat.lt_of_le_of_lt hn (Json.depth_lt_of_mem_object h)

theorem lt_depth_wrapped {ms : Members} {k : String} {v : Json} {n : Nat} (tag : String)
    (hn : n ≤ v.depth) (h : (k, v) ∈ ms) : n < (wrapped tag ms).depth :=
  lt_depth_of_mem (lt_depth_of_mem hn h).le (List.mem_singleton_self _)

theorem le_depth_nestedType (m : Mode) (a : TypeAttrs) (n : Nat) :
    n ≤ (encodeType m (.nested a n)).depth := by
  induction n with
  | zero => exact Nat.zero_le _
  | succ n ih =>
    rw [TypeExpr.nested, encodeType]
    exact lt_depth_wrapped "Function" ih (List.mem_cons_self ..)

/-- A type is nested at least as deeply in the text of a document as in its tree. -/
theorem lt_depth_nested (m : Mode) (version : FormatVersion) (a : TypeAttrs) (n : Nat) :
    n < (encodeDocument m ⟨version, .nested a n⟩).depth := by
  have hspec : n ≤ (encodeTypeSpecification m (.synonym [] (.nested a n))).depth :=
    (lt_depth_wrapped (k := "type-exp") _ (le_depth_nestedType m a n) (by simp)).le
  have hentry : n ≤ (encodeSpecEntry m ""
      (encodeTypeSpecification m (.synonym [] (.nested a n)))).depth :=
    (lt_depth_of_mem (k := "value") hspec (by simp)).le
  have hmodule : n ≤ (encodeModuleSpec m ⟨[⟨⟨[]⟩, "", .synonym [] (.nested a n)⟩], [], ""⟩).depth :=
    (lt_depth_of_mem (lt_depth_of_mem hentry (List.mem_singleton_self _)).le
      (List.mem_cons_self ..)).le
  have hpackage : n ≤ (encodePackageSpec m
      ⟨[⟨⟨[]⟩, ⟨[⟨⟨[]⟩, "", .synonym [] (.nested a n)⟩], [], ""⟩⟩]⟩).depth :=
    (lt_depth_of_mem (lt_depth_of_mem hmodule (List.mem_singleton_self _)).le
      (List.mem_singleton_self _)).le
  have hdistribution : n ≤ (encodeDistribution m (.nested a n)).depth :=
    (lt_depth_wrapped (k := "spec") "Specs" hpackage (by simp)).le
  exact lt_depth_of_mem (k := "distribution") hdistribution (by simp)

theorem satisfies_written_nested (n : Nat) : (Distribution.nested {} n).Satisfies written := by
  refine Distribution.satisfies_nested TypeAttrs.written_empty ?_ ?_ (fun _ h => h) (fun _ h => h) n
  · rintro ⟨_⟩ rfl
    exact List.forall_mem_nil _
  · rintro ⟨_⟩ rfl
    exact List.forall_mem_nil _

/-- A document with a type that is nested more deeply than the reader of JSON allows. -/
def deepDocument : V4Document := ⟨.defaultV4, .nested {} depthLimit⟩

theorem satisfies_deepDocument : deepDocument.distribution.Satisfies written :=
  satisfies_written_nested depthLimit

theorem deepDocument_is_refused :
    deepDocument.version.major? = some 4 ∧ deepDocument.distribution.Satisfies written ∧
      ¬ ∃ text, encode .compact deepDocument = .ok text ∧
        decode (Text.Bytes.encode text) = .ok deepDocument := by
  refine ⟨major?_defaultV4, satisfies_deepDocument, ?_⟩
  rintro ⟨text, ht, hread⟩
  obtain ⟨text', ht', hread'⟩ := decode_encode .compact major?_defaultV4 satisfies_deepDocument
  have hdepth : depthLimit < (encodeDocument .compact deepDocument).depth :=
    lt_depth_nested .compact .defaultV4 {} depthLimit
  rw [ht] at ht'
  cases ht'
  rw [hread, if_neg (Nat.not_le.2 hdepth)] at hread'
  cases hread'

end Nesting

end V4

end IrDialects
