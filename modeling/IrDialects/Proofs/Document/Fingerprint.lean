import IrDialects.Proofs.Document.Migration
import IrDialects.Proofs.Json.Canonical
import IrDialects.Proofs.Tree.Labels

/-!
# What fingerprints tell apart

The bytes under a fingerprint are those of the Classic form without attributes. They are the same for
two documents exactly if the documents have the same structure, whatever dialects and versions they
were read in: attributes are gone before the form is written, and the form without attributes can be
read back.
-/

namespace IrDialects

namespace Classic

theorem readable_bare : Readable codec bare where
  typeAttrs := by
    rintro _ rfl
    rfl
  valueAttrs := by
    rintro _ rfl
    rfl
  literal _ hl := hl

/-- Documents without attributes are told apart by their Classic forms. -/
theorem encodeDocument_inj {a b : ClassicDocument} (ha : IsVersion a.version)
    (hb : IsVersion b.version) (hta : a.distribution.Satisfies bare)
    (htb : b.distribution.Satisfies bare) :
    encodeDocument codec a = encodeDocument codec b ↔ a = b := by
  refine ⟨fun h => ?_, congrArg _⟩
  have hreada := decodeDocument_encodeDocument readable_bare ha hta
  have hreadb := decodeDocument_encodeDocument readable_bare hb htb
  rw [h, hreadb] at hreada
  exact (Except.ok.inj hreada).symm

end Classic

namespace AnyDocument

open Classic (codec)

/-- The structure of a document: its distribution with every attribute erased. -/
def erased : AnyDocument → Distribution Unit Unit
  | classic d => d.distribution.erased
  | v4 d => d.distribution.erased

/-- The bytes of which the fingerprint is the digest. -/
def fingerprinted (doc : AnyDocument) : Except Json.WriteFault (List UInt8) :=
  Json.digestInput fingerprintDomain (Classic.encodeDocument codec doc.bare)

/-- The fingerprint exists if the bytes under it do. -/
theorem fingerprint_of_fingerprinted {doc : AnyDocument} {bytes : List UInt8}
    (h : doc.fingerprinted = .ok bytes) :
    doc.fingerprint = .ok (Text.Bytes.toHex (Hash.Sha256.digest bytes)) := by
  rw [fingerprinted] at h
  rw [fingerprint, Json.digest, h]
  rfl

theorem erased_toClassic (doc : AnyDocument) : doc.toClassic.distribution.erased = doc.erased := by
  cases doc with
  | classic d => rfl
  | v4 d => exact Distribution.erased_mapAttrs _ _ d.distribution

/-- Of a document, the tree under the fingerprint has its structure and nothing else. -/
theorem bare_eq (doc : AnyDocument) :
    doc.bare = ⟨.defaultClassic, doc.erased.mapAttrs (fun _ => {}) (fun _ => {})⟩ := by
  rw [← erased_toClassic, bare, Document.mapAttrs, Distribution.erased,
    Distribution.mapAttrs_mapAttrs]
  rfl

theorem bare_inj {a b : AnyDocument} : a.bare = b.bare ↔ a.erased = b.erased := by
  have hback (doc : AnyDocument) : doc.bare.distribution.erased = doc.erased := by
    rw [← erased_toClassic]
    exact Distribution.erased_mapAttrs _ _ _
  constructor
  · intro h
    rw [← hback a, ← hback b, h]
  · intro h
    rw [bare_eq, bare_eq, h]

/-- The tree under the fingerprint of a document that was read can be written and read back. -/
theorem satisfies_bare {bytes : List UInt8} {doc : AnyDocument} (h : decode bytes = .ok doc) :
    doc.bare.distribution.Satisfies Classic.bare := by
  obtain ⟨-, htree⟩ := toClassic_of_decode h
  exact htree.mapAttrs Classic.carried_bare htree

theorem exists_fingerprint_of_decode {bytes : List UInt8} {doc : AnyDocument}
    (h : decode bytes = .ok doc) : ∃ s, doc.fingerprint = .ok s := by
  have hordered := Classic.ordered_encodeDocument (satisfies_bare h)
  obtain ⟨xs, -, hxs, -⟩ := Json.digestInput_inj fingerprintDomain hordered hordered
  exact ⟨_, fingerprint_of_fingerprinted hxs⟩

/-- A document that was read has a fingerprint, and the bytes under it say what its structure is and
nothing else: two documents have the same bytes exactly if they have the same structure. -/
theorem fingerprint_tells_structure {bytes bytes' : List UInt8} {a b : AnyDocument}
    (ha : decode bytes = .ok a) (hb : decode bytes' = .ok b) :
    ∃ xs ys, a.fingerprinted = .ok xs ∧ b.fingerprinted = .ok ys ∧
      a.fingerprint = .ok (Text.Bytes.toHex (Hash.Sha256.digest xs)) ∧
      b.fingerprint = .ok (Text.Bytes.toHex (Hash.Sha256.digest ys)) ∧
      (xs = ys ↔ a.erased = b.erased) := by
  have hta := satisfies_bare ha
  have htb := satisfies_bare hb
  obtain ⟨xs, ys, hxs, hys, hinj⟩ := Json.digestInput_inj fingerprintDomain
    (Classic.ordered_encodeDocument hta) (Classic.ordered_encodeDocument htb)
  refine ⟨xs, ys, hxs, hys, fingerprint_of_fingerprinted hxs, fingerprint_of_fingerprinted hys, ?_⟩
  -- The bytes decide the written bare trees, and these decide the trees without attributes.
  rw [hinj, Classic.encodeDocument_inj Classic.isVersion_defaultClassic
    Classic.isVersion_defaultClassic hta htb, bare_inj]

/-- A V4 document with a type that is nested, all of whose nodes have a source location. -/
def locatedNesting (n : Nat) : V4Document :=
  ⟨.defaultV4, .nested { source := some ⟨1, 1, 1, 9⟩ } n⟩

theorem satisfies_locatedNesting (n : Nat) :
    (locatedNesting n).distribution.Satisfies V4.written := by
  have hsource : ({ source := some ⟨1, 1, 1, 9⟩ } : TypeAttrs).Written := by
    refine ⟨⟨?_, by simp⟩, by simp, .object List.nodup_nil (by simp)⟩
    rintro _ ⟨⟩
    exact ⟨by decide, by decide, by decide, by decide⟩
  refine Distribution.satisfies_nested hsource ?_ ?_ (fun _ h => h) (fun _ h => h) n
  · rintro ⟨_⟩ rfl
    exact List.forall_mem_nil _
  · rintro ⟨_⟩ rfl
    exact List.forall_mem_nil _

theorem nesting_tells_fingerprints_apart :
    ∃ bytes bytes' bytes'' xs ys, decode bytes = .ok (classic ⟨.defaultClassic, .nested {} 2⟩) ∧
      decode bytes' = .ok (v4 (locatedNesting 2)) ∧
      decode bytes'' = .ok (classic ⟨.defaultClassic, .nested {} 3⟩) ∧
      (classic ⟨.defaultClassic, .nested {} 2⟩).fingerprinted = .ok xs ∧
      (v4 (locatedNesting 2)).fingerprinted = .ok xs ∧
      (classic ⟨.defaultClassic, .nested {} 3⟩).fingerprinted = .ok ys ∧ xs ≠ ys := by
  obtain ⟨bytes, -, hread, -⟩ := exists_migrate_nested 2 (by decide) .compact
  obtain ⟨bytes'', -, hread'', -⟩ := exists_migrate_nested 3 (by decide) .compact
  have hclean := V4.clean_encodeDocument (m := .compact) (satisfies_locatedNesting 2)
  obtain ⟨text, htext⟩ := Json.exists_marshal hclean
  have hread' : decode (Text.Bytes.encode text) = .ok (v4 (locatedNesting 2)) := by
    rw [decode_marshal hclean.orderly htext, if_pos (by decide),
      decodeJson_v4 V4.major?_defaultV4 (satisfies_locatedNesting 2)]
  obtain ⟨xs, xs', hxs, hxs', -, -, hsame⟩ := fingerprint_tells_structure hread hread'
  obtain ⟨xs'', ys, hxs'', hys, -, -, hother⟩ := fingerprint_tells_structure hread hread''
  obtain rfl := Except.ok.inj (hxs.symm.trans hxs'')
  rw [← hsame.2 rfl] at hxs'
  refine ⟨bytes, _, bytes'', xs, ys, hread, hread', hread'', hxs, hxs', hys, fun h => ?_⟩
  cases hother.1 h

end AnyDocument

end IrDialects
