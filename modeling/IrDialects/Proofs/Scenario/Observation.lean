import IrDialects.Proofs.Document.Output
import IrDialects.Scenario.Run

/-!
# What a run observes

What is in an observation follows from the document and the target alone: its source from the dialect
of the document, its issue from the failure to read it, and its output from migrating it. The stages of
the trace show how far this went.
-/

namespace IrDialects

open AnyDocument (decode)

variable {bytes : List UInt8} {target : Option Target}

namespace Finding

/-- What the kinds of issues are called in findings. -/
def kindNames : List (IssueKind × String) :=
  [(.malformedShape, "MALFORMED_SHAPE"), (.unknownFormatVersion, "UNKNOWN_FORMAT_VERSION"),
    (.fieldTypeMismatch, "FIELD_TYPE_MISMATCH")]

/-- The finding about a text that is no document: that it is no JSON, or the kind and the place of the
issue for which its dialect cannot be told or for which it is no document of its dialect. -/
inductive Describes (bytes : List UInt8) : Finding → Prop
  | notJson {e : Json.ReadFault} (hparse : Json.parseBytes bytes = .error e) :
      Describes bytes ⟨"INVALID_JSON", "", "", e.message⟩
  | undetected {v : Json} {e : Issue} {kind : String} (hparse : Json.parseBytes bytes = .ok v)
      (hdetect : Dialect.detect v = .error e) (hkind : (e.kind, kind) ∈ kindNames) :
      Describes bytes ⟨kind, e.pointer, e.tag, e.complaint.text⟩
  | undecoded {v : Json} {d : Dialect} {e : Issue} {kind : String}
      (hparse : Json.parseBytes bytes = .ok v) (hdetect : Dialect.detect v = .ok d)
      (hdecode : AnyDocument.decodeIn d v = .error e) (hkind : (e.kind, kind) ∈ kindNames) :
      Describes bytes ⟨kind, e.pointer, e.tag, e.complaint.text⟩

theorem mem_kindNames_iff {k : IssueKind} {kind : String} :
    (k, kind) ∈ kindNames ↔ kind = k.code := by
  cases k <;> simp [kindNames, IssueKind.code]

/-- There is a finding about every document that cannot be read, and there is one only. -/
theorem describes_iff {x : Finding} :
    Describes bytes x ↔ ∃ f, decode bytes = .error f ∧ x = f.finding := by
  constructor
  · intro h
    cases h with
    | notJson hparse => exact ⟨_, by rw [decode, hparse], rfl⟩
    | @undetected v e kind hparse hdetect hkind =>
      rw [mem_kindNames_iff] at hkind
      subst hkind
      refine ⟨.detect (.issue e), ?_, rfl⟩
      rw [decode, hparse]
      simp only [AnyDocument.decodeJson, hdetect]
    | @undecoded v d e kind hparse hdetect hdecode hkind =>
      rw [mem_kindNames_iff] at hkind
      subst hkind
      refine ⟨.decode d (.issue e), ?_, rfl⟩
      rw [decode, hparse]
      simp only [AnyDocument.decodeJson, hdetect, hdecode, Except.mapError]
  · rintro ⟨f, hf, rfl⟩
    obtain ⟨e, hparse, rfl⟩ | ⟨v, e, hparse, hdetect, rfl⟩ | ⟨v, d, e, hparse, hdetect, hdecode, rfl⟩ :=
      AnyDocument.decode_eq_error hf
    · exact .notJson hparse
    · exact .undetected hparse hdetect (mem_kindNames_iff.2 rfl)
    · exact .undecoded hparse hdetect hdecode (mem_kindNames_iff.2 rfl)

end Finding

namespace Observation

variable {seen seen' : Observation}

/-- A document is read and written as a text in what it is migrated to. -/
def Migrates (bytes : List UInt8) (target : Option Target) (doc : AnyDocument) (t : Target)
    (out : String) : Prop :=
  decode bytes = .ok doc ∧ target = some t ∧ doc.encode t.dialect t.mode = .ok out

/-- The stages of a run, by what comes of reading the document. -/
def stages : Except Failure AnyDocument → Option Target → List Stage
  | .error (.detect _), _ => [.detect]
  | .error _, _ => [.detect, .decode]
  | .ok _, none => [.detect, .decode]
  | .ok _, some _ => [.detect, .decode, .encode, .redecode]

/-- What is in the observation of a document that is to be migrated to a target. -/
structure Reports (bytes : List UInt8) (target : Option Target) (seen : Observation) : Prop where
  source : ∀ d, seen.source = some d ↔ Dialect.detectBytes bytes = .ok d
  issue : ∀ x, seen.issue = some x ↔ Finding.Describes bytes x
  document : ∀ doc, seen.document = some doc ↔ decode bytes = .ok doc
  written : ∀ doc t, decode bytes = .ok doc → target = some t → ∃ out, Migrates bytes target doc t out
  output : ∀ out, seen.output = some out ↔ ∃ doc t, Migrates bytes target doc t out
  unreadable : ∀ f, seen.unreadable = some f ↔
    ∃ doc t out, Migrates bytes target doc t out ∧ decode (Text.Bytes.encode out) = .error f
  stages : seen.trace.map TraceEvent.stage = stages (decode bytes) target

/-- There is at most one way in which a document is migrated. -/
theorem Migrates.exists_iff {doc : AnyDocument} {t : Target} {out : String}
    (h : Migrates bytes target doc t out) {p : AnyDocument → Target → String → Prop} :
    (∃ doc t out, Migrates bytes target doc t out ∧ p doc t out) ↔ p doc t out := by
  refine ⟨?_, fun hp => ⟨doc, t, out, h, hp⟩⟩
  rintro ⟨doc', t', out', ⟨hread, htarget, hout⟩, hp⟩
  cases hread.symm.trans h.1
  cases htarget.symm.trans h.2.1
  cases hout.symm.trans h.2.2
  exact hp

theorem Reports.not_migrates (h : Reports bytes target seen) (hout : seen.output = none)
    {doc : AnyDocument} {t : Target} {out : String} : ¬ Migrates bytes target doc t out := by
  intro hm
  have hsome := (h.output out).2 ⟨doc, t, hm⟩
  rw [hout] at hsome
  cases hsome

/-- There is an issue exactly if the document cannot be read. -/
theorem Reports.isSome_issue_iff (h : Reports bytes target seen) :
    seen.issue.isSome ↔ ∃ f, decode bytes = .error f := by
  rw [Option.isSome_iff_exists]
  constructor
  · rintro ⟨x, hx⟩
    obtain ⟨f, hf, -⟩ := Finding.describes_iff.1 ((h.issue x).1 hx)
    exact ⟨f, hf⟩
  · rintro ⟨f, hf⟩
    exact ⟨_, (h.issue _).2 (Finding.describes_iff.2 ⟨f, hf, rfl⟩)⟩

theorem Reports.decode_ne_ok (h : Reports bytes target seen) (hdoc : seen.document = none)
    {doc : AnyDocument} : decode bytes ≠ .ok doc := by
  rw [Ne, ← h.document, hdoc]
  simp

/-- The observation of a document that was read, before it is migrated. -/
def ofDocument (d : Dialect) (doc : AnyDocument) : Observation where
  trace := [⟨.detect, some d, ""⟩, ⟨.decode, some d, doc.kindName ++ " " ++ doc.package.text⟩]
  source := some d
  document := some doc

/-- Without a target nothing more is observed; with one, the document was written, and the output is
read again or not. -/
theorem migrated_eq_ok {doc : AnyDocument} (h : migrated seen doc target = .ok seen') :
    target = none ∧ seen' = seen ∨
    ∃ t out, target = some t ∧ doc.encode t.dialect t.mode = .ok out ∧
      ((∃ f, decode (Text.Bytes.encode out) = .error f ∧
          seen' = { seen with
            trace := seen.trace ++ [⟨.encode, some t.dialect, ""⟩, ⟨.redecode, some t.dialect, "failed"⟩]
            output := some out
            unreadable := some f }) ∨
        ∃ again, decode (Text.Bytes.encode out) = .ok again ∧
          seen' = { seen with
            trace := seen.trace ++ [⟨.encode, some t.dialect, ""⟩, ⟨.redecode, some again.dialect, ""⟩]
            output := some out }) := by
  cases target with
  | none =>
    cases h
    exact .inl ⟨rfl, rfl⟩
  | some t =>
    rw [migrated] at h
    cases hencode : doc.encode t.dialect t.mode with
    | error f =>
      rw [hencode] at h
      cases h
    | ok out =>
      refine .inr ⟨t, out, rfl, hencode, ?_⟩
      simp only [hencode] at h
      cases hdecode : decode (Text.Bytes.encode out) with
      | error f =>
        simp only [hdecode, List.append_assoc] at h
        cases h
        exact .inl ⟨f, rfl, rfl⟩
      | ok again =>
        simp only [hdecode, List.append_assoc] at h
        cases h
        exact .inr ⟨again, rfl, rfl⟩

theorem migrated_eq_error {doc : AnyDocument} {f : RunFault} (h : migrated seen doc target = .error f) :
    ∃ t e, target = some t ∧ doc.encode t.dialect t.mode = .error e ∧ f = .encode t.dialect e := by
  cases target with
  | none => cases h
  | some t =>
    rw [migrated] at h
    cases hencode : doc.encode t.dialect t.mode with
    | error e =>
      rw [hencode] at h
      cases h
      exact ⟨t, e, rfl, hencode, rfl⟩
    | ok out =>
      simp only [hencode] at h
      split at h <;> cases h

/-- A document that cannot be read has an issue and nothing else but perhaps a dialect. -/
theorem reports_failed {trace : List TraceEvent} {stage : Stage} {dialect : Option Dialect}
    {f : Failure} (hdecode : decode bytes = .error f)
    (hdetect : ∀ d, dialect = some d ↔ Dialect.detectBytes bytes = .ok d)
    (hstages : trace.map TraceEvent.stage ++ [stage] = stages (.error f) target) :
    Reports bytes target (failed trace stage dialect f.finding) where
  source := hdetect
  issue x := by simpa [Finding.describes_iff, failed, hdecode] using eq_comm
  document := by simp [failed, hdecode]
  written := by simp [hdecode]
  output := by simp [failed, Migrates, hdecode]
  unreadable := by simp [failed, Migrates, hdecode]
  stages := by simpa [failed, hdecode] using hstages

/-- A document that was read has a dialect and no issue, and what follows is its migration. -/
theorem reports_migrated {d : Dialect} {doc : AnyDocument} (hdecode : decode bytes = .ok doc)
    (hdetect : Dialect.detectBytes bytes = .ok d)
    (h : migrated (ofDocument d doc) doc target = .ok seen) : Reports bytes target seen := by
  obtain ⟨rfl, rfl⟩ | ⟨t, out, rfl, hencode, ⟨f, hagain, rfl⟩ | ⟨again, hagain, rfl⟩⟩ := migrated_eq_ok h
  · exact {
      source := by simp [ofDocument, hdetect]
      issue := by simp [Finding.describes_iff, ofDocument, hdecode]
      document := by simp [ofDocument, hdecode]
      written := by simp
      output := by simp [ofDocument, Migrates]
      unreadable := by simp [ofDocument, Migrates]
      stages := by rw [hdecode]; rfl }
  · exact {
      source := by simp [ofDocument, hdetect]
      issue := by simp [Finding.describes_iff, ofDocument, hdecode]
      document := by simp [ofDocument, hdecode]
      written := by simp [Migrates, hdecode, hencode]
      output := by simp [Migrates, hdecode, hencode]
      unreadable := by simp [Migrates, hdecode, hencode, hagain]
      stages := by rw [hdecode]; rfl }
  · exact {
      source := by simp [ofDocument, hdetect]
      issue := by simp [Finding.describes_iff, ofDocument, hdecode]
      document := by simp [ofDocument, hdecode]
      written := by simp [Migrates, hdecode, hencode]
      output := by simp [Migrates, hdecode, hencode]
      unreadable := by simp [ofDocument, Migrates, hdecode, hencode, hagain]
      stages := by rw [hdecode]; rfl }

/-- Every run observes what is to be observed. -/
theorem reports_ofBytes (h : ofBytes bytes target = .ok seen) : Reports bytes target seen := by
  rw [ofBytes] at h
  cases hparse : Json.parseBytes bytes with
  | error e =>
    rw [hparse] at h
    cases h
    have hdecode : decode bytes = .error (.detect (.plain e.message)) := by rw [decode, hparse]
    have hdetect : Dialect.detectBytes bytes = .error (.plain e.message) := by
      rw [Dialect.detectBytes, hparse]
    exact reports_failed hdecode (by simp [hdetect]) rfl
  | ok j =>
    have hdecode : decode bytes = AnyDocument.decodeJson j := by rw [decode, hparse]
    have hdetect : Dialect.detectBytes bytes = (Dialect.detect j).mapError .issue := by
      rw [Dialect.detectBytes, hparse]
    rw [AnyDocument.decodeJson] at hdecode
    rw [hparse] at h
    cases hd : Dialect.detect j with
    | error e =>
      simp only [hd] at h hdecode hdetect
      cases h
      exact reports_failed hdecode (by simp [hdetect, Except.mapError]) rfl
    | ok d =>
      simp only [hd] at h hdecode hdetect
      cases hin : AnyDocument.decodeIn d j with
      | error e =>
        simp only [hin] at h hdecode
        cases h
        exact reports_failed hdecode (by simp [hdetect, Except.mapError]) rfl
      | ok doc =>
        simp only [hin] at h hdecode
        exact reports_migrated hdecode hdetect h

/-- Nothing else keeps a document from being observed than that it cannot be written. -/
theorem exists_encode_eq_error {f : RunFault} (h : ofBytes bytes target = .error f) :
    ∃ doc t e, decode bytes = .ok doc ∧ target = some t ∧ doc.encode t.dialect t.mode = .error e ∧
      f = .encode t.dialect e := by
  rw [ofBytes] at h
  cases hparse : Json.parseBytes bytes with
  | error e =>
    rw [hparse] at h
    cases h
  | ok j =>
    rw [hparse] at h
    cases hd : Dialect.detect j with
    | error e =>
      simp only [hd] at h
      cases h
    | ok d =>
      simp only [hd] at h
      cases hin : AnyDocument.decodeIn d j with
      | error e =>
        simp only [hin] at h
        cases h
      | ok doc =>
        have hdecode : decode bytes = .ok doc := by
          rw [decode, hparse]
          simp only [AnyDocument.decodeJson, hd, hin, Except.mapError]
        simp only [hin] at h
        obtain ⟨t, e, htarget, hencode, rfl⟩ := migrated_eq_error h
        exact ⟨doc, t, e, hdecode, htarget, hencode, rfl⟩

end Observation

end IrDialects
