import IrDialects.Document.Detection
import IrDialects.Proofs.V4.Places

/-!
# Detection and decoding agree

The dialect that is told from a document is the only one whose decoder can accept it. A decoder
checks the version in the same way as the detector does, and reads a distribution that stands alone
by its shape; it only takes more spellings of the tag.
-/

namespace IrDialects.Dialect

/-- What the decoder of a dialect finds wrong with a document. -/
def check : Dialect → Json → Decoded Unit
  | classic, v => do
    let _ ← Classic.decodeDocument Classic.codec v
    return ()
  | v4, v => do
    let _ ← V4.decodeDocument v
    return ()

/-- The dialect that is not this one. -/
def other : Dialect → Dialect
  | classic => v4
  | v4 => classic

/-- A distribution that stands alone, in the shape of a dialect and with a tag as it is spelt. -/
inductive Bare : Dialect → String → Json → Prop
  | classic (tag : String) (fields : List Json) : Bare classic tag (.array (.string tag :: fields))
  | v4 (tag : String) (body : Json) : Bare v4 tag (.object [(tag, body)])

section Version

theorem ofVersion_eq_classic {w : Json} :
    ofVersion w = .ok classic ↔ ∃ version, Classic.decodeVersion w = .ok version := by
  cases w with
  | number s =>
    rw [ofVersion, Classic.decodeVersion]
    cases Number.Whole.parse s with
    | error e => simp
    | ok n =>
      by_cases hn : 1 ≤ n ∧ n ≤ 3
      · simp [ofNumber?, hn]
      · by_cases h4 : n = 4 <;> simp [ofNumber?, hn, h4]
  | string s =>
    simp only [ofVersion, Classic.decodeVersion]
    split <;> simp
  | _ => simp [ofVersion, Classic.decodeVersion]

theorem ofVersion_eq_v4 {w : Json} :
    ofVersion w = .ok v4 ↔ ∃ version, V4.decodeVersion w = .ok version := by
  cases w with
  | number s =>
    rw [ofVersion, V4.decodeVersion]
    cases Number.Whole.parse s with
    | error e => simp
    | ok n =>
      by_cases h4 : n = 4
      · subst h4
        simp [ofNumber?, V4.checkMajor, FormatVersion.major?]
      · by_cases hn : 1 ≤ n ∧ n ≤ 3 <;>
          simp [ofNumber?, V4.checkMajor, FormatVersion.major?, hn, h4]
  | string s =>
    simp only [ofVersion, V4.decodeVersion, V4.checkMajor]
    split <;> simp
  | _ => simp [ofVersion, V4.decodeVersion]

end Version

section Decoders

/-- A document that the Classic decoder accepts has a Classic version, or it is a tagged array. -/
theorem classic_of_decodeDocument {v : Json} {t : ClassicDocument}
    (h : Classic.decodeDocument Classic.codec v = .ok t) :
    (∃ w, versionOf? v = some w ∧ ofVersion w = .ok classic) ∨
      versionOf? v = none ∧ ∃ tag, Bare classic tag v := by
  cases v with
  | array items =>
    obtain ⟨d, hd, -⟩ := Decoded.bind_eq_ok.1 h
    obtain ⟨⟨_, fields⟩, htag, -⟩ := Decoded.bind_eq_ok.1 hd
    obtain ⟨s, hs, -⟩ := Shape.tagged_eq_ok.1 htag
    rw [hs]
    exact .inr ⟨rfl, s, .classic s fields⟩
  | object ms =>
    obtain ⟨_, hms, h⟩ := Decoded.bind_eq_ok.1 h
    cases hms
    obtain ⟨w, hw, h⟩ := Decoded.bind_eq_ok.1 h
    obtain ⟨version, hversion, -⟩ := Decoded.bind_eq_ok.1 h
    rw [Decoded.under_eq_ok] at hversion
    exact .inl ⟨w, Shape.member_eq_ok.1 hw, ofVersion_eq_classic.2 ⟨version, hversion⟩⟩
  | _ => cases h

/-- A document that the V4 decoder accepts has a version of the fourth format, or it is an object with
a tag as its only key. -/
theorem v4_of_decodeDocument {v : Json} {t : V4Document} (h : V4.decodeDocument v = .ok t) :
    (∃ w, versionOf? v = some w ∧ ofVersion w = .ok v4) ∨
      versionOf? v = none ∧ ∃ tag, Bare v4 tag v := by
  obtain ⟨ms, hms, h⟩ := Decoded.bind_eq_ok.1 h
  rw [Shape.object_eq_ok] at hms
  subst hms
  split at h
  · rename_i hget
    split at h
    · rename_i hbare
      rw [V4.isBareDistribution.eq_def] at hbare
      split at hbare
      · exact .inr ⟨hget, _, .v4 _ _⟩
      · cases hbare
    · cases h
  · rename_i w hget
    obtain ⟨version, hversion, -⟩ := Decoded.bind_eq_ok.1 h
    rw [Decoded.under_eq_ok] at hversion
    exact .inl ⟨w, hget, ofVersion_eq_v4.2 ⟨version, hversion⟩⟩

theorem of_check {d : Dialect} {v : Json} (h : d.check v = .ok ()) :
    (∃ w, versionOf? v = some w ∧ ofVersion w = .ok d) ∨
      versionOf? v = none ∧ ∃ tag, Bare d tag v := by
  cases d with
  | classic =>
    obtain ⟨t, ht, -⟩ := Decoded.bind_eq_ok.1 h
    exact classic_of_decodeDocument ht
  | v4 =>
    obtain ⟨t, ht, -⟩ := Decoded.bind_eq_ok.1 h
    exact v4_of_decodeDocument ht

/-- Below a version that is accepted every issue arises in the document. -/
theorem within_check_of_version {b : Nat} {d : Dialect} {v w : Json} (hversion : versionOf? v = some w)
    (h : ofVersion w = .ok d) : Within b SpellsTag v (d.check v) := by
  cases v with
  | object ms =>
    have hget : Json.get? ms "formatVersion" = some w := hversion
    cases d with
    | classic =>
      obtain ⟨version, hw⟩ := ofVersion_eq_classic.1 h
      refine .bind (.okThen (Shape.object_eq_ok.2 rfl) ?_) fun _ => .ok _
      refine .okThen (Shape.member_eq_ok.2 hget) ?_
      refine .okThen (Decoded.under_eq_ok.2 hw) ?_
      exact within_distribution (Classic.pointing_distribution Classic.pointingAttrs_codec) ms _
    | v4 =>
      obtain ⟨version, hw⟩ := ofVersion_eq_v4.1 h
      refine .bind (.okThen (Shape.object_eq_ok.2 rfl) ?_) fun _ => .ok _
      rw [hget]
      refine .okThen (Decoded.under_eq_ok.2 hw) ?_
      exact within_distribution V4.pointing_distribution ms _
  | _ => cases hversion

theorem within_check_of_bare {b : Nat} {d : Dialect} {tag : String} {v : Json} (hv : Bare d tag v)
    (hversion : versionOf? v = none) : Within b SpellsTag v (d.check v) := by
  cases hv with
  | classic tag fields =>
    refine .bind (.bind ?_ fun _ => .ok _) fun _ => .ok _
    exact Classic.pointing_distribution Classic.pointingAttrs_codec _
  | v4 tag body =>
    have hget : Json.get? [(tag, body)] "formatVersion" = none := hversion
    refine .bind (.okThen (Shape.object_eq_ok.2 rfl) ?_) fun _ => .ok _
    split
    · split
      · exact .bind (V4.pointing_distribution _) fun _ => .ok _
      · exact .complain (by simp)
    · rename_i hsome
      rw [hget] at hsome
      cases hsome

end Decoders

section Shape

theorem isDistributionTag_iff {tag : String} :
    isDistributionTag tag = true ↔ tag ∈ ["Library", "Specs", "Application"] := by
  simp [isDistributionTag, or_assoc]

/-- The shape of a distribution tells its dialect if the tag has its exact spelling. -/
theorem ofShape?_of_bare {d : Dialect} {tag : String} {v : Json} (h : Bare d tag v) :
    ofShape? v = if isDistributionTag tag then some d else none := by
  cases h <;> rfl

theorem bare_of_ofShape? {d : Dialect} {v : Json} (h : ofShape? v = some d) :
    ∃ tag, Bare d tag v := by
  rw [ofShape?.eq_def] at h
  split at h
  · split at h
    · cases h
      exact ⟨_, .v4 _ _⟩
    · cases h
  · split at h
    · cases h
      exact ⟨_, .classic _ _⟩
    · cases h
  · cases h

theorem detect_of_version {v w : Json} (h : versionOf? v = some w) : detect v = ofVersion w := by
  rw [detect, h]

/-- The detector fails on a distribution that stands alone exactly if its tag is spelt otherwise. -/
theorem detect_of_bare {d : Dialect} {tag : String} {v : Json} (hv : Bare d tag v)
    (hversion : versionOf? v = none) :
    detect v = if isDistributionTag tag then .ok d
      else .error (Complaint.unrecognized v.kind).issue := by
  rw [detect, hversion]
  dsimp only
  rw [ofShape?_of_bare hv]
  cases isDistributionTag tag <;> rfl

/-- In a document of the dialect that is told from it, every issue arises below the version. -/
theorem within_check {b : Nat} {d : Dialect} {v : Json} (h : detect v = .ok d) :
    Within b SpellsTag v (d.check v) := by
  rw [detect] at h
  split at h
  · rename_i hversion
    exact within_check_of_version hversion h
  · rename_i hversion
    split at h
    · rename_i hshape
      cases h
      obtain ⟨tag, hbare⟩ := bare_of_ofShape? hshape
      exact within_check_of_bare hbare hversion
    · cases h

/-- A document that a decoder accepts is told to be of its dialect, or its tag has another spelling. -/
theorem detect_of_check {d : Dialect} {v : Json} (h : d.check v = .ok ()) :
    detect v = .ok d ∨ (∃ e, detect v = .error e) ∧ versionOf? v = none ∧
      ∃ tag, Bare d tag v ∧ tag ∉ ["Library", "Specs", "Application"] := by
  rcases of_check h with ⟨w, hversion, hw⟩ | ⟨hversion, tag, hbare⟩
  · exact .inl ((detect_of_version hversion).trans hw)
  · have hdetect := detect_of_bare hbare hversion
    by_cases htag : isDistributionTag tag = true
    · rw [if_pos htag] at hdetect
      exact .inl hdetect
    · rw [if_neg htag] at hdetect
      exact .inr ⟨⟨_, hdetect⟩, hversion, tag, hbare, fun hmem => htag (isDistributionTag_iff.2 hmem)⟩

/-- No document is accepted by both decoders. -/
theorem not_check_both (v : Json) : ¬ (classic.check v = .ok () ∧ v4.check v = .ok ()) := by
  rintro ⟨hclassic, hv4⟩
  rcases of_check hclassic with ⟨w, hversion, hw⟩ | ⟨hversion, tag, hbare⟩
  · rcases of_check hv4 with ⟨w', hversion', hw'⟩ | ⟨hversion', -⟩
    · rw [hversion] at hversion'
      cases hversion'
      rw [hw] at hw'
      cases hw'
    · rw [hversion] at hversion'
      cases hversion'
  · rcases of_check hv4 with ⟨w', hversion', -⟩ | ⟨-, tag', hbare'⟩
    · rw [hversion] at hversion'
      cases hversion'
    · cases hbare
      cases hbare'

end Shape

/-- At most one decoder accepts a document. If a dialect is told from it, then the decoder of the
other one rejects it, and whatever the decoder of this one finds wrong, it is not the version. If a
decoder accepts it, then its dialect is told, or the document is a distribution without a version
whose tag is spelt in another way, and then no dialect is told. -/
theorem detection_agrees_with_decoding (v : Json) :
    ¬ (classic.check v = .ok () ∧ v4.check v = .ok ()) ∧
    (∀ d, detect v = .ok d → (∃ e, d.other.check v = .error e) ∧
      ∀ e, d.check v = .error e → e.kind ≠ .unknownFormatVersion) ∧
    ∀ d, d.check v = .ok () → detect v = .ok d ∨ (∃ e, detect v = .error e) ∧
      versionOf? v = none ∧
        ∃ tag, Bare d tag v ∧ tag ∉ ["Library", "Specs", "Application"] := by
  refine ⟨not_check_both v, fun d h => ⟨?_, ?_⟩, fun d => detect_of_check⟩
  · cases hother : d.other.check v with
    | error e => exact ⟨e, rfl⟩
    | ok u =>
      -- Then the other dialect would be told, or none.
      rcases detect_of_check hother with hdetect | ⟨⟨e, hdetect⟩, -⟩
      · rw [h, Except.ok.injEq] at hdetect
        cases d <;> cases hdetect
      · rw [h] at hdetect
        cases hdetect
  · intro e he
    exact (within_check h (Nat.lt_succ_self _) e he).kind_ne

end IrDialects.Dialect
