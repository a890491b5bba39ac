import IrDialects.Wire.Tag
import Mathlib.Data.List.Basic

/-!
# Foreign tags

A tag that a kind of nodes does not have may be that of another kind, and the complaint about it then
says which. Only some kinds are looked at: the tags of bodies, of reasons for holes, of incompleteness
and of hints are taken for unknown where they do not belong, except `Hole`, which is a value as well.
-/

namespace IrDialects

namespace NodeKind

variable {k other : NodeKind} {tag s : String}

/-- The tags of a kind, in the spellings of its table. -/
def tags (k : NodeKind) : List String := (k.table.canonical ++ k.table.aliases).map Prod.fst

/-- A tag is found exactly if it is another spelling of one in the table. -/
theorem isSome_lookup?_iff :
    (k.lookup? tag).isSome ↔ ∃ s ∈ k.tags, TagTable.fold tag = TagTable.fold s := by
  rw [← not_iff_not, Bool.not_eq_true, Option.isSome_eq_false_iff, Option.isNone_iff_eq_none, lookup?,
    TagTable.find?, List.lookup_eq_none_iff, TagTable.index, List.forall_mem_map]
  simp only [tags, List.mem_map, bne_iff_ne, not_exists, not_and]
  constructor
  · rintro h s ⟨p, hp, rfl⟩
    exact h p hp
  · exact fun h p hp => h p.1 ⟨p, hp, rfl⟩

/-- Whether a tag belongs to another kind. -/
def IsForeign (k : NodeKind) (tag : String) : Prop := ∃ other, other ≠ k ∧ (other.lookup? tag).isSome

/-- The tags that only kinds have which are not looked at. -/
def passedOver : List String :=
  ["ExpressionBody", "NativeBody", "ExternalBody", "IncompleteBody", "UnresolvedReference",
    "DeletedDuringRefactor", "TypeMismatch", "Draft", "Arithmetic", "Comparison", "StringOp",
    "CollectionOp", "PlatformSpecific"]

/-- Whether a tag is one of these in any spelling. -/
def IsPassedOver (tag : String) : Prop := ∃ s ∈ passedOver, TagTable.fold tag = TagTable.fold s

/-- The complaint about a tag names a kind that has it, or none of those that are looked at has it. -/
theorem unknownTag_cases (k : NodeKind) (tag : String) :
    (∃ other ∈ recognized, other ≠ k ∧ (other.lookup? tag).isSome ∧
      k.unknownTag tag = .foreignTag k.name other.name tag) ∨
    (∀ other ∈ recognized, other ≠ k → ¬ (other.lookup? tag).isSome) ∧
      k.unknownTag tag = .unknownTag k.name tag := by
  rw [unknownTag]
  cases hfind : recognized.find? fun other => other != k && (other.lookup? tag).isSome with
  | some other =>
    have hother := List.find?_some hfind
    rw [Bool.and_eq_true, bne_iff_ne] at hother
    exact .inl ⟨other, List.mem_of_find?_eq_some hfind, hother.1, hother.2, rfl⟩
  | none =>
    refine .inr ⟨fun other hmem hne => ?_, rfl⟩
    have hother := List.find?_eq_none.1 hfind other hmem
    simpa [hne] using hother

/-- A tag of some kind belongs to a kind that is looked at, or is passed over. -/
theorem isPassedOver_of_lookup? (h : (other.lookup? tag).isSome)
    (hnone : ∀ r ∈ recognized, ¬ (r.lookup? tag).isSome) : IsPassedOver tag := by
  by_cases hmem : other ∈ recognized
  · exact absurd h (hnone other hmem)
  · have htags : ∀ s ∈ other.tags, s ∈ passedOver ∨ s ∈ value.tags := by
      cases other with
      | untagged => exact fun s hs => absurd hs List.not_mem_nil
      | valueBody | holeReason | incompleteness | nativeHint => decide
      | _ => exact absurd (by decide) hmem
    obtain ⟨s, hs, heq⟩ := isSome_lookup?_iff.1 h
    rcases htags s hs with hs | hs
    · exact ⟨s, hs, heq⟩
    · exact absurd (isSome_lookup?_iff.2 ⟨s, hs, heq⟩) (hnone value (by decide))

/-- What is passed over is the tag of some kind, but of none that is looked at. -/
theorem IsPassedOver.belongs (h : IsPassedOver tag) :
    (∃ other : NodeKind, (other.lookup? tag).isSome) ∧
      ∀ r ∈ recognized, ¬ (r.lookup? tag).isSome := by
  have hlooked : ∀ r ∈ recognized, ∀ s ∈ passedOver, r.lookup? s = none := by decide
  have hkinds : ∀ s ∈ passedOver,
      s ∈ valueBody.tags ∨ s ∈ holeReason.tags ∨ s ∈ nativeHint.tags := by decide
  obtain ⟨s, hs, heq⟩ := h
  constructor
  · rcases hkinds s hs with hmem | hmem | hmem
    · exact ⟨_, isSome_lookup?_iff.2 ⟨s, hmem, heq⟩⟩
    · exact ⟨_, isSome_lookup?_iff.2 ⟨s, hmem, heq⟩⟩
    · exact ⟨_, isSome_lookup?_iff.2 ⟨s, hmem, heq⟩⟩
  · intro r hr
    rw [NodeKind.lookup?, TagTable.find?, heq, ← TagTable.find?, ← NodeKind.lookup?, hlooked r hr s hs]
    simp

/-- A tag that a kind does not have is complained about as that of another kind exactly if it belongs
to another kind, unless it is passed over: that is always complained about as a tag that no kind has.
The complaint names the kind and the tag, and for a foreign tag a kind that has it. -/
theorem foreign_tags_are_told_unless_passed_over (k : NodeKind) (tag : String)
    (h : k.lookup? tag = none) :
    (¬ IsPassedOver tag → ((k.unknownTag tag).kind = .fieldTypeMismatch ↔ k.IsForeign tag)) ∧
    (IsPassedOver tag → k.IsForeign tag ∧ (k.unknownTag tag).kind = .malformedShape) ∧
    ((k.unknownTag tag).kind = .fieldTypeMismatch ∧
        (∃ other, other ≠ k ∧ (other.lookup? tag).isSome ∧
          k.unknownTag tag = .foreignTag k.name other.name tag) ∨
      (k.unknownTag tag).kind = .malformedShape ∧
        k.unknownTag tag = .unknownTag k.name tag) := by
  -- A kind that has the tag is another one, for this kind has none.
  have hne {other : NodeKind} (hother : (other.lookup? tag).isSome) : other ≠ k := by
    rintro rfl
    simp [h] at hother
  obtain ⟨other, hmem, hk, hother, heq⟩ | ⟨hnone, heq⟩ := unknownTag_cases k tag
  · rw [heq]
    exact ⟨fun _ => iff_of_true rfl ⟨other, hk, hother⟩,
      fun hpassed => absurd hother (hpassed.belongs.2 other hmem),
      .inl ⟨rfl, other, hk, hother, rfl⟩⟩
  · rw [heq]
    have hnone : ∀ r ∈ recognized, ¬ (r.lookup? tag).isSome :=
      fun r hr hfound => hnone r hr (hne hfound) hfound
    refine ⟨fun hpassed => iff_of_false (by simp [Complaint.kind]) ?_, fun hpassed => ?_,
      .inr ⟨rfl, rfl⟩⟩
    · rintro ⟨other, -, hother⟩
      exact hpassed (isPassedOver_of_lookup? hother hnone)
    · obtain ⟨⟨other, hother⟩, -⟩ := hpassed.belongs
      exact ⟨⟨other, hne hother, hother⟩, rfl⟩

/-- The tag of a reference that was deleted, where a type is wanted, and the tag of a hole, where the
body of a definition is wanted. -/
theorem hole_tags_are_told_apart :
    type.lookup? "deleted_during_refactor" = none ∧
      (type.unknownTag "deleted_during_refactor").kind = .malformedShape ∧
      valueBody.lookup? "HOLE" = none ∧ (valueBody.unknownTag "HOLE").kind = .fieldTypeMismatch := by
  have hdeleted : type.lookup? "deleted_during_refactor" = none := by decide
  have hhole : valueBody.lookup? "HOLE" = none := by decide
  have hpassed : IsPassedOver "deleted_during_refactor" :=
    ⟨"DeletedDuringRefactor", by decide, by decide⟩
  have hvalue : ¬ IsPassedOver "HOLE" := fun h => h.belongs.2 value (by decide) (by decide)
  exact ⟨hdeleted, ((foreign_tags_are_told_unless_passed_over _ _ hdeleted).2.1 hpassed).2, hhole,
    ((foreign_tags_are_told_unless_passed_over _ _ hhole).1 hvalue).2
      ⟨value, by decide, by decide⟩⟩

/-- The tag of a body belongs to another kind than types, and yet is taken for unknown among them. -/
theorem tag_of_body_is_taken_for_unknown :
    type.lookup? "ExpressionBody" = none ∧ type.IsForeign "ExpressionBody" ∧
      (type.unknownTag "ExpressionBody").kind = .malformedShape :=
  ⟨by decide, ⟨valueBody, by decide, by decide⟩, by decide⟩

end NodeKind

end IrDialects
