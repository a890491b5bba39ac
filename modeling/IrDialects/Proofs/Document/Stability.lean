import IrDialects.Proofs.Document.Conversion
import IrDialects.Proofs.Traverse.Rebuilding
import IrDialects.Proofs.Tree.Labels

/-!
# Conversion touches attributes only

Converting a document keeps its structure and takes the source location along from node to node.
Whatever else an attribute says is dropped, so that a second conversion there and back finds nothing
more to drop. Classic writes a location as a JSON object in one spelling of its keys and reads it in
two.
-/

namespace IrDialects

namespace ClassicAttrs

variable {a : ClassicAttrs} {l : SourceLocation}

/-- The attribute is an object that has a complete source location. -/
def Carries (a : ClassicAttrs) (l : SourceLocation) : Prop :=
  ∃ members parts, a.raw = some (.object members) ∧
    Json.get? members "source" = some (.object parts) ∧ l.WrittenIn parts

/-- The attribute says where a node comes from and nothing else. -/
structure SaysOnly (a : ClassicAttrs) (source : Option SourceLocation) : Prop where
  carries : ∀ l, a.Carries l ↔ source = some l
  silent : source = none → a = {}
  sole : ∀ v ∈ a.raw, ∃ parts : Members, v = .object [("source", .object parts)] ∧ parts.length = 4

theorem source?_object (ms : Members) : source? ⟨some (.object ms)⟩ =
    (Json.get? ms "source").bind fun v => (V4.decodeLocation v).toOption := by
  have hf : FieldName.find? ms "source" = (Json.get? ms "source").map ("source", ·) :=
    FieldName.find?_eq_map rfl
  simp only [source?, hf, Option.bind_map]
  rfl

theorem source?_eq_some : a.source? = some l ↔ a.Carries l := by
  have hread {v : Json} : (V4.decodeLocation v).toOption = some l ↔
      ∃ parts, v = .object parts ∧ l.WrittenIn parts := by
    rw [← SourceLocation.decodeLocation_eq_ok]
    cases V4.decodeLocation v <;> simp [Except.toOption]
  constructor
  · intro h
    obtain ⟨_ | _ | _ | _ | _ | _ | ms⟩ := a
    case some.object =>
      rw [source?_object, Option.bind_eq_some_iff] at h
      obtain ⟨v, hv, h⟩ := h
      obtain ⟨parts, rfl, hparts⟩ := hread.1 h
      exact ⟨ms, parts, rfl, hv, hparts⟩
    all_goals cases h
  · obtain ⟨raw⟩ := a
    rintro ⟨ms, parts, ⟨⟩, hv, hparts⟩
    rw [source?_object, hv, Option.bind_some]
    exact hread.2 ⟨parts, rfl, hparts⟩

/-- The location that a converted attribute carries is the one it was given. -/
theorem source?_ofSource {source : Option SourceLocation} (h : ∀ l ∈ source, l.InRange) :
    (ofSource source).source? = source := by
  cases source with
  | none => rfl
  | some l =>
    have hl := h l rfl
    have hpart {n : Int} (hn : Number.Whole.InRange n) :
        ∃ s, some (Json.ofInt n) = some (.number s) ∧ Shape.wholeNumber? s = some n :=
      ⟨_, rfl, Shape.wholeNumber?_toString hn⟩
    refine source?_eq_some.2 ⟨_, _, rfl, rfl, ?_⟩
    exact ⟨hpart hl.startLine, hpart hl.startColumn, hpart hl.endLine, hpart hl.endColumn⟩

theorem saysOnly_ofSource {source : Option SourceLocation} (h : ∀ l ∈ source, l.InRange) :
    (ofSource source).SaysOnly source where
  carries l := by rw [← source?_eq_some, source?_ofSource h]
  silent := by
    rintro rfl
    rfl
  sole := by
    cases source with
    | none => simp [ofSource]
    | some l =>
      rintro _ ⟨⟩
      exact ⟨_, rfl, rfl⟩

end ClassicAttrs

namespace Convert

/-- The source location of an attribute in V4. -/
def labelSource : TypeAttrs ⊕ ValueAttrs → Option SourceLocation
  | .inl a => a.source
  | .inr a => a.source

/-- What becomes of an attribute in V4: it has the location that the Classic attribute carries, and no
other part. -/
inductive Raised : ClassicAttrs ⊕ ClassicAttrs → TypeAttrs ⊕ ValueAttrs → Prop
  | type {a : ClassicAttrs} {b : TypeAttrs} (source : ∀ l, b.source = some l ↔ a.Carries l)
      (constraints : b.constraints = none) (extensions : b.extensions = []) : Raised (.inl a) (.inl b)
  | value {a : ClassicAttrs} {b : ValueAttrs} (source : ∀ l, b.source = some l ↔ a.Carries l)
      (inferredType : b.inferredType = none) (extensions : b.extensions = []) :
      Raised (.inr a) (.inr b)

/-- What becomes of an attribute in Classic: it says where the node comes from and nothing else. -/
inductive Lowered : TypeAttrs ⊕ ValueAttrs → ClassicAttrs ⊕ ClassicAttrs → Prop
  | type {a : TypeAttrs} {b : ClassicAttrs} (h : b.SaysOnly a.source) : Lowered (.inl a) (.inl b)
  | value {a : ValueAttrs} {b : ClassicAttrs} (h : b.SaysOnly a.source) : Lowered (.inr a) (.inr b)

theorem raised_map (x : ClassicAttrs ⊕ ClassicAttrs) :
    Raised x (x.map ClassicAttrs.toType ClassicAttrs.toValue) := by
  cases x with
  | inl a => exact .type (fun _ => ClassicAttrs.source?_eq_some) rfl rfl
  | inr a => exact .value (fun _ => ClassicAttrs.source?_eq_some) rfl rfl

theorem lowered_map {x : TypeAttrs ⊕ ValueAttrs} (h : ∀ l ∈ labelSource x, l.InRange) :
    Lowered x (x.map TypeAttrs.toClassic ValueAttrs.toClassic) := by
  cases x with
  | inl a => exact .type (ClassicAttrs.saysOnly_ofSource h)
  | inr a => exact .value (ClassicAttrs.saysOnly_ofSource h)

/-- An attribute that is taken to Classic and back keeps its location. -/
theorem toClassic_toType {a : TypeAttrs} (h : ∀ l ∈ a.source, l.InRange) :
    a.toClassic.toType = { source := a.source } := by
  rw [ClassicAttrs.toType, TypeAttrs.toClassic, ClassicAttrs.source?_ofSource h]

theorem toClassic_toValue {a : ValueAttrs} (h : ∀ l ∈ a.source, l.InRange) :
    a.toClassic.toValue = { source := a.source } := by
  rw [ClassicAttrs.toValue, ValueAttrs.toClassic, ClassicAttrs.source?_ofSource h]

theorem toV4_toClassic_toV4 (d : ClassicDocument) : toV4 (toClassic (toV4 d)) = toV4 d := by
  have htype : ClassicAttrs.toType ∘ TypeAttrs.toClassic ∘ ClassicAttrs.toType =
      ClassicAttrs.toType :=
    funext fun _ => toClassic_toType Classic.inRange_of_source?
  have hvalue : ClassicAttrs.toValue ∘ ValueAttrs.toClassic ∘ ClassicAttrs.toValue =
      ClassicAttrs.toValue :=
    funext fun _ => toClassic_toValue Classic.inRange_of_source?
  simp only [toV4, toClassic, Document.mapAttrs, Distribution.mapAttrs_mapAttrs, htype, hvalue]

theorem toClassic_toV4_toClassic {e : V4Document}
    (h : ∀ x ∈ e.distribution.labels, ∀ l ∈ labelSource x, l.InRange) :
    toClassic (toV4 (toClassic e)) = toClassic e := by
  simp only [toV4, toClassic, Document.mapAttrs, Distribution.mapAttrs_mapAttrs]
  congr 1
  refine Distribution.mapAttrs_congr fun x hx => ?_
  cases x with
  | inl a =>
    simp only [Sum.map_inl, Function.comp_apply, toClassic_toType (h _ hx)]
    rfl
  | inr a =>
    simp only [Sum.map_inr, Function.comp_apply, toClassic_toValue (h _ hx)]
    rfl

/-- Listed attributes that are replaced one by one are related one by one. -/
theorem forall₂_labels_mapAttrs {τ ν σ μ : Type} {f : τ → σ} {g : ν → μ}
    {R : τ ⊕ ν → σ ⊕ μ → Prop} {d : Distribution τ ν} (h : ∀ x ∈ d.labels, R x (x.map f g)) :
    List.Forall₂ R d.labels (d.mapAttrs f g).labels := by
  rw [Distribution.labels_mapAttrs, List.forall₂_map_right_iff, List.forall₂_same]
  exact h

/-- Conversion is what an editor does that builds every node again. It keeps the structure, takes
source locations along and drops what else attributes say, and after that it changes nothing. The
numbers of a location have 64 bits. -/
theorem touches_attributes_only :
    (∀ d : ClassicDocument,
      (∀ {σ ε : Type} (s : σ), ∃ out : V4Document,
        ((Editor.replacing ClassicAttrs.toType ClassicAttrs.toValue :
          Editor _ _ _ _ σ ε).document d).runFrom s = (.ok out, {}, s) ∧
        toV4 d = { out with version := .defaultV4 }) ∧
      (toV4 d).distribution.erased = d.distribution.erased ∧
      List.Forall₂ Raised d.distribution.labels (toV4 d).distribution.labels ∧
      toV4 (toClassic (toV4 d)) = toV4 d) ∧
    ∀ e : V4Document, (∀ x ∈ e.distribution.labels, ∀ l ∈ labelSource x, l.InRange) →
      (∀ {σ ε : Type} (s : σ), ∃ out : ClassicDocument,
        ((Editor.replacing TypeAttrs.toClassic ValueAttrs.toClassic :
          Editor _ _ _ _ σ ε).document e).runFrom s = (.ok out, {}, s) ∧
        toClassic e = { out with version := .defaultClassic }) ∧
      (toClassic e).distribution.erased = e.distribution.erased ∧
      List.Forall₂ Lowered e.distribution.labels (toClassic e).distribution.labels ∧
      toClassic (toV4 (toClassic e)) = toClassic e := by
  refine ⟨fun d => ⟨fun s => ⟨_, ?_, rfl⟩, ?_, ?_, toV4_toClassic_toV4 d⟩,
    fun e he => ⟨fun s => ⟨_, ?_, rfl⟩, ?_, ?_, toClassic_toV4_toClassic he⟩⟩
  -- The rebuilding editor makes the mapped tree; the conversion changes its version besides.
  · rw [(Editor.rebuilds_replacing _ _).document]
    rfl
  · exact Distribution.erased_mapAttrs _ _ d.distribution
  · exact forall₂_labels_mapAttrs fun x _ => raised_map x
  · rw [(Editor.rebuilds_replacing _ _).document]
    rfl
  · exact Distribution.erased_mapAttrs _ _ e.distribution
  · exact forall₂_labels_mapAttrs fun x hx => lowered_map (he x hx)

/-- A library with one function whose nodes know where they come from and more. -/
def tracked : V4Document :=
  let l : SourceLocation := ⟨1, 3, 2, 17⟩
  let t : TypeAttrs := { source := l, constraints := some (.string "small") }
  let v : ValueAttrs := { source := l, extensions := [("cost", .ofInt 7)] }
  ⟨.defaultV4, .library ⟨[⟨["demo"]⟩]⟩ [] ⟨[⟨⟨[⟨["a"]⟩]⟩, .everyone, ⟨[], [⟨⟨["f"]⟩, .packageOnly, "",
    .mk [⟨⟨["x"]⟩, v, .unit t⟩] (.variable {} ⟨["r"]⟩)
      (.expression (.lambda v (.as v (.wildcard {}) ⟨["y"]⟩) (.variable {} ⟨["y"]⟩)))⟩], ""⟩⟩]⟩⟩

theorem tracked_converts_once :
    (∀ x ∈ tracked.distribution.labels, ∀ l ∈ labelSource x, l.InRange) ∧
      tracked.distribution.labels.length = 7 ∧
      (toClassic tracked).distribution.erased = tracked.distribution.erased ∧
      toClassic (toV4 (toClassic tracked)) = toClassic tracked := by
  have hl : SourceLocation.InRange ⟨1, 3, 2, 17⟩ := ⟨by decide, by decide, by decide, by decide⟩
  have h : ∀ x ∈ tracked.distribution.labels, ∀ l ∈ labelSource x, l.InRange := by
    change ∀ x ∈ [_, _, _, _, _, _, _], _
    simp only [List.forall_mem_cons, labelSource]
    simp [hl]
  obtain ⟨-, hstructure, -, hstable⟩ := touches_attributes_only.2 tracked h
  exact ⟨h, rfl, hstructure, hstable⟩

end Convert

end IrDialects
