import IrDialects.Proofs.Tree.Replacement

/-!
# The attributes of a tree in order

A tree is its structure and the attributes at its nodes. The structure is the tree with every
attribute erased; the attributes are listed node first and then its parts, those of types on the left
and those of values, patterns and declared arguments on the right. Replacing attributes keeps the
structure and replaces the listed attributes one by one, and two ways of replacing that agree on the
listed attributes give the same tree.
-/

namespace IrDialects

variable {τ ν σ μ : Type}

mutual

/-- The attributes of a type, each node before those inside it. -/
def TypeExpr.labels : TypeExpr τ → List τ
  | .variable a _ | .unit a => [a]
  | .reference a _ ts | .tuple a ts => a :: TypeExpr.labelsList ts
  | .record a fs | .extensibleRecord a _ fs => a :: TypeExpr.labelsFields fs
  | .function a x y => a :: (x.labels ++ y.labels)

def TypeExpr.labelsList : List (TypeExpr τ) → List τ
  | [] => []
  | t :: ts => t.labels ++ TypeExpr.labelsList ts

def TypeExpr.labelsFields : List (Name × TypeExpr τ) → List τ
  | [] => []
  | (_, t) :: fs => t.labels ++ TypeExpr.labelsFields fs

end

mutual

def Pattern.labels : Pattern ν → List ν
  | .wildcard a | .emptyList a | .literal a _ | .unit a => [a]
  | .as a p _ => a :: p.labels
  | .tuple a ps | .constructor a _ ps => a :: Pattern.labelsList ps
  | .headTail a x y => a :: (x.labels ++ y.labels)

def Pattern.labelsList : List (Pattern ν) → List ν
  | [] => []
  | p :: ps => p.labels ++ Pattern.labelsList ps

end

def TypeExpr.labels? (t : Option (TypeExpr τ)) : List τ := (t.map labels).getD []

def Input.labels (i : Input τ ν) : List (τ ⊕ ν) := .inr i.attrs :: i.type.labels.map .inl

mutual

/-- The attributes of a value: those of types on the left, those of values and patterns on the
right. -/
def Value.labels : Value τ ν → List (τ ⊕ ν)
  | .literal a _ | .constructor a _ | .variable a _ | .reference a _ | .fieldFunction a _
  | .unit a | .native a _ _ | .external a _ _ => [.inr a]
  | .tuple a vs | .list a vs => .inr a :: Value.labelsList vs
  | .record a fs => .inr a :: Value.labelsFields fs
  | .field a v _ => .inr a :: v.labels
  | .apply a f x => .inr a :: (f.labels ++ x.labels)
  | .lambda a p b => .inr a :: (p.labels.map .inr ++ b.labels)
  | .letDefinition a _ d b => .inr a :: (d.labels ++ b.labels)
  | .letRecursion a ds b => .inr a :: (ValueDefinition.labelsBindings ds ++ b.labels)
  | .destructure a p v b => .inr a :: (p.labels.map .inr ++ v.labels ++ b.labels)
  | .ifThenElse a c t e => .inr a :: (c.labels ++ t.labels ++ e.labels)
  | .patternMatch a v cs => .inr a :: (v.labels ++ Value.labelsCases cs)
  | .updateRecord a v us => .inr a :: (v.labels ++ Value.labelsFields us)
  | .hole a _ t => .inr a :: (TypeExpr.labels? t).map .inl

def Value.labelsList : List (Value τ ν) → List (τ ⊕ ν)
  | [] => []
  | v :: vs => v.labels ++ Value.labelsList vs

def Value.labelsFields : List (Name × Value τ ν) → List (τ ⊕ ν)
  | [] => []
  | (_, v) :: fs => v.labels ++ Value.labelsFields fs

def Value.labelsCases : List (Pattern ν × Value τ ν) → List (τ ⊕ ν)
  | [] => []
  | (p, v) :: cs => p.labels.map .inr ++ v.labels ++ Value.labelsCases cs

def ValueDefinition.labels : ValueDefinition τ ν → List (τ ⊕ ν)
  | .mk is t b => is.flatMap Input.labels ++ t.labels.map .inl ++ b.labels

def ValueDefinition.labelsBindings : List (Name × ValueDefinition τ ν) → List (τ ⊕ ν)
  | [] => []
  | (_, d) :: ds => d.labels ++ ValueDefinition.labelsBindings ds

def ValueBody.labels : ValueBody τ ν → List (τ ⊕ ν)
  | .expression v => v.labels
  | .native _ | .external _ _ | .incomplete _ => []

end

def Constructor.labels (c : Constructor τ) : List τ := TypeExpr.labelsFields c.arguments

def TypeDefinition.labels : TypeDefinition τ → List τ
  | .synonym _ t => t.labels
  | .custom _ _ cs => cs.flatMap Constructor.labels
  | .incomplete _ _ t => TypeExpr.labels? t

def TypeSpecification.labels : TypeSpecification τ → List τ
  | .synonym _ t => t.labels
  | .abstract _ => []
  | .custom _ cs => cs.flatMap Constructor.labels

def ValueSpecification.labels (s : ValueSpecification τ) : List τ :=
  TypeExpr.labelsFields s.inputs ++ s.output.labels

def ModuleDefinition.labels (m : ModuleDefinition τ ν) : List (τ ⊕ ν) :=
  (m.types.flatMap fun e => e.definition.labels.map .inl) ++
    m.values.flatMap fun e => e.definition.labels

def ModuleSpecification.labels (m : ModuleSpecification τ) : List τ :=
  (m.types.flatMap fun e => e.specification.labels) ++
    m.values.flatMap fun e => e.specification.labels

def PackageDefinition.labels (p : PackageDefinition τ ν) : List (τ ⊕ ν) :=
  p.modules.flatMap fun e => e.definition.labels

def PackageSpecification.labels (p : PackageSpecification τ) : List τ :=
  p.modules.flatMap fun e => e.specification.labels

/-- The attributes of the packages depended on. -/
def Dependency.labelsList (ds : List (Dependency τ)) : List τ :=
  ds.flatMap fun e => e.specification.labels

namespace Distribution

def labels : Distribution τ ν → List (τ ⊕ ν)
  | library _ ds p | application _ ds p _ => (Dependency.labelsList ds).map .inl ++ p.labels
  | specs _ ds s => (Dependency.labelsList ds).map .inl ++ s.labels.map .inl

/-- The structure of a distribution: every attribute is erased. -/
def erased (d : Distribution τ ν) : Distribution Unit Unit := d.mapAttrs (fun _ => ()) (fun _ => ())

end Distribution

section Replacing

variable (f : τ → σ) (g : ν → μ)

mutual

theorem TypeExpr.labels_mapAttrs : ∀ t : TypeExpr τ, (t.mapAttrs f).labels = t.labels.map f
  | .variable _ _ | .unit _ => rfl
  | .reference _ _ ts | .tuple _ ts => by
    rw [mapAttrs, labels, labels, labelsList_mapAttrsList ts, List.map_cons]
  | .record _ fs | .extensibleRecord _ _ fs => by
    rw [mapAttrs, labels, labels, labelsFields_mapAttrsFields fs, List.map_cons]
  | .function _ x y => by
    rw [mapAttrs, labels, labels, labels_mapAttrs x, labels_mapAttrs y, List.map_cons,
      List.map_append]

theorem TypeExpr.labelsList_mapAttrsList : ∀ ts : List (TypeExpr τ),
    labelsList (mapAttrsList f ts) = (labelsList ts).map f
  | [] => rfl
  | t :: ts => by
    rw [mapAttrsList, labelsList, labelsList, labels_mapAttrs t, labelsList_mapAttrsList ts,
      List.map_append]

theorem TypeExpr.labelsFields_mapAttrsFields : ∀ fs : List (Name × TypeExpr τ),
    labelsFields (mapAttrsFields f fs) = (labelsFields fs).map f
  | [] => rfl
  | (_, t) :: fs => by
    rw [mapAttrsFields, labelsFields, labelsFields, labels_mapAttrs t,
      labelsFields_mapAttrsFields fs, List.map_append]

end

mutual

theorem Pattern.labels_mapAttrs : ∀ p : Pattern ν, (p.mapAttrs g).labels = p.labels.map g
  | .wildcard _ | .emptyList _ | .literal _ _ | .unit _ => rfl
  | .as _ p _ => by rw [mapAttrs, labels, labels, labels_mapAttrs p, List.map_cons]
  | .tuple _ ps | .constructor _ _ ps => by
    rw [mapAttrs, labels, labels, labelsList_mapAttrsList ps, List.map_cons]
  | .headTail _ x y => by
    rw [mapAttrs, labels, labels, labels_mapAttrs x, labels_mapAttrs y, List.map_cons,
      List.map_append]

theorem Pattern.labelsList_mapAttrsList : ∀ ps : List (Pattern ν),
    labelsList (mapAttrsList g ps) = (labelsList ps).map g
  | [] => rfl
  | p :: ps => by
    rw [mapAttrsList, labelsList, labelsList, labels_mapAttrs p, labelsList_mapAttrsList ps,
      List.map_append]

end

theorem TypeExpr.labels?_map (t : Option (TypeExpr τ)) :
    labels? (t.map (mapAttrs f)) = (labels? t).map f := by
  cases t with
  | none => rfl
  | some t => exact labels_mapAttrs f t

theorem map_inl_map (as : List τ) :
    (as.map f).map Sum.inl = (as.map Sum.inl).map (Sum.map f g) := by
  simp [Function.comp_def]

theorem map_inr_map (as : List ν) :
    (as.map g).map Sum.inr = (as.map Sum.inr).map (Sum.map f g) := by
  simp [Function.comp_def]

theorem Input.labels_mapAttrs (i : Input τ ν) :
    (i.mapAttrs f g).labels = i.labels.map (Sum.map f g) := by
  simp only [mapAttrs, labels, TypeExpr.labels_mapAttrs, map_inl_map f g, List.map_cons, Sum.map_inr]

mutual

theorem Value.labels_mapAttrs : ∀ v : Value τ ν,
    (v.mapAttrs f g).labels = v.labels.map (Sum.map f g)
  | .literal _ _ | .constructor _ _ | .variable _ _ | .reference _ _ | .fieldFunction _ _
  | .unit _ | .native _ _ _ | .external _ _ _ => rfl
  | .tuple _ vs | .list _ vs => by
    simp only [Value.mapAttrs, Value.labels, Value.labelsList_mapAttrsList vs, List.map_cons,
      Sum.map_inr]
  | .record _ fs => by
    simp only [Value.mapAttrs, Value.labels, Value.labelsFields_mapAttrsFields fs, List.map_cons,
      Sum.map_inr]
  | .field _ v _ => by
    simp only [Value.mapAttrs, Value.labels, Value.labels_mapAttrs v, List.map_cons, Sum.map_inr]
  | .apply _ x y => by
    simp only [Value.mapAttrs, Value.labels, Value.labels_mapAttrs x, Value.labels_mapAttrs y,
      List.map_cons, Sum.map_inr, List.map_append]
  | .lambda _ p b => by
    simp only [Value.mapAttrs, Value.labels, Pattern.labels_mapAttrs, Value.labels_mapAttrs b,
      map_inr_map f g, List.map_cons, Sum.map_inr, List.map_append]
  | .letDefinition _ _ d b => by
    simp only [Value.mapAttrs, Value.labels, ValueDefinition.labels_mapAttrs d,
      Value.labels_mapAttrs b, List.map_cons, Sum.map_inr, List.map_append]
  | .letRecursion _ ds b => by
    simp only [Value.mapAttrs, Value.labels, ValueDefinition.labelsBindings_mapAttrsBindings ds,
      Value.labels_mapAttrs b, List.map_cons, Sum.map_inr, List.map_append]
  | .destructure _ p v b => by
    simp only [Value.mapAttrs, Value.labels, Pattern.labels_mapAttrs, Value.labels_mapAttrs v,
      Value.labels_mapAttrs b, map_inr_map f g, List.map_cons, Sum.map_inr, List.map_append]
  | .ifThenElse _ c t e => by
    simp only [Value.mapAttrs, Value.labels, Value.labels_mapAttrs c, Value.labels_mapAttrs t,
      Value.labels_mapAttrs e, List.map_cons, Sum.map_inr, List.map_append]
  | .patternMatch _ v cs => by
    simp only [Value.mapAttrs, Value.labels, Value.labels_mapAttrs v,
      Value.labelsCases_mapAttrsCases cs, List.map_cons, Sum.map_inr, List.map_append]
  | .updateRecord _ v us => by
    simp only [Value.mapAttrs, Value.labels, Value.labels_mapAttrs v,
      Value.labelsFields_mapAttrsFields us, List.map_cons, Sum.map_inr, List.map_append]
  | .hole _ _ t => by
    simp only [Value.mapAttrs, Value.labels, TypeExpr.labels?_map, map_inl_map f g, List.map_cons,
      Sum.map_inr]

theorem Value.labelsList_mapAttrsList : ∀ vs : List (Value τ ν),
    Value.labelsList (Value.mapAttrsList f g vs) = (Value.labelsList vs).map (Sum.map f g)
  | [] => rfl
  | v :: vs => by
    rw [Value.mapAttrsList, Value.labelsList, Value.labelsList, Value.labels_mapAttrs v,
      Value.labelsList_mapAttrsList vs, List.map_append]

theorem Value.labelsFields_mapAttrsFields : ∀ fs : List (Name × Value τ ν),
    Value.labelsFields (Value.mapAttrsFields f g fs) = (Value.labelsFields fs).map (Sum.map f g)
  | [] => rfl
  | (_, v) :: fs => by
    rw [Value.mapAttrsFields, Value.labelsFields, Value.labelsFields, Value.labels_mapAttrs v,
      Value.labelsFields_mapAttrsFields fs, List.map_append]

theorem Value.labelsCases_mapAttrsCases : ∀ cs : List (Pattern ν × Value τ ν),
    Value.labelsCases (Value.mapAttrsCases f g cs) = (Value.labelsCases cs).map (Sum.map f g)
  | [] => rfl
  | (p, v) :: cs => by
    simp only [Value.mapAttrsCases, Value.labelsCases, Pattern.labels_mapAttrs,
      Value.labels_mapAttrs v, Value.labelsCases_mapAttrsCases cs, map_inr_map f g, List.map_append]

theorem ValueDefinition.labels_mapAttrs : ∀ d : ValueDefinition τ ν,
    (d.mapAttrs f g).labels = d.labels.map (Sum.map f g)
  | .mk is t b => by
    simp only [ValueDefinition.mapAttrs, ValueDefinition.labels, TypeExpr.labels_mapAttrs,
      List.flatMap_map, List.map_flatMap, Input.labels_mapAttrs, ValueBody.labels_mapAttrs b,
      map_inl_map f g, List.map_append]

theorem ValueDefinition.labelsBindings_mapAttrsBindings :
    ∀ ds : List (Name × ValueDefinition τ ν),
    ValueDefinition.labelsBindings (ValueDefinition.mapAttrsBindings f g ds) =
      (ValueDefinition.labelsBindings ds).map (Sum.map f g)
  | [] => rfl
  | (_, d) :: ds => by
    rw [ValueDefinition.mapAttrsBindings, ValueDefinition.labelsBindings,
      ValueDefinition.labelsBindings, ValueDefinition.labels_mapAttrs d,
      ValueDefinition.labelsBindings_mapAttrsBindings ds, List.map_append]

theorem ValueBody.labels_mapAttrs : ∀ b : ValueBody τ ν,
    (b.mapAttrs f g).labels = b.labels.map (Sum.map f g)
  | .expression v => by rw [ValueBody.mapAttrs, ValueBody.labels, ValueBody.labels,
      Value.labels_mapAttrs v]
  | .native _ | .external _ _ | .incomplete _ => rfl

end

theorem Constructor.labels_mapAttrs (c : Constructor τ) :
    (c.mapAttrs f).labels = c.labels.map f :=
  TypeExpr.labelsFields_mapAttrsFields f c.arguments

theorem Constructor.flatMap_labels_map (cs : List (Constructor τ)) :
    (cs.map (mapAttrs f)).flatMap labels = (cs.flatMap labels).map f := by
  simp only [List.flatMap_map, List.map_flatMap, labels_mapAttrs]

theorem TypeDefinition.labels_mapAttrs : ∀ d : TypeDefinition τ,
    (d.mapAttrs f).labels = d.labels.map f
  | .synonym _ t => TypeExpr.labels_mapAttrs f t
  | .custom _ _ cs => Constructor.flatMap_labels_map f cs
  | .incomplete _ _ t => TypeExpr.labels?_map f t

theorem TypeSpecification.labels_mapAttrs : ∀ s : TypeSpecification τ,
    (s.mapAttrs f).labels = s.labels.map f
  | .synonym _ t => TypeExpr.labels_mapAttrs f t
  | .abstract _ => rfl
  | .custom _ cs => Constructor.flatMap_labels_map f cs

theorem ValueSpecification.labels_mapAttrs (s : ValueSpecification τ) :
    (s.mapAttrs f).labels = s.labels.map f := by
  simp only [mapAttrs, labels, TypeExpr.labelsFields_mapAttrsFields, TypeExpr.labels_mapAttrs,
    List.map_append]

theorem ModuleDefinition.labels_mapAttrs (m : ModuleDefinition τ ν) :
    (m.mapAttrs f g).labels = m.labels.map (Sum.map f g) := by
  simp only [mapAttrs, labels, List.map_append, List.flatMap_map, List.map_flatMap,
    TypeEntry.mapAttrs, TypeDefinition.labels_mapAttrs, map_inl_map f g, ValueEntry.mapAttrs,
    ValueDefinition.labels_mapAttrs]

theorem ModuleSpecification.labels_mapAttrs (m : ModuleSpecification τ) :
    (m.mapAttrs f).labels = m.labels.map f := by
  simp only [mapAttrs, labels, List.map_append, List.flatMap_map, List.map_flatMap,
    TypeSpecEntry.mapAttrs, TypeSpecification.labels_mapAttrs, ValueSpecEntry.mapAttrs,
    ValueSpecification.labels_mapAttrs]

theorem PackageDefinition.labels_mapAttrs (p : PackageDefinition τ ν) :
    (p.mapAttrs f g).labels = p.labels.map (Sum.map f g) := by
  simp only [mapAttrs, labels, List.flatMap_map, List.map_flatMap, ModuleEntry.mapAttrs,
    ModuleDefinition.labels_mapAttrs]

theorem PackageSpecification.labels_mapAttrs (p : PackageSpecification τ) :
    (p.mapAttrs f).labels = p.labels.map f := by
  simp only [mapAttrs, labels, List.flatMap_map, List.map_flatMap, ModuleSpecEntry.mapAttrs,
    ModuleSpecification.labels_mapAttrs]

theorem Dependency.labelsList_map (ds : List (Dependency τ)) :
    labelsList (ds.map (mapAttrs f)) = (labelsList ds).map f := by
  simp only [labelsList, List.flatMap_map, List.map_flatMap, mapAttrs,
    PackageSpecification.labels_mapAttrs]

/-- Replacing attributes replaces the listed attributes one by one. -/
theorem Distribution.labels_mapAttrs (d : Distribution τ ν) :
    (d.mapAttrs f g).labels = d.labels.map (Sum.map f g) := by
  cases d <;>
    simp only [mapAttrs, labels, Dependency.labelsList_map, List.map_append,
      PackageDefinition.labels_mapAttrs, PackageSpecification.labels_mapAttrs, map_inl_map f g]

/-- Replacing attributes keeps the structure. -/
theorem Distribution.erased_mapAttrs (d : Distribution τ ν) :
    (d.mapAttrs f g).erased = d.erased :=
  mapAttrs_mapAttrs f g (fun _ => ()) (fun _ => ()) d

end Replacing

section Agreeing

variable {f f' : τ → σ} {g g' : ν → μ}

mutual

theorem TypeExpr.mapAttrs_congr : ∀ {t : TypeExpr τ}, (∀ a ∈ t.labels, f a = f' a) →
    t.mapAttrs f = t.mapAttrs f'
  | .variable _ _, h | .unit _, h => by
    simp only [labels, List.forall_mem_singleton] at h
    rw [mapAttrs, mapAttrs, h]
  | .reference _ _ _, h | .tuple _ _, h => by
    simp only [labels, List.forall_mem_cons] at h
    rw [mapAttrs, mapAttrs, h.1, mapAttrsList_congr h.2]
  | .record _ _, h | .extensibleRecord _ _ _, h => by
    simp only [labels, List.forall_mem_cons] at h
    rw [mapAttrs, mapAttrs, h.1, mapAttrsFields_congr h.2]
  | .function _ _ _, h => by
    simp only [labels, List.forall_mem_cons, List.forall_mem_append] at h
    rw [mapAttrs, mapAttrs, h.1, mapAttrs_congr h.2.1, mapAttrs_congr h.2.2]

theorem TypeExpr.mapAttrsList_congr : ∀ {ts : List (TypeExpr τ)},
    (∀ a ∈ labelsList ts, f a = f' a) → mapAttrsList f ts = mapAttrsList f' ts
  | [], _ => rfl
  | _ :: _, h => by
    simp only [labelsList, List.forall_mem_append] at h
    rw [mapAttrsList, mapAttrsList, mapAttrs_congr h.1, mapAttrsList_congr h.2]

theorem TypeExpr.mapAttrsFields_congr : ∀ {fs : List (Name × TypeExpr τ)},
    (∀ a ∈ labelsFields fs, f a = f' a) → mapAttrsFields f fs = mapAttrsFields f' fs
  | [], _ => rfl
  | (_, _) :: _, h => by
    simp only [labelsFields, List.forall_mem_append] at h
    rw [mapAttrsFields, mapAttrsFields, mapAttrs_congr h.1, mapAttrsFields_congr h.2]

end

mutual

theorem Pattern.mapAttrs_congr : ∀ {p : Pattern ν}, (∀ a ∈ p.labels, g a = g' a) →
    p.mapAttrs g = p.mapAttrs g'
  | .wildcard _, h | .emptyList _, h | .literal _ _, h | .unit _, h => by
    simp only [labels, List.forall_mem_singleton] at h
    rw [mapAttrs, mapAttrs, h]
  | .as _ _ _, h => by
    simp only [labels, List.forall_mem_cons] at h
    rw [mapAttrs, mapAttrs, h.1, mapAttrs_congr h.2]
  | .tuple _ _, h | .constructor _ _ _, h => by
    simp only [labels, List.forall_mem_cons] at h
    rw [mapAttrs, mapAttrs, h.1, mapAttrsList_congr h.2]
  | .headTail _ _ _, h => by
    simp only [labels, List.forall_mem_cons, List.forall_mem_append] at h
    rw [mapAttrs, mapAttrs, h.1, mapAttrs_congr h.2.1, mapAttrs_congr h.2.2]

theorem Pattern.mapAttrsList_congr : ∀ {ps : List (Pattern ν)},
    (∀ a ∈ labelsList ps, g a = g' a) → mapAttrsList g ps = mapAttrsList g' ps
  | [], _ => rfl
  | _ :: _, h => by
    simp only [labelsList, List.forall_mem_append] at h
    rw [mapAttrsList, mapAttrsList, mapAttrs_congr h.1, mapAttrsList_congr h.2]

end

theorem TypeExpr.map_mapAttrs_congr {t : Option (TypeExpr τ)} (h : ∀ a ∈ labels? t, f a = f' a) :
    t.map (mapAttrs f) = t.map (mapAttrs f') := by
  cases t with
  | none => rfl
  | some t => exact congrArg some (mapAttrs_congr h)

theorem agree_inl {as : List τ} :
    (∀ x ∈ as.map (Sum.inl : τ → τ ⊕ ν), x.map f g = x.map f' g') ↔ ∀ a ∈ as, f a = f' a := by
  simp

theorem agree_inr {as : List ν} :
    (∀ x ∈ as.map (Sum.inr : ν → τ ⊕ ν), x.map f g = x.map f' g') ↔ ∀ a ∈ as, g a = g' a := by
  simp

theorem Input.mapAttrs_congr {i : Input τ ν} (h : ∀ x ∈ i.labels, x.map f g = x.map f' g') :
    i.mapAttrs f g = i.mapAttrs f' g' := by
  simp only [labels, List.forall_mem_cons, agree_inl, Sum.map_inr, Sum.inr.injEq] at h
  rw [mapAttrs, mapAttrs, h.1, TypeExpr.mapAttrs_congr h.2]

/-- Entries that are each replaced alike are replaced alike. -/
theorem map_congr_of_labels {α β γ : Type} {e e' : α → β} {l : α → List γ} {P : γ → Prop}
    (he : ∀ x, (∀ a ∈ l x, P a) → e x = e' x) {xs : List α} (h : ∀ a ∈ xs.flatMap l, P a) :
    xs.map e = xs.map e' :=
  List.map_congr_left fun x hx => he x fun a ha => h a (List.mem_flatMap_of_mem hx ha)

mutual

theorem Value.mapAttrs_congr : ∀ {v : Value τ ν}, (∀ x ∈ v.labels, x.map f g = x.map f' g') →
    v.mapAttrs f g = v.mapAttrs f' g'
  -- The only label of a leaf is its own attribute.
  | .literal _ _, h | .constructor _ _, h | .variable _ _, h | .reference _ _, h
  | .fieldFunction _ _, h | .unit _, h | .native _ _ _, h | .external _ _ _, h => by
    simp only [Value.labels, List.forall_mem_singleton, Sum.map_inr, Sum.inr.injEq] at h
    rw [Value.mapAttrs, Value.mapAttrs, h]
  | .tuple _ _, h | .list _ _, h => by
    simp only [Value.labels, List.forall_mem_cons, Sum.map_inr, Sum.inr.injEq] at h
    rw [Value.mapAttrs, Value.mapAttrs, h.1, Value.mapAttrsList_congr h.2]
  | .record _ _, h => by
    simp only [Value.labels, List.forall_mem_cons, Sum.map_inr, Sum.inr.injEq] at h
    rw [Value.mapAttrs, Value.mapAttrs, h.1, Value.mapAttrsFields_congr h.2]
  | .field _ _ _, h => by
    simp only [Value.labels, List.forall_mem_cons, Sum.map_inr, Sum.inr.injEq] at h
    rw [Value.mapAttrs, Value.mapAttrs, h.1, Value.mapAttrs_congr h.2]
  | .apply _ _ _, h => by
    simp only [Value.labels, List.forall_mem_cons, List.forall_mem_append, Sum.map_inr,
      Sum.inr.injEq] at h
    rw [Value.mapAttrs, Value.mapAttrs, h.1, Value.mapAttrs_congr h.2.1,
      Value.mapAttrs_congr h.2.2]
  | .lambda _ _ _, h => by
    simp only [Value.labels, List.forall_mem_cons, List.forall_mem_append, agree_inr, Sum.map_inr,
      Sum.inr.injEq] at h
    rw [Value.mapAttrs, Value.mapAttrs, h.1, Pattern.mapAttrs_congr h.2.1,
      Value.mapAttrs_congr h.2.2]
  | .letDefinition _ _ _ _, h => by
    simp only [Value.labels, List.forall_mem_cons, List.forall_mem_append, Sum.map_inr,
      Sum.inr.injEq] at h
    rw [Value.mapAttrs, Value.mapAttrs, h.1, ValueDefinition.mapAttrs_congr h.2.1,
      Value.mapAttrs_congr h.2.2]
  | .letRecursion _ _ _, h => by
    simp only [Value.labels, List.forall_mem_cons, List.forall_mem_append, Sum.map_inr,
      Sum.inr.injEq] at h
    rw [Value.mapAttrs, Value.mapAttrs, h.1, ValueDefinition.mapAttrsBindings_congr h.2.1,
      Value.mapAttrs_congr h.2.2]
  | .destructure _ _ _ _, h => by
    simp only [Value.labels, List.forall_mem_cons, List.forall_mem_append, agree_inr, Sum.map_inr,
      Sum.inr.injEq] at h
    rw [Value.mapAttrs, Value.mapAttrs, h.1, Pattern.mapAttrs_congr h.2.1.1,
      Value.mapAttrs_congr h.2.1.2, Value.mapAttrs_congr h.2.2]
  | .ifThenElse _ _ _ _, h => by
    simp only [Value.labels, List.forall_mem_cons, List.forall_mem_append, Sum.map_inr,
      Sum.inr.injEq] at h
    rw [Value.mapAttrs, Value.mapAttrs, h.1, Value.mapAttrs_congr h.2.1.1,
      Value.mapAttrs_congr h.2.1.2, Value.mapAttrs_congr h.2.2]
  | .patternMatch _ _ _, h => by
    simp only [Value.labels, List.forall_mem_cons, List.forall_mem_append, Sum.map_inr,
      Sum.inr.injEq] at h
    rw [Value.mapAttrs, Value.mapAttrs, h.1, Value.mapAttrs_congr h.2.1,
      Value.mapAttrsCases_congr h.2.2]
  | .updateRecord _ _ _, h => by
    simp only [Value.labels, List.forall_mem_cons, List.forall_mem_append, Sum.map_inr,
      Sum.inr.injEq] at h
    rw [Value.mapAttrs, Value.mapAttrs, h.1, Value.mapAttrs_congr h.2.1,
      Value.mapAttrsFields_congr h.2.2]
  | .hole _ _ _, h => by
    simp only [Value.labels, List.forall_mem_cons, agree_inl, Sum.map_inr, Sum.inr.injEq] at h
    rw [Value.mapAttrs, Value.mapAttrs, h.1, TypeExpr.map_mapAttrs_congr h.2]

theorem Value.mapAttrsList_congr : ∀ {vs : List (Value τ ν)},
    (∀ x ∈ Value.labelsList vs, x.map f g = x.map f' g') →
    Value.mapAttrsList f g vs = Value.mapAttrsList f' g' vs
  | [], _ => rfl
  | _ :: _, h => by
    simp only [Value.labelsList, List.forall_mem_append] at h
    rw [Value.mapAttrsList, Value.mapAttrsList, Value.mapAttrs_congr h.1,
      Value.mapAttrsList_congr h.2]

theorem Value.mapAttrsFields_congr : ∀ {fs : List (Name × Value τ ν)},
    (∀ x ∈ Value.labelsFields fs, x.map f g = x.map f' g') →
    Value.mapAttrsFields f g fs = Value.mapAttrsFields f' g' fs
  | [], _ => rfl
  | (_, _) :: _, h => by
    simp only [Value.labelsFields, List.forall_mem_append] at h
    rw [Value.mapAttrsFields, Value.mapAttrsFields, Value.mapAttrs_congr h.1,
      Value.mapAttrsFields_congr h.2]

theorem Value.mapAttrsCases_congr : ∀ {cs : List (Pattern ν × Value τ ν)},
    (∀ x ∈ Value.labelsCases cs, x.map f g = x.map f' g') →
    Value.mapAttrsCases f g cs = Value.mapAttrsCases f' g' cs
  | [], _ => rfl
  | (_, _) :: _, h => by
    simp only [Value.labelsCases, List.forall_mem_append, agree_inr] at h
    rw [Value.mapAttrsCases, Value.mapAttrsCases, Pattern.mapAttrs_congr h.1.1,
      Value.mapAttrs_congr h.1.2, Value.mapAttrsCases_congr h.2]

theorem ValueDefinition.mapAttrs_congr : ∀ {d : ValueDefinition τ ν},
    (∀ x ∈ d.labels, x.map f g = x.map f' g') → d.mapAttrs f g = d.mapAttrs f' g'
  | .mk _ _ _, h => by
    simp only [ValueDefinition.labels, List.forall_mem_append, agree_inl] at h
    rw [ValueDefinition.mapAttrs, ValueDefinition.mapAttrs,
      map_congr_of_labels (fun _ => Input.mapAttrs_congr) h.1.1, TypeExpr.mapAttrs_congr h.1.2,
      ValueBody.mapAttrs_congr h.2]

theorem ValueDefinition.mapAttrsBindings_congr : ∀ {ds : List (Name × ValueDefinition τ ν)},
    (∀ x ∈ ValueDefinition.labelsBindings ds, x.map f g = x.map f' g') →
    ValueDefinition.mapAttrsBindings f g ds = ValueDefinition.mapAttrsBindings f' g' ds
  | [], _ => rfl
  | (_, _) :: _, h => by
    simp only [ValueDefinition.labelsBindings, List.forall_mem_append] at h
    rw [ValueDefinition.mapAttrsBindings, ValueDefinition.mapAttrsBindings,
      ValueDefinition.mapAttrs_congr h.1, ValueDefinition.mapAttrsBindings_congr h.2]

theorem ValueBody.mapAttrs_congr : ∀ {b : ValueBody τ ν},
    (∀ x ∈ b.labels, x.map f g = x.map f' g') → b.mapAttrs f g = b.mapAttrs f' g'
  | .expression _, h => by
    simp only [ValueBody.labels] at h
    rw [ValueBody.mapAttrs, ValueBody.mapAttrs, Value.mapAttrs_congr h]
  | .native _, _ | .external _ _, _ | .incomplete _, _ => rfl

end

theorem Constructor.mapAttrs_congr {c : Constructor τ} (h : ∀ a ∈ c.labels, f a = f' a) :
    c.mapAttrs f = c.mapAttrs f' := by
  rw [mapAttrs, mapAttrs, TypeExpr.mapAttrsFields_congr h]

theorem TypeDefinition.mapAttrs_congr : ∀ {d : TypeDefinition τ}, (∀ a ∈ d.labels, f a = f' a) →
    d.mapAttrs f = d.mapAttrs f'
  | .synonym _ _, h => by rw [mapAttrs, mapAttrs, TypeExpr.mapAttrs_congr h]
  | .custom _ _ _, h => by
    rw [mapAttrs, mapAttrs, map_congr_of_labels (fun _ => Constructor.mapAttrs_congr) h]
  | .incomplete _ _ _, h => by rw [mapAttrs, mapAttrs, TypeExpr.map_mapAttrs_congr h]

theorem TypeSpecification.mapAttrs_congr : ∀ {s : TypeSpecification τ},
    (∀ a ∈ s.labels, f a = f' a) → s.mapAttrs f = s.mapAttrs f'
  | .synonym _ _, h => by rw [mapAttrs, mapAttrs, TypeExpr.mapAttrs_congr h]
  | .abstract _, _ => rfl
  | .custom _ _, h => by
    rw [mapAttrs, mapAttrs, map_congr_of_labels (fun _ => Constructor.mapAttrs_congr) h]

theorem ValueSpecification.mapAttrs_congr {s : ValueSpecification τ}
    (h : ∀ a ∈ s.labels, f a = f' a) : s.mapAttrs f = s.mapAttrs f' := by
  simp only [labels, List.forall_mem_append] at h
  rw [mapAttrs, mapAttrs, TypeExpr.mapAttrsFields_congr h.1, TypeExpr.mapAttrs_congr h.2]

theorem ModuleDefinition.mapAttrs_congr {m : ModuleDefinition τ ν}
    (h : ∀ x ∈ m.labels, x.map f g = x.map f' g') : m.mapAttrs f g = m.mapAttrs f' g' := by
  simp only [labels, List.forall_mem_append] at h
  rw [mapAttrs, mapAttrs, map_congr_of_labels (fun e he => ?_) h.1,
    map_congr_of_labels (fun e he => ?_) h.2]
  · rw [ValueEntry.mapAttrs, ValueEntry.mapAttrs, ValueDefinition.mapAttrs_congr he]
  · rw [TypeEntry.mapAttrs, TypeEntry.mapAttrs, TypeDefinition.mapAttrs_congr (agree_inl.1 he)]

theorem ModuleSpecification.mapAttrs_congr {m : ModuleSpecification τ}
    (h : ∀ a ∈ m.labels, f a = f' a) : m.mapAttrs f = m.mapAttrs f' := by
  simp only [labels, List.forall_mem_append] at h
  rw [mapAttrs, mapAttrs, map_congr_of_labels (fun e he => ?_) h.1,
    map_congr_of_labels (fun e he => ?_) h.2]
  · rw [ValueSpecEntry.mapAttrs, ValueSpecEntry.mapAttrs, ValueSpecification.mapAttrs_congr he]
  · rw [TypeSpecEntry.mapAttrs, TypeSpecEntry.mapAttrs, TypeSpecification.mapAttrs_congr he]

theorem PackageDefinition.mapAttrs_congr {p : PackageDefinition τ ν}
    (h : ∀ x ∈ p.labels, x.map f g = x.map f' g') : p.mapAttrs f g = p.mapAttrs f' g' := by
  rw [mapAttrs, mapAttrs, map_congr_of_labels (fun e he => ?_) h]
  rw [ModuleEntry.mapAttrs, ModuleEntry.mapAttrs, ModuleDefinition.mapAttrs_congr he]

theorem PackageSpecification.mapAttrs_congr {p : PackageSpecification τ}
    (h : ∀ a ∈ p.labels, f a = f' a) : p.mapAttrs f = p.mapAttrs f' := by
  rw [mapAttrs, mapAttrs, map_congr_of_labels (fun e he => ?_) h]
  rw [ModuleSpecEntry.mapAttrs, ModuleSpecEntry.mapAttrs, ModuleSpecification.mapAttrs_congr he]

theorem Dependency.map_mapAttrs_congr {ds : List (Dependency τ)}
    (h : ∀ a ∈ labelsList ds, f a = f' a) : ds.map (mapAttrs f) = ds.map (mapAttrs f') :=
  map_congr_of_labels (fun e he => by
    rw [mapAttrs, mapAttrs, PackageSpecification.mapAttrs_congr he]) h

/-- Two ways of replacing attributes that agree on those of a distribution give the same. -/
theorem Distribution.mapAttrs_congr : ∀ {d : Distribution τ ν},
    (∀ x ∈ d.labels, x.map f g = x.map f' g') → d.mapAttrs f g = d.mapAttrs f' g'
  | .library _ _ _, h | .application _ _ _ _, h => by
    simp only [labels, List.forall_mem_append, agree_inl] at h
    rw [mapAttrs, mapAttrs, Dependency.map_mapAttrs_congr h.1, PackageDefinition.mapAttrs_congr h.2]
  | .specs _ _ _, h => by
    simp only [labels, List.forall_mem_append, agree_inl] at h
    rw [mapAttrs, mapAttrs, Dependency.map_mapAttrs_congr h.1,
      PackageSpecification.mapAttrs_congr h.2]

end Agreeing

/-- What the listed attributes meet is met wherever a distribution has an attribute. -/
theorem Distribution.Satisfies.and_labels {P : Conditions τ ν} {T : τ → Prop} {V : ν → Prop}
    {a : τ} {b : ν} {d : Distribution τ ν} (h : d.Satisfies P) (ha : P.typeAttrs a ∧ T a)
    (hb : P.valueAttrs b ∧ V b) (hlabels : ∀ x ∈ d.labels, Sum.elim T V x) :
    d.Satisfies { P with
      typeAttrs := fun x => P.typeAttrs x ∧ T x
      valueAttrs := fun x => P.valueAttrs x ∧ V x } := by
  classical
  -- An attribute that fails is replaced by one that does not. None of the listed ones is.
  let f : τ → τ := fun x => if T x then x else a
  let g : ν → ν := fun x => if V x then x else b
  have htype (x : τ) (hx : P.typeAttrs x) : P.typeAttrs (f x) ∧ T (f x) := by
    by_cases hT : T x <;> simp [f, hT, hx, ha]
  have hvalue (x : ν) (hx : P.valueAttrs x) : P.valueAttrs (g x) ∧ V (g x) := by
    by_cases hV : V x <;> simp [g, hV, hx, hb]
  have hfixed : d.mapAttrs f g = d := by
    calc d.mapAttrs f g = d.mapAttrs id id := by
          refine Distribution.mapAttrs_congr fun x hx => ?_
          cases x with
          | inl x => exact congrArg Sum.inl (if_pos (hlabels _ hx))
          | inr x => exact congrArg Sum.inr (if_pos (hlabels _ hx))
      _ = d := d.mapAttrs_id
  refine hfixed ▸ h.mapAttrs ?_ h
  exact
    { typeAttrs := fun x hx _ => htype x hx
      valueAttrs := fun x hx _ => hvalue x hx
      literal := fun _ hl _ => hl
      name := fun _ hn _ => hn
      path := fun _ hp _ => hp
      qualified := fun _ hf _ => hf
      names := fun _ hns _ => hns
      paths := fun _ hps _ => hps }

end IrDialects
