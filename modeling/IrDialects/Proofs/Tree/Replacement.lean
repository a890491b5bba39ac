import IrDialects.Proofs.Tree.Conditions

/-!
# Replacing attributes

Replacing attributes twice is replacing them once, and replacing each by itself changes nothing. A
tree whose parts meet some conditions meets others after its attributes are replaced if each of its
parts does.
-/

namespace IrDialects

variable {τ ν σ μ ρ κ : Type}

section Lists

variable (f : τ → σ) (g : ν → μ)

@[simp] theorem TypeExpr.mapAttrsList_eq_map (ts : List (TypeExpr τ)) :
    mapAttrsList f ts = ts.map (mapAttrs f) := by
  induction ts with
  | nil => rfl
  | cons t ts ih => rw [mapAttrsList, ih, List.map_cons]

@[simp] theorem TypeExpr.mapAttrsFields_eq_map (fs : TypeFields τ) :
    mapAttrsFields f fs = fs.map fun p => (p.1, mapAttrs f p.2) := by
  induction fs with
  | nil => rfl
  | cons p fs ih => rw [mapAttrsFields, ih, List.map_cons]

@[simp] theorem Pattern.mapAttrsList_eq_map (ps : List (Pattern ν)) :
    mapAttrsList g ps = ps.map (mapAttrs g) := by
  induction ps with
  | nil => rfl
  | cons p ps ih => rw [mapAttrsList, ih, List.map_cons]

@[simp] theorem Value.mapAttrsList_eq_map (vs : List (Value τ ν)) :
    mapAttrsList f g vs = vs.map (mapAttrs f g) := by
  induction vs with
  | nil => rfl
  | cons v vs ih => rw [mapAttrsList, ih, List.map_cons]

@[simp] theorem Value.mapAttrsFields_eq_map (fs : List (Name × Value τ ν)) :
    mapAttrsFields f g fs = fs.map fun p => (p.1, mapAttrs f g p.2) := by
  induction fs with
  | nil => rfl
  | cons p fs ih => rw [mapAttrsFields, ih, List.map_cons]

@[simp] theorem Value.mapAttrsCases_eq_map (cs : List (Pattern ν × Value τ ν)) :
    mapAttrsCases f g cs = cs.map fun p => (p.1.mapAttrs g, mapAttrs f g p.2) := by
  induction cs with
  | nil => rfl
  | cons p cs ih => rw [mapAttrsCases, ih, List.map_cons]

@[simp] theorem ValueDefinition.mapAttrsBindings_eq_map
    (ds : List (Name × ValueDefinition τ ν)) :
    mapAttrsBindings f g ds = ds.map fun p => (p.1, mapAttrs f g p.2) := by
  induction ds with
  | nil => rfl
  | cons p ds ih => rw [mapAttrsBindings, ih, List.map_cons]

end Lists

section Twice

variable (f : τ → σ) (g : ν → μ) (f' : σ → ρ) (g' : μ → κ)

mutual

@[simp] theorem TypeExpr.mapAttrs_mapAttrs : ∀ t : TypeExpr τ,
    (t.mapAttrs f).mapAttrs f' = t.mapAttrs (f' ∘ f)
  | .variable _ _ | .unit _ => rfl
  | .reference _ _ ts | .tuple _ ts => by
    simp only [mapAttrs, mapAttrsList_mapAttrsList ts, Function.comp]
  | .record _ fs | .extensibleRecord _ _ fs => by
    simp only [mapAttrs, mapAttrsFields_mapAttrsFields fs, Function.comp]
  | .function _ x y => by
    simp only [mapAttrs, mapAttrs_mapAttrs x, mapAttrs_mapAttrs y, Function.comp]

theorem TypeExpr.mapAttrsList_mapAttrsList : ∀ ts : List (TypeExpr τ),
    mapAttrsList f' (mapAttrsList f ts) = mapAttrsList (f' ∘ f) ts
  | [] => rfl
  | t :: ts => by
    rw [mapAttrsList, mapAttrsList, mapAttrsList, mapAttrs_mapAttrs t,
      mapAttrsList_mapAttrsList ts]

theorem TypeExpr.mapAttrsFields_mapAttrsFields : ∀ fs : List (Name × TypeExpr τ),
    mapAttrsFields f' (mapAttrsFields f fs) = mapAttrsFields (f' ∘ f) fs
  | [] => rfl
  | (_, t) :: fs => by
    rw [mapAttrsFields, mapAttrsFields, mapAttrsFields, mapAttrs_mapAttrs t,
      mapAttrsFields_mapAttrsFields fs]

end

mutual

@[simp] theorem Pattern.mapAttrs_mapAttrs : ∀ p : Pattern ν,
    (p.mapAttrs g).mapAttrs g' = p.mapAttrs (g' ∘ g)
  | .wildcard _ | .emptyList _ | .literal _ _ | .unit _ => rfl
  | .as _ p _ => by simp only [mapAttrs, mapAttrs_mapAttrs p, Function.comp]
  | .tuple _ ps | .constructor _ _ ps => by
    simp only [mapAttrs, mapAttrsList_mapAttrsList ps, Function.comp]
  | .headTail _ h t => by
    simp only [mapAttrs, mapAttrs_mapAttrs h, mapAttrs_mapAttrs t, Function.comp]

theorem Pattern.mapAttrsList_mapAttrsList : ∀ ps : List (Pattern ν),
    mapAttrsList g' (mapAttrsList g ps) = mapAttrsList (g' ∘ g) ps
  | [] => rfl
  | p :: ps => by
    rw [mapAttrsList, mapAttrsList, mapAttrsList, mapAttrs_mapAttrs p,
      mapAttrsList_mapAttrsList ps]

end

@[simp] theorem Input.mapAttrs_mapAttrs (i : Input τ ν) :
    (i.mapAttrs f g).mapAttrs f' g' = i.mapAttrs (f' ∘ f) (g' ∘ g) := by
  simp [mapAttrs]

theorem TypeExpr.map_mapAttrs (t : Option (TypeExpr τ)) :
    (t.map (mapAttrs f)).map (mapAttrs f') = t.map (mapAttrs (f' ∘ f)) := by
  cases t <;> simp

mutual

@[simp] theorem Value.mapAttrs_mapAttrs : ∀ v : Value τ ν,
    (v.mapAttrs f g).mapAttrs f' g' = v.mapAttrs (f' ∘ f) (g' ∘ g)
  | .literal _ _ | .constructor _ _ | .variable _ _ | .reference _ _ | .fieldFunction _ _
  | .unit _ | .native _ _ _ | .external _ _ _ => rfl
  | .tuple _ vs | .list _ vs => by
    simp only [Value.mapAttrs, Value.mapAttrsList_mapAttrsList vs, Function.comp]
  | .record _ fs => by
    simp only [Value.mapAttrs, Value.mapAttrsFields_mapAttrsFields fs, Function.comp]
  | .field _ v _ => by simp only [Value.mapAttrs, Value.mapAttrs_mapAttrs v, Function.comp]
  | .apply _ x y => by
    simp only [Value.mapAttrs, Value.mapAttrs_mapAttrs x, Value.mapAttrs_mapAttrs y, Function.comp]
  | .lambda _ p b => by
    simp only [Value.mapAttrs, Pattern.mapAttrs_mapAttrs, Value.mapAttrs_mapAttrs b, Function.comp]
  | .letDefinition _ _ d b => by
    simp only [Value.mapAttrs, ValueDefinition.mapAttrs_mapAttrs d, Value.mapAttrs_mapAttrs b,
      Function.comp]
  | .letRecursion _ ds b => by
    simp only [Value.mapAttrs, ValueDefinition.mapAttrsBindings_mapAttrsBindings ds,
      Value.mapAttrs_mapAttrs b, Function.comp]
  | .destructure _ p v b => by
    simp only [Value.mapAttrs, Pattern.mapAttrs_mapAttrs, Value.mapAttrs_mapAttrs v,
      Value.mapAttrs_mapAttrs b, Function.comp]
  | .ifThenElse _ c t e => by
    simp only [Value.mapAttrs, Value.mapAttrs_mapAttrs c, Value.mapAttrs_mapAttrs t,
      Value.mapAttrs_mapAttrs e, Function.comp]
  | .patternMatch _ v cs => by
    simp only [Value.mapAttrs, Value.mapAttrs_mapAttrs v, Value.mapAttrsCases_mapAttrsCases cs,
      Function.comp]
  | .updateRecord _ v us => by
    simp only [Value.mapAttrs, Value.mapAttrs_mapAttrs v, Value.mapAttrsFields_mapAttrsFields us,
      Function.comp]
  | .hole _ _ t => by simp only [Value.mapAttrs, TypeExpr.map_mapAttrs, Function.comp]

theorem Value.mapAttrsList_mapAttrsList : ∀ vs : List (Value τ ν),
    Value.mapAttrsList f' g' (Value.mapAttrsList f g vs) =
      Value.mapAttrsList (f' ∘ f) (g' ∘ g) vs
  | [] => rfl
  | v :: vs => by
    rw [Value.mapAttrsList, Value.mapAttrsList, Value.mapAttrsList, Value.mapAttrs_mapAttrs v,
      Value.mapAttrsList_mapAttrsList vs]

theorem Value.mapAttrsFields_mapAttrsFields : ∀ fs : List (Name × Value τ ν),
    Value.mapAttrsFields f' g' (Value.mapAttrsFields f g fs) =
      Value.mapAttrsFields (f' ∘ f) (g' ∘ g) fs
  | [] => rfl
  | (_, v) :: fs => by
    rw [Value.mapAttrsFields, Value.mapAttrsFields, Value.mapAttrsFields, Value.mapAttrs_mapAttrs v,
      Value.mapAttrsFields_mapAttrsFields fs]

theorem Value.mapAttrsCases_mapAttrsCases : ∀ cs : List (Pattern ν × Value τ ν),
    Value.mapAttrsCases f' g' (Value.mapAttrsCases f g cs) =
      Value.mapAttrsCases (f' ∘ f) (g' ∘ g) cs
  | [] => rfl
  | (p, v) :: cs => by
    rw [Value.mapAttrsCases, Value.mapAttrsCases, Value.mapAttrsCases, Pattern.mapAttrs_mapAttrs,
      Value.mapAttrs_mapAttrs v, Value.mapAttrsCases_mapAttrsCases cs]

@[simp] theorem ValueDefinition.mapAttrs_mapAttrs : ∀ d : ValueDefinition τ ν,
    (d.mapAttrs f g).mapAttrs f' g' = d.mapAttrs (f' ∘ f) (g' ∘ g)
  | .mk is t b => by
    simp only [ValueDefinition.mapAttrs, TypeExpr.mapAttrs_mapAttrs, ValueBody.mapAttrs_mapAttrs b,
      List.map_map]
    congr 1
    exact List.map_congr_left fun i _ => Input.mapAttrs_mapAttrs f g f' g' i

theorem ValueDefinition.mapAttrsBindings_mapAttrsBindings :
    ∀ ds : List (Name × ValueDefinition τ ν),
    ValueDefinition.mapAttrsBindings f' g' (ValueDefinition.mapAttrsBindings f g ds) =
      ValueDefinition.mapAttrsBindings (f' ∘ f) (g' ∘ g) ds
  | [] => rfl
  | (_, d) :: ds => by
    rw [ValueDefinition.mapAttrsBindings, ValueDefinition.mapAttrsBindings,
      ValueDefinition.mapAttrsBindings, ValueDefinition.mapAttrs_mapAttrs d,
      ValueDefinition.mapAttrsBindings_mapAttrsBindings ds]

theorem ValueBody.mapAttrs_mapAttrs : ∀ b : ValueBody τ ν,
    (b.mapAttrs f g).mapAttrs f' g' = b.mapAttrs (f' ∘ f) (g' ∘ g)
  | .native _ | .external _ _ | .incomplete _ => rfl
  | .expression v => by simp only [ValueBody.mapAttrs, Value.mapAttrs_mapAttrs v]

end

@[simp] theorem Constructor.mapAttrs_mapAttrs (c : Constructor τ) :
    (c.mapAttrs f).mapAttrs f' = c.mapAttrs (f' ∘ f) := by
  rw [mapAttrs, mapAttrs, mapAttrs, TypeExpr.mapAttrsFields_mapAttrsFields]

theorem Constructor.map_mapAttrs (cs : List (Constructor τ)) :
    (cs.map (mapAttrs f)).map (mapAttrs f') = cs.map (mapAttrs (f' ∘ f)) := by
  rw [List.map_map]
  exact List.map_congr_left fun c _ => mapAttrs_mapAttrs f f' c

@[simp] theorem TypeDefinition.mapAttrs_mapAttrs (d : TypeDefinition τ) :
    (d.mapAttrs f).mapAttrs f' = d.mapAttrs (f' ∘ f) := by
  cases d with
  | synonym ps t => simp only [mapAttrs, TypeExpr.mapAttrs_mapAttrs]
  | custom ps a cs => simp only [mapAttrs, Constructor.map_mapAttrs]
  | incomplete ps i t => simp only [mapAttrs, TypeExpr.map_mapAttrs]

@[simp] theorem TypeSpecification.mapAttrs_mapAttrs (s : TypeSpecification τ) :
    (s.mapAttrs f).mapAttrs f' = s.mapAttrs (f' ∘ f) := by
  cases s with
  | synonym ps t => simp only [mapAttrs, TypeExpr.mapAttrs_mapAttrs]
  | abstract ps => rfl
  | custom ps cs => simp only [mapAttrs, Constructor.map_mapAttrs]

@[simp] theorem ValueSpecification.mapAttrs_mapAttrs (s : ValueSpecification τ) :
    (s.mapAttrs f).mapAttrs f' = s.mapAttrs (f' ∘ f) := by
  simp only [mapAttrs, TypeExpr.mapAttrsFields_mapAttrsFields, TypeExpr.mapAttrs_mapAttrs]

@[simp] theorem ModuleDefinition.mapAttrs_mapAttrs (m : ModuleDefinition τ ν) :
    (m.mapAttrs f g).mapAttrs f' g' = m.mapAttrs (f' ∘ f) (g' ∘ g) := by
  simp [mapAttrs, TypeEntry.mapAttrs, ValueEntry.mapAttrs]

@[simp] theorem ModuleSpecification.mapAttrs_mapAttrs (m : ModuleSpecification τ) :
    (m.mapAttrs f).mapAttrs f' = m.mapAttrs (f' ∘ f) := by
  simp [mapAttrs, TypeSpecEntry.mapAttrs, ValueSpecEntry.mapAttrs]

@[simp] theorem PackageDefinition.mapAttrs_mapAttrs (p : PackageDefinition τ ν) :
    (p.mapAttrs f g).mapAttrs f' g' = p.mapAttrs (f' ∘ f) (g' ∘ g) := by
  simp [mapAttrs, ModuleEntry.mapAttrs]

@[simp] theorem PackageSpecification.mapAttrs_mapAttrs (p : PackageSpecification τ) :
    (p.mapAttrs f).mapAttrs f' = p.mapAttrs (f' ∘ f) := by
  simp [mapAttrs, ModuleSpecEntry.mapAttrs]

@[simp] theorem Distribution.mapAttrs_mapAttrs (d : Distribution τ ν) :
    (d.mapAttrs f g).mapAttrs f' g' = d.mapAttrs (f' ∘ f) (g' ∘ g) := by
  cases d <;> simp [mapAttrs, Dependency.mapAttrs]

@[simp] theorem Document.mapAttrs_mapAttrs (d : Document τ ν) :
    (d.mapAttrs f g).mapAttrs f' g' = d.mapAttrs (f' ∘ f) (g' ∘ g) := by
  simp only [mapAttrs, Distribution.mapAttrs_mapAttrs]

end Twice

section Identity

mutual

@[simp] theorem TypeExpr.mapAttrs_id : ∀ t : TypeExpr τ, t.mapAttrs id = t
  | .variable _ _ | .unit _ => rfl
  | .reference _ _ ts | .tuple _ ts => by simp only [mapAttrs, mapAttrsList_id ts, id]
  | .record _ fs | .extensibleRecord _ _ fs => by simp only [mapAttrs, mapAttrsFields_id fs, id]
  | .function _ x y => by simp only [mapAttrs, mapAttrs_id x, mapAttrs_id y, id]

theorem TypeExpr.mapAttrsList_id : ∀ ts : List (TypeExpr τ), mapAttrsList id ts = ts
  | [] => rfl
  | t :: ts => by rw [mapAttrsList, mapAttrs_id t, mapAttrsList_id ts]

theorem TypeExpr.mapAttrsFields_id : ∀ fs : List (Name × TypeExpr τ), mapAttrsFields id fs = fs
  | [] => rfl
  | (_, t) :: fs => by rw [mapAttrsFields, mapAttrs_id t, mapAttrsFields_id fs]

end

mutual

@[simp] theorem Pattern.mapAttrs_id : ∀ p : Pattern ν, p.mapAttrs id = p
  | .wildcard _ | .emptyList _ | .literal _ _ | .unit _ => rfl
  | .as _ p _ => by simp only [mapAttrs, mapAttrs_id p, id]
  | .tuple _ ps | .constructor _ _ ps => by simp only [mapAttrs, mapAttrsList_id ps, id]
  | .headTail _ h t => by simp only [mapAttrs, mapAttrs_id h, mapAttrs_id t, id]

theorem Pattern.mapAttrsList_id : ∀ ps : List (Pattern ν), mapAttrsList id ps = ps
  | [] => rfl
  | p :: ps => by rw [mapAttrsList, mapAttrs_id p, mapAttrsList_id ps]

end

@[simp] theorem Input.mapAttrs_id (i : Input τ ν) : i.mapAttrs id id = i := by
  simp only [mapAttrs, TypeExpr.mapAttrs_id, id]

/-- Replacements that are identities on what a list has are the identity on the list. -/
private theorem map_eq_self {α : Type} {f : α → α} {xs : List α} (h : ∀ x, f x = x) :
    xs.map f = xs := by
  rw [funext h, List.map_id']

mutual

@[simp] theorem Value.mapAttrs_id : ∀ v : Value τ ν, v.mapAttrs id id = v
  | .literal _ _ | .constructor _ _ | .variable _ _ | .reference _ _ | .fieldFunction _ _
  | .unit _ | .native _ _ _ | .external _ _ _ => rfl
  | .tuple _ vs | .list _ vs => by simp only [Value.mapAttrs, Value.mapAttrsList_id vs, id]
  | .record _ fs => by simp only [Value.mapAttrs, Value.mapAttrsFields_id fs, id]
  | .field _ v _ => by simp only [Value.mapAttrs, Value.mapAttrs_id v, id]
  | .apply _ x y => by simp only [Value.mapAttrs, Value.mapAttrs_id x, Value.mapAttrs_id y, id]
  | .lambda _ p b => by
    simp only [Value.mapAttrs, Pattern.mapAttrs_id, Value.mapAttrs_id b, id]
  | .letDefinition _ _ d b => by
    simp only [Value.mapAttrs, ValueDefinition.mapAttrs_id d, Value.mapAttrs_id b, id]
  | .letRecursion _ ds b => by
    simp only [Value.mapAttrs, ValueDefinition.mapAttrsBindings_id ds, Value.mapAttrs_id b, id]
  | .destructure _ p v b => by
    simp only [Value.mapAttrs, Pattern.mapAttrs_id, Value.mapAttrs_id v, Value.mapAttrs_id b, id]
  | .ifThenElse _ c t e => by
    simp only [Value.mapAttrs, Value.mapAttrs_id c, Value.mapAttrs_id t, Value.mapAttrs_id e, id]
  | .patternMatch _ v cs => by
    simp only [Value.mapAttrs, Value.mapAttrs_id v, Value.mapAttrsCases_id cs, id]
  | .updateRecord _ v us => by
    simp only [Value.mapAttrs, Value.mapAttrs_id v, Value.mapAttrsFields_id us, id]
  | .hole _ _ none => rfl
  | .hole _ _ (some t) => by
    simp only [Value.mapAttrs, Option.map_some, TypeExpr.mapAttrs_id t, id]

theorem Value.mapAttrsList_id : ∀ vs : List (Value τ ν), Value.mapAttrsList id id vs = vs
  | [] => rfl
  | v :: vs => by rw [Value.mapAttrsList, Value.mapAttrs_id v, Value.mapAttrsList_id vs]

theorem Value.mapAttrsFields_id : ∀ fs : List (Name × Value τ ν),
    Value.mapAttrsFields id id fs = fs
  | [] => rfl
  | (_, v) :: fs => by rw [Value.mapAttrsFields, Value.mapAttrs_id v, Value.mapAttrsFields_id fs]

theorem Value.mapAttrsCases_id : ∀ cs : List (Pattern ν × Value τ ν),
    Value.mapAttrsCases id id cs = cs
  | [] => rfl
  | (p, v) :: cs => by
    rw [Value.mapAttrsCases, Pattern.mapAttrs_id, Value.mapAttrs_id v, Value.mapAttrsCases_id cs]

@[simp] theorem ValueDefinition.mapAttrs_id : ∀ d : ValueDefinition τ ν, d.mapAttrs id id = d
  | .mk is t b => by
    rw [ValueDefinition.mapAttrs, TypeExpr.mapAttrs_id, ValueBody.mapAttrs_id b,
      map_eq_self Input.mapAttrs_id]

theorem ValueDefinition.mapAttrsBindings_id : ∀ ds : List (Name × ValueDefinition τ ν),
    ValueDefinition.mapAttrsBindings id id ds = ds
  | [] => rfl
  | (_, d) :: ds => by
    rw [ValueDefinition.mapAttrsBindings, ValueDefinition.mapAttrs_id d,
      ValueDefinition.mapAttrsBindings_id ds]

theorem ValueBody.mapAttrs_id : ∀ b : ValueBody τ ν, b.mapAttrs id id = b
  | .native _ | .external _ _ | .incomplete _ => rfl
  | .expression v => by rw [ValueBody.mapAttrs, Value.mapAttrs_id v]

end

theorem Constructor.mapAttrs_id (c : Constructor τ) : c.mapAttrs id = c := by
  rw [mapAttrs, TypeExpr.mapAttrsFields_id]

theorem TypeDefinition.mapAttrs_id (d : TypeDefinition τ) : d.mapAttrs id = d := by
  cases d with
  | synonym ps t => rw [mapAttrs, TypeExpr.mapAttrs_id]
  | custom ps a cs => rw [mapAttrs, map_eq_self Constructor.mapAttrs_id]
  | incomplete ps i t => cases t <;> simp [mapAttrs]

theorem TypeSpecification.mapAttrs_id (s : TypeSpecification τ) : s.mapAttrs id = s := by
  cases s with
  | synonym ps t => rw [mapAttrs, TypeExpr.mapAttrs_id]
  | abstract ps => rfl
  | custom ps cs => rw [mapAttrs, map_eq_self Constructor.mapAttrs_id]

theorem ValueSpecification.mapAttrs_id (s : ValueSpecification τ) : s.mapAttrs id = s := by
  rw [mapAttrs, TypeExpr.mapAttrsFields_id, TypeExpr.mapAttrs_id]

theorem ModuleDefinition.mapAttrs_id (m : ModuleDefinition τ ν) : m.mapAttrs id id = m := by
  rw [mapAttrs, map_eq_self fun e => by rw [TypeEntry.mapAttrs, TypeDefinition.mapAttrs_id],
    map_eq_self fun e => by rw [ValueEntry.mapAttrs, ValueDefinition.mapAttrs_id]]

theorem ModuleSpecification.mapAttrs_id (m : ModuleSpecification τ) : m.mapAttrs id = m := by
  rw [mapAttrs, map_eq_self fun e => by rw [TypeSpecEntry.mapAttrs, TypeSpecification.mapAttrs_id],
    map_eq_self fun e => by rw [ValueSpecEntry.mapAttrs, ValueSpecification.mapAttrs_id]]

theorem PackageDefinition.mapAttrs_id (p : PackageDefinition τ ν) : p.mapAttrs id id = p := by
  rw [mapAttrs, map_eq_self fun e => by rw [ModuleEntry.mapAttrs, ModuleDefinition.mapAttrs_id]]

theorem PackageSpecification.mapAttrs_id (p : PackageSpecification τ) : p.mapAttrs id = p := by
  rw [mapAttrs,
    map_eq_self fun e => by rw [ModuleSpecEntry.mapAttrs, ModuleSpecification.mapAttrs_id]]

theorem Distribution.mapAttrs_id (d : Distribution τ ν) : d.mapAttrs id id = d := by
  have hds (ds : List (Dependency τ)) : ds.map (Dependency.mapAttrs id) = ds :=
    map_eq_self fun d => by rw [Dependency.mapAttrs, PackageSpecification.mapAttrs_id]
  cases d with
  | library p ds d => rw [mapAttrs, hds, PackageDefinition.mapAttrs_id]
  | specs p ds s => rw [mapAttrs, hds, PackageSpecification.mapAttrs_id]
  | application p ds d es => rw [mapAttrs, hds, PackageDefinition.mapAttrs_id]

end Identity

section Conditions

/-- Parts that meet both `P` and `P'` meet `Q` once attributes are replaced. -/
structure Conditions.Carried (P P' : Conditions τ ν) (Q : Conditions σ μ) (f : τ → σ)
    (g : ν → μ) : Prop where
  typeAttrs : ∀ a, P.typeAttrs a → P'.typeAttrs a → Q.typeAttrs (f a)
  valueAttrs : ∀ a, P.valueAttrs a → P'.valueAttrs a → Q.valueAttrs (g a)
  literal : ∀ l, P.literal l → P'.literal l → Q.literal l
  name : ∀ n, P.name n → P'.name n → Q.name n
  path : ∀ p, P.path p → P'.path p → Q.path p
  qualified : ∀ f, P.qualified f → P'.qualified f → Q.qualified f
  names : ∀ ns, P.names ns → P'.names ns → Q.names ns
  paths : ∀ ps, P.paths ps → P'.paths ps → Q.paths ps

variable {P P' : Conditions τ ν} {Q : Conditions σ μ} {f : τ → σ} {g : ν → μ}

theorem Conditions.Carried.keyed (c : Carried P P' Q f g) {ns : List Name} (h : P.Keyed ns)
    (h' : P'.Keyed ns) : Q.Keyed ns :=
  ⟨fun n hn => c.name n (h.each n hn) (h'.each n hn), c.names ns h.all h'.all⟩

theorem Conditions.Carried.keyedPaths (c : Carried P P' Q f g) {ps : List Path}
    (h : P.KeyedPaths ps) (h' : P'.KeyedPaths ps) : Q.KeyedPaths ps :=
  ⟨fun p hp => c.path p (h.each p hp) (h'.each p hp), c.paths ps h.all h'.all⟩

/-- The names of fields stay when what they name is replaced. -/
private theorem fst_map {α β : Type} (fs : List (Name × α)) (h : α → β) :
    (fs.map fun p => (p.1, h p.2)).map Prod.fst = fs.map Prod.fst := by
  rw [List.map_map]
  rfl

theorem TypeExpr.Satisfies.mapAttrs (c : P.Carried P' Q f g) {t : TypeExpr τ}
    (h : t.Satisfies P) (h' : t.Satisfies P') : (t.mapAttrs f).Satisfies Q := by
  induction h with
  | «variable» ha hn =>
    cases h' with
    | «variable» ha' hn' => exact .variable (c.typeAttrs _ ha ha') (c.name _ hn hn')
  | reference ha hq _ ih =>
    cases h' with
    | reference ha' hq' hts' =>
      rw [TypeExpr.mapAttrs, mapAttrsList_eq_map]
      refine .reference (c.typeAttrs _ ha ha') (c.qualified _ hq hq') ?_
      exact List.forall_mem_map.2 fun t ht => ih t ht (hts' t ht)
  | tuple ha _ ih =>
    cases h' with
    | tuple ha' hts' =>
      rw [TypeExpr.mapAttrs, mapAttrsList_eq_map]
      refine .tuple (c.typeAttrs _ ha ha') ?_
      exact List.forall_mem_map.2 fun t ht => ih t ht (hts' t ht)
  | @record a fs ha hk _ ih =>
    cases h' with
    | record ha' hk' hfs' =>
      rw [TypeExpr.mapAttrs, mapAttrsFields_eq_map]
      refine .record (c.typeAttrs _ ha ha') (fst_map fs _ ▸ c.keyed hk hk') ?_
      exact List.forall_mem_map.2 fun p hp => ih p hp (hfs' p hp)
  | @extensibleRecord a n fs ha hn hk _ ih =>
    cases h' with
    | extensibleRecord ha' hn' hk' hfs' =>
      rw [TypeExpr.mapAttrs, mapAttrsFields_eq_map]
      refine .extensibleRecord (c.typeAttrs _ ha ha') (c.name _ hn hn')
        (fst_map fs _ ▸ c.keyed hk hk') ?_
      exact List.forall_mem_map.2 fun p hp => ih p hp (hfs' p hp)
  | function ha _ _ ihx ihy =>
    cases h' with
    | function ha' hx' hy' => exact .function (c.typeAttrs _ ha ha') (ihx hx') (ihy hy')
  | unit ha =>
    cases h' with
    | unit ha' => exact .unit (c.typeAttrs _ ha ha')

theorem TypeExpr.Satisfies.map_mapAttrs (c : P.Carried P' Q f g) {t : Option (TypeExpr τ)}
    (h : ∀ t' ∈ t, t'.Satisfies P) (h' : ∀ t' ∈ t, t'.Satisfies P') :
    ∀ t' ∈ t.map (TypeExpr.mapAttrs f), t'.Satisfies Q := by
  cases t with
  | none => simp
  | some t => simpa using (h t rfl).mapAttrs c (h' t rfl)

theorem Pattern.Satisfies.mapAttrs (c : P.Carried P' Q f g) {p : Pattern ν}
    (h : p.Satisfies P) (h' : p.Satisfies P') : (p.mapAttrs g).Satisfies Q := by
  induction h with
  | wildcard ha =>
    cases h' with
    | wildcard ha' => exact .wildcard (c.valueAttrs _ ha ha')
  | as ha _ hn ih =>
    cases h' with
    | as ha' hp' hn' => exact .as (c.valueAttrs _ ha ha') (ih hp') (c.name _ hn hn')
  | tuple ha _ ih =>
    cases h' with
    | tuple ha' hps' =>
      rw [Pattern.mapAttrs, mapAttrsList_eq_map]
      refine .tuple (c.valueAttrs _ ha ha') ?_
      exact List.forall_mem_map.2 fun p hp => ih p hp (hps' p hp)
  | constructor ha hq _ ih =>
    cases h' with
    | constructor ha' hq' hps' =>
      rw [Pattern.mapAttrs, mapAttrsList_eq_map]
      refine .constructor (c.valueAttrs _ ha ha') (c.qualified _ hq hq') ?_
      exact List.forall_mem_map.2 fun p hp => ih p hp (hps' p hp)
  | emptyList ha =>
    cases h' with
    | emptyList ha' => exact .emptyList (c.valueAttrs _ ha ha')
  | headTail ha _ _ ihx ihy =>
    cases h' with
    | headTail ha' hx' hy' => exact .headTail (c.valueAttrs _ ha ha') (ihx hx') (ihy hy')
  | literal ha hl =>
    cases h' with
    | literal ha' hl' => exact .literal (c.valueAttrs _ ha ha') (c.literal _ hl hl')
  | unit ha =>
    cases h' with
    | unit ha' => exact .unit (c.valueAttrs _ ha ha')

theorem HoleReason.Satisfies.carry (c : P.Carried P' Q f g) {r : HoleReason} (h : r.Satisfies P)
    (h' : r.Satisfies P') : r.Satisfies Q :=
  fun q hq => c.qualified q (h q hq) (h' q hq)

theorem Incompleteness.Satisfies.carry (c : P.Carried P' Q f g) {i : Incompleteness}
    (h : i.Satisfies P) (h' : i.Satisfies P') : i.Satisfies Q :=
  fun r hr => (h r hr).carry c (h' r hr)

theorem ValueDefinition.Framed.mapAttrs (c : P.Carried P' Q f g) {d : ValueDefinition τ ν}
    (h : d.Framed P) (h' : d.Framed P') : (d.mapAttrs f g).Framed Q := by
  obtain ⟨is, t, b⟩ := d
  have hkeys : (is.map (Input.mapAttrs f g)).map Input.name = is.map Input.name := by
    rw [List.map_map]
    rfl
  rw [ValueDefinition.mapAttrs]
  constructor
  · exact hkeys ▸ c.keyed h.keys h'.keys
  · refine List.forall_mem_map.2 fun i hi => ⟨?_, ?_⟩
    · exact c.valueAttrs _ (h.inputs i hi).attrs (h'.inputs i hi).attrs
    · exact (h.inputs i hi).type.mapAttrs c (h'.inputs i hi).type
  · exact h.output.mapAttrs c h'.output
  · intro i hi
    cases b with
    | incomplete j =>
      cases hi
      exact (h.incomplete i rfl).carry c (h'.incomplete i rfl)
    | expression v => cases hi
    | native n => cases hi
    | external s p => cases hi

/-- A body that is an expression after its attributes are replaced was one before. -/
theorem ValueDefinition.body_mapAttrs {d : ValueDefinition τ ν} {w : Value σ μ}
    (h : (d.mapAttrs f g).body = .expression w) :
    ∃ v, d.body = .expression v ∧ w = v.mapAttrs f g := by
  obtain ⟨is, t, b⟩ := d
  cases b with
  | expression v =>
    cases h
    exact ⟨v, rfl, rfl⟩
  | native n => cases h
  | external s p => cases h
  | incomplete i => cases h

theorem Value.Satisfies.mapAttrs (c : P.Carried P' Q f g) {v : Value τ ν}
    (h : v.Satisfies P) (h' : v.Satisfies P') : (v.mapAttrs f g).Satisfies Q := by
  -- On the first derivation. The second one ends with the same rule, since both are about `v`.
  induction h with
  | literal ha hl =>
    cases h' with
    | literal ha' hl' => exact .literal (c.valueAttrs _ ha ha') (c.literal _ hl hl')
  | constructor ha hq =>
    cases h' with
    | constructor ha' hq' => exact .constructor (c.valueAttrs _ ha ha') (c.qualified _ hq hq')
  | tuple ha _ ih =>
    cases h' with
    | tuple ha' hvs' =>
      rw [Value.mapAttrs, mapAttrsList_eq_map]
      refine .tuple (c.valueAttrs _ ha ha') ?_
      exact List.forall_mem_map.2 fun v hv => ih v hv (hvs' v hv)
  | list ha _ ih =>
    cases h' with
    | list ha' hvs' =>
      rw [Value.mapAttrs, mapAttrsList_eq_map]
      refine .list (c.valueAttrs _ ha ha') ?_
      exact List.forall_mem_map.2 fun v hv => ih v hv (hvs' v hv)
  | @record a fs ha hk _ ih =>
    cases h' with
    | record ha' hk' hfs' =>
      rw [Value.mapAttrs, mapAttrsFields_eq_map]
      refine .record (c.valueAttrs _ ha ha') (fst_map fs _ ▸ c.keyed hk hk') ?_
      exact List.forall_mem_map.2 fun p hp => ih p hp (hfs' p hp)
  | «variable» ha hn =>
    cases h' with
    | «variable» ha' hn' => exact .variable (c.valueAttrs _ ha ha') (c.name _ hn hn')
  | reference ha hq =>
    cases h' with
    | reference ha' hq' => exact .reference (c.valueAttrs _ ha ha') (c.qualified _ hq hq')
  | field ha _ hn ih =>
    cases h' with
    | field ha' hv' hn' => exact .field (c.valueAttrs _ ha ha') (ih hv') (c.name _ hn hn')
  | fieldFunction ha hn =>
    cases h' with
    | fieldFunction ha' hn' => exact .fieldFunction (c.valueAttrs _ ha ha') (c.name _ hn hn')
  | apply ha _ _ ihx ihy =>
    cases h' with
    | apply ha' hx' hy' => exact .apply (c.valueAttrs _ ha ha') (ihx hx') (ihy hy')
  | lambda ha hp _ ih =>
    cases h' with
    | lambda ha' hp' hb' =>
      exact .lambda (c.valueAttrs _ ha ha') (hp.mapAttrs c hp') (ih hb')
  | letDefinition ha hn hd _ _ ihv ihb =>
    cases h' with
    | letDefinition ha' hn' hd' hv' hb' =>
      refine .letDefinition (c.valueAttrs _ ha ha') (c.name _ hn hn') (hd.mapAttrs c hd') ?_
        (ihb hb')
      intro w hw
      obtain ⟨v, hv, rfl⟩ := ValueDefinition.body_mapAttrs hw
      exact ihv v hv (hv' v hv)
  | letRecursion ha hn hd _ _ ihv ihb =>
    cases h' with
    | letRecursion ha' hn' hd' hv' hb' =>
      rw [Value.mapAttrs, ValueDefinition.mapAttrsBindings_eq_map]
      refine .letRecursion (c.valueAttrs _ ha ha') ?_ ?_ ?_ (ihb hb')
      · exact List.forall_mem_map.2 fun p hp => c.name _ (hn p hp) (hn' p hp)
      · exact List.forall_mem_map.2 fun p hp => (hd p hp).mapAttrs c (hd' p hp)
      · refine List.forall_mem_map.2 fun p hp w hw => ?_
        obtain ⟨v, hv, rfl⟩ := ValueDefinition.body_mapAttrs hw
        exact ihv p hp v hv (hv' p hp v hv)
  | destructure ha hp _ _ ihv ihb =>
    cases h' with
    | destructure ha' hp' hv' hb' =>
      exact .destructure (c.valueAttrs _ ha ha') (hp.mapAttrs c hp') (ihv hv') (ihb hb')
  | ifThenElse ha _ _ _ ihx iht ihe =>
    cases h' with
    | ifThenElse ha' hx' ht' he' =>
      exact .ifThenElse (c.valueAttrs _ ha ha') (ihx hx') (iht ht') (ihe he')
  | patternMatch ha _ hps _ ihv ihcs =>
    cases h' with
    | patternMatch ha' hv' hps' hcs' =>
      rw [Value.mapAttrs, mapAttrsCases_eq_map]
      refine .patternMatch (c.valueAttrs _ ha ha') (ihv hv') ?_ ?_
      · exact List.forall_mem_map.2 fun p hp => (hps p hp).mapAttrs c (hps' p hp)
      · exact List.forall_mem_map.2 fun p hp => ihcs p hp (hcs' p hp)
  | updateRecord ha _ hns _ ihv ihus =>
    cases h' with
    | updateRecord ha' hv' hns' hus' =>
      rw [Value.mapAttrs, mapAttrsFields_eq_map]
      refine .updateRecord (c.valueAttrs _ ha ha') (ihv hv') ?_ ?_
      · exact List.forall_mem_map.2 fun p hp => c.name _ (hns p hp) (hns' p hp)
      · exact List.forall_mem_map.2 fun p hp => ihus p hp (hus' p hp)
  | unit ha =>
    cases h' with
    | unit ha' => exact .unit (c.valueAttrs _ ha ha')
  | hole ha hr ht =>
    cases h' with
    | hole ha' hr' ht' =>
      exact .hole (c.valueAttrs _ ha ha') (hr.carry c hr')
        (TypeExpr.Satisfies.map_mapAttrs c ht ht')
  | native ha hq =>
    cases h' with
    | native ha' hq' => exact .native (c.valueAttrs _ ha ha') (c.qualified _ hq hq')
  | external ha =>
    cases h' with
    | external ha' => exact .external (c.valueAttrs _ ha ha')

theorem ValueDefinition.Satisfies.mapAttrs (c : P.Carried P' Q f g) {d : ValueDefinition τ ν}
    (h : d.Satisfies P) (h' : d.Satisfies P') : (d.mapAttrs f g).Satisfies Q := by
  refine ⟨h.framed.mapAttrs c h'.framed, fun w hw => ?_⟩
  obtain ⟨v, hv, rfl⟩ := ValueDefinition.body_mapAttrs hw
  exact (h.expression v hv).mapAttrs c (h'.expression v hv)

theorem Constructor.Satisfies.mapAttrs (c : P.Carried P' Q f g) {k : Constructor τ}
    (h : k.Satisfies P) (h' : k.Satisfies P') : (k.mapAttrs f).Satisfies Q := by
  constructor
  · exact c.name _ h.name h'.name
  · rw [Constructor.mapAttrs, TypeExpr.mapAttrsFields_eq_map]
    exact List.forall_mem_map.2 fun p hp => c.name _ (h.names p hp) (h'.names p hp)
  · rw [Constructor.mapAttrs, TypeExpr.mapAttrsFields_eq_map]
    exact List.forall_mem_map.2 fun p hp => (h.types p hp).mapAttrs c (h'.types p hp)

theorem TypeDefinition.Satisfies.mapAttrs (c : P.Carried P' Q f g) {d : TypeDefinition τ}
    (h : d.Satisfies P) (h' : d.Satisfies P') : (d.mapAttrs f).Satisfies Q := by
  cases h with
  | synonym hps ht =>
    cases h' with
    | synonym hps' ht' =>
      exact .synonym (fun p hp => c.name p (hps p hp) (hps' p hp)) (ht.mapAttrs c ht')
  | custom hps hks =>
    cases h' with
    | custom hps' hks' =>
      exact .custom (fun p hp => c.name p (hps p hp) (hps' p hp))
        (List.forall_mem_map.2 fun k hk => (hks k hk).mapAttrs c (hks' k hk))
  | incomplete hps hi ht =>
    cases h' with
    | incomplete hps' hi' ht' =>
      exact .incomplete (fun p hp => c.name p (hps p hp) (hps' p hp)) (hi.carry c hi')
        (TypeExpr.Satisfies.map_mapAttrs c ht ht')

theorem TypeSpecification.Satisfies.mapAttrs (c : P.Carried P' Q f g) {s : TypeSpecification τ}
    (h : s.Satisfies P) (h' : s.Satisfies P') : (s.mapAttrs f).Satisfies Q := by
  cases h with
  | synonym hps ht =>
    cases h' with
    | synonym hps' ht' =>
      exact .synonym (fun p hp => c.name p (hps p hp) (hps' p hp)) (ht.mapAttrs c ht')
  | abstract hps =>
    cases h' with
    | abstract hps' => exact .abstract (fun p hp => c.name p (hps p hp) (hps' p hp))
  | custom hps hks =>
    cases h' with
    | custom hps' hks' =>
      exact .custom (fun p hp => c.name p (hps p hp) (hps' p hp))
        (List.forall_mem_map.2 fun k hk => (hks k hk).mapAttrs c (hks' k hk))

theorem ValueSpecification.Satisfies.mapAttrs (c : P.Carried P' Q f g)
    {s : ValueSpecification τ} (h : s.Satisfies P) (h' : s.Satisfies P') :
    (s.mapAttrs f).Satisfies Q := by
  constructor
  · rw [ValueSpecification.mapAttrs, TypeExpr.mapAttrsFields_eq_map]
    exact fst_map s.inputs _ ▸ c.keyed h.keys h'.keys
  · rw [ValueSpecification.mapAttrs, TypeExpr.mapAttrsFields_eq_map]
    exact List.forall_mem_map.2 fun p hp => (h.inputs p hp).mapAttrs c (h'.inputs p hp)
  · exact h.output.mapAttrs c h'.output

/-- The names of entries stay when what they name is replaced. -/
private theorem name_map {α β ι : Type} (xs : List α) (h : α → β) (name : α → ι)
    (name' : β → ι) (hn : ∀ x, name' (h x) = name x) :
    (xs.map h).map name' = xs.map name := by
  rw [List.map_map]
  exact List.map_congr_left fun x _ => hn x

theorem ModuleDefinition.Satisfies.mapAttrs (c : P.Carried P' Q f g) {m : ModuleDefinition τ ν}
    (h : m.Satisfies P) (h' : m.Satisfies P') : (m.mapAttrs f g).Satisfies Q := by
  have htypes := name_map m.types (TypeEntry.mapAttrs f) TypeEntry.name TypeEntry.name fun _ => rfl
  have hvalues := name_map m.values (ValueEntry.mapAttrs f g)
    ValueEntry.name ValueEntry.name fun _ => rfl
  constructor
  · exact htypes ▸ c.keyed h.typeKeys h'.typeKeys
  · exact List.forall_mem_map.2 fun e he => (h.types e he).mapAttrs c (h'.types e he)
  · exact hvalues ▸ c.keyed h.valueKeys h'.valueKeys
  · exact List.forall_mem_map.2 fun e he => (h.values e he).mapAttrs c (h'.values e he)

theorem ModuleSpecification.Satisfies.mapAttrs (c : P.Carried P' Q f g)
    {m : ModuleSpecification τ} (h : m.Satisfies P) (h' : m.Satisfies P') :
    (m.mapAttrs f).Satisfies Q := by
  have htypes := name_map m.types (TypeSpecEntry.mapAttrs f)
    TypeSpecEntry.name TypeSpecEntry.name fun _ => rfl
  have hvalues := name_map m.values (ValueSpecEntry.mapAttrs f)
    ValueSpecEntry.name ValueSpecEntry.name fun _ => rfl
  constructor
  · exact htypes ▸ c.keyed h.typeKeys h'.typeKeys
  · exact List.forall_mem_map.2 fun e he => (h.types e he).mapAttrs c (h'.types e he)
  · exact hvalues ▸ c.keyed h.valueKeys h'.valueKeys
  · exact List.forall_mem_map.2 fun e he => (h.values e he).mapAttrs c (h'.values e he)

theorem PackageDefinition.Satisfies.mapAttrs (c : P.Carried P' Q f g)
    {p : PackageDefinition τ ν} (h : p.Satisfies P) (h' : p.Satisfies P') :
    (p.mapAttrs f g).Satisfies Q := by
  have hkeys := name_map p.modules (ModuleEntry.mapAttrs f g)
    ModuleEntry.name ModuleEntry.name fun _ => rfl
  constructor
  · exact hkeys ▸ c.keyedPaths h.keys h'.keys
  · exact List.forall_mem_map.2 fun e he => (h.modules e he).mapAttrs c (h'.modules e he)

theorem PackageSpecification.Satisfies.mapAttrs (c : P.Carried P' Q f g)
    {p : PackageSpecification τ} (h : p.Satisfies P) (h' : p.Satisfies P') :
    (p.mapAttrs f).Satisfies Q := by
  have hkeys := name_map p.modules (ModuleSpecEntry.mapAttrs f)
    ModuleSpecEntry.name ModuleSpecEntry.name fun _ => rfl
  constructor
  · exact hkeys ▸ c.keyedPaths h.keys h'.keys
  · exact List.forall_mem_map.2 fun e he => (h.modules e he).mapAttrs c (h'.modules e he)

theorem Dependency.AllSatisfy.mapAttrs (c : P.Carried P' Q f g) {ds : List (Dependency τ)}
    (h : AllSatisfy P ds) (h' : AllSatisfy P' ds) : AllSatisfy Q (ds.map (mapAttrs f)) := by
  have hkeys := name_map ds (Dependency.mapAttrs f) Dependency.name Dependency.name fun _ => rfl
  constructor
  · exact hkeys ▸ c.keyedPaths h.keys h'.keys
  · exact List.forall_mem_map.2 fun d hd =>
      (h.specifications d hd).mapAttrs c (h'.specifications d hd)

theorem EntryPoint.AllSatisfy.carry (c : P.Carried P' Q f g) {es : List EntryPoint}
    (h : AllSatisfy P es) (h' : AllSatisfy P' es) : AllSatisfy Q es :=
  ⟨c.keyed h.keys h'.keys, fun e he => c.qualified _ (h.targets e he) (h'.targets e he)⟩

/-- Replacing attributes carries conditions from all parts of a distribution to all parts of the
result. -/
theorem Distribution.Satisfies.mapAttrs (c : P.Carried P' Q f g) {d : Distribution τ ν}
    (h : d.Satisfies P) (h' : d.Satisfies P') : (d.mapAttrs f g).Satisfies Q := by
  cases h with
  | library hp hds hd =>
    cases h' with
    | library hp' hds' hd' =>
      exact .library (c.path _ hp hp') (hds.mapAttrs c hds') (hd.mapAttrs c hd')
  | specs hp hds hs =>
    cases h' with
    | specs hp' hds' hs' =>
      exact .specs (c.path _ hp hp') (hds.mapAttrs c hds') (hs.mapAttrs c hs')
  | application hp hds hd hes =>
    cases h' with
    | application hp' hds' hd' hes' =>
      exact .application (c.path _ hp hp') (hds.mapAttrs c hds') (hd.mapAttrs c hd')
        (hes.carry c hes')

/-- A distribution meets what follows from two conditions that it meets. -/
theorem Distribution.Satisfies.both {Q : Conditions τ ν} (c : P.Carried P' Q id id)
    {d : Distribution τ ν} (h : d.Satisfies P) (h' : d.Satisfies P') : d.Satisfies Q :=
  d.mapAttrs_id ▸ h.mapAttrs c h'

end Conditions

end IrDialects
