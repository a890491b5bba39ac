import IrDialects.Proofs.Traverse.Rebuilding
import IrDialects.Proofs.Tree.Labels

/-!
# Replacing attributes is functorial

The editor that replaces attributes never fails. It gives a tree back as it is if it replaces every
attribute by itself, two of them one after the other do what the one with both replacements does, and
each of its two mappers reaches the attributes of its own kind and no others.
-/

namespace IrDialects

variable {τ ν τ' ν' τ'' ν'' σ ε : Type}

namespace Root

/-- The attributes of a tree in order, those of types on the left and those of values, patterns and
declared arguments on the right. -/
def labels : Root τ ν → List (τ ⊕ ν)
  | .document d => d.distribution.labels
  | .type t => t.labels.map .inl
  | .value v => v.labels

theorem mapAttrs_id : ∀ r : Root τ ν, r.mapAttrs id id = r
  | .document d => by rw [mapAttrs, Document.mapAttrs, d.distribution.mapAttrs_id]
  | .type t => by rw [mapAttrs, t.mapAttrs_id]
  | .value v => by rw [mapAttrs, v.mapAttrs_id]

variable (f : τ → τ') (g : ν → ν')

theorem mapAttrs_mapAttrs (f₂ : τ' → τ'') (g₂ : ν' → ν'') : ∀ r : Root τ ν,
    (r.mapAttrs f g).mapAttrs f₂ g₂ = r.mapAttrs (f₂ ∘ f) (g₂ ∘ g)
  | .document d => by rw [mapAttrs, mapAttrs, mapAttrs, Document.mapAttrs_mapAttrs]
  | .type t => by rw [mapAttrs, mapAttrs, mapAttrs, TypeExpr.mapAttrs_mapAttrs]
  | .value v => by rw [mapAttrs, mapAttrs, mapAttrs, Value.mapAttrs_mapAttrs]

theorem labels_mapAttrs : ∀ r : Root τ ν, (r.mapAttrs f g).labels = r.labels.map (Sum.map f g)
  | .document d => d.distribution.labels_mapAttrs f g
  | .type t => by rw [mapAttrs, labels, labels, TypeExpr.labels_mapAttrs, map_inl_map]
  | .value v => v.labels_mapAttrs f g

variable {f g} {f' : τ → τ'} {g' : ν → ν'}

theorem mapAttrs_congr : ∀ {r : Root τ ν}, (∀ x ∈ r.labels, x.map f g = x.map f' g') →
    r.mapAttrs f g = r.mapAttrs f' g'
  | .document d, h => by
    rw [mapAttrs, mapAttrs, Document.mapAttrs, Document.mapAttrs, Distribution.mapAttrs_congr h]
  | .type t, h => by rw [mapAttrs, mapAttrs, TypeExpr.mapAttrs_congr (agree_inl.1 h)]
  | .value v, h => by rw [mapAttrs, mapAttrs, Value.mapAttrs_congr h]

end Root

namespace Editor

theorem runFrom_replacing (f : τ → τ') (g : ν → ν') (r : Root τ ν) (s : σ) :
    ((replacing f g : Editor _ _ _ _ σ ε).root r).runFrom s = (.ok (r.mapAttrs f g), {}, s) := by
  rw [((rebuilds_replacing f g).asks.root r).eq_pure]
  rfl

/-- Replacing attributes never fails, whatever is walked. With mappers that change nothing the result
is the tree itself. Otherwise it is a tree whose attributes are those of the first one, each replaced
by the mapper of its kind; replacing them again comes to the same as replacing them once by both
mappers, and mappers that agree on the attributes of their own kind give the same tree. -/
theorem replacing_is_functorial (r : Root τ ν) (f : τ → τ') (g : ν → ν') (s : σ) :
    ((replacing id id : Editor τ ν τ ν σ ε).root r).runFrom s = (.ok r, {}, s) ∧
    ∃ r' : Root τ' ν',
      ((replacing f g : Editor _ _ _ _ σ ε).root r).runFrom s = (.ok r', {}, s) ∧
      r'.labels = r.labels.map (Sum.map f g) ∧
      (∀ {τ'' ν'' : Type} (f₂ : τ' → τ'') (g₂ : ν' → ν''),
        ((replacing f₂ g₂ : Editor _ _ _ _ σ ε).root r').runFrom s =
          ((replacing (f₂ ∘ f) (g₂ ∘ g) : Editor _ _ _ _ σ ε).root r).runFrom s) ∧
      ∀ (f' : τ → τ') (g' : ν → ν'), (∀ x ∈ r.labels, x.map f g = x.map f' g') →
        ((replacing f' g' : Editor _ _ _ _ σ ε).root r).runFrom s = (.ok r', {}, s) := by
  refine ⟨?_, r.mapAttrs f g, runFrom_replacing f g r s, r.labels_mapAttrs f g, fun f₂ g₂ => ?_,
    fun f' g' hagree => ?_⟩
  · rw [runFrom_replacing, r.mapAttrs_id]
  · rw [runFrom_replacing, runFrom_replacing, r.mapAttrs_mapAttrs]
  · rw [runFrom_replacing, Root.mapAttrs_congr hagree]

end Editor

end IrDialects
