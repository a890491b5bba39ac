import IrDialects.Proofs.Traverse.Route
import IrDialects.Traverse.Editor
import IrDialects.Traverse.Recorder

/-!
# Editors that only replace attributes

An editor that builds every node again asks about the types, patterns and values of a tree in the
order in which a visitor visits them and at the same positions, and what it builds is the tree with its
attributes replaced. If it also never fails and keeps its state, its walk is the walk that returns that
tree.
-/

namespace IrDialects

namespace Editor

open Walk (within tours_pure)

variable {τ ν τ' ν' σ ε : Type}

/-- The editor does `act` at types, patterns and values and builds them again, and `act` does nothing
elsewhere. -/
structure Asks (r : Editor τ ν τ' ν' σ ε) (act : Sighting τ ν → ExceptT ε (StateM σ) Unit) :
    Prop where
  onType : ∀ {t c s a s'}, (act ⟨c.path, .type t⟩).run s = (a, s') →
    r.onType t c s = (a.map fun _ => .rebuild, s')
  onPattern : ∀ {p c s a s'}, (act ⟨c.path, .pattern p⟩).run s = (a, s') →
    r.onPattern p c s = (a.map fun _ => .rebuild, s')
  onValue : ∀ {v c s a s'}, (act ⟨c.path, .value v⟩).run s = (a, s') →
    r.onValue v c s = (a.map fun _ => .rebuild, s')
  skips : ∀ {m}, m.node.isNode = false → act m = pure ()

namespace Asks

variable {r : Editor τ ν τ' ν' σ ε} {act : Sighting τ ν → ExceptT ε (StateM σ) Unit}

theorem meetType (h : r.Asks act) {t : TypeExpr τ} {t' : TypeExpr τ'}
    {rebuild : Unit → Walk σ ε (TypeExpr τ')}
    (hparts : (rebuild ()).Tours act (fun _ => true) t.parts t') :
    (r.meetType t rebuild).Meets act (fun _ => true) (.type t) t' :=
  Walk.meets_ask (a := fun _ => Edit.rebuild) h.onType (fun hd => Bool.noConfusion hd) fun _ => hparts

theorem meetPattern (h : r.Asks act) {p : Pattern ν} {p' : Pattern ν'}
    {rebuild collapse : Unit → Walk σ ε (Pattern ν')}
    (hparts : (rebuild ()).Tours act (fun _ => true) p.parts p') :
    (r.meetPattern p rebuild collapse).Meets act (fun _ => true) (.pattern p) p' :=
  Walk.meets_ask (a := fun _ => Edit.rebuild) h.onPattern (fun hd => Bool.noConfusion hd) fun _ => hparts

theorem meetValue (h : r.Asks act) {v : Value τ ν} {v' : Value τ' ν'}
    {rebuild collapse : Unit → Walk σ ε (Value τ' ν')}
    (hparts : (rebuild ()).Tours act (fun _ => true) v.parts v') :
    (r.meetValue v rebuild collapse).Meets act (fun _ => true) (.value v) v' :=
  Walk.meets_ask (a := fun _ => Edit.rebuild) h.onValue (fun hd => Bool.noConfusion hd) fun _ => hparts

/-- Where nothing is asked, the parts are gone through at once. -/
theorem skip (h : r.Asks act) {α : Type} {n : Visit τ ν} {w : Walk σ ε α} {x : α} (hn : n.isNode = false)
    (hparts : w.Tours act (fun _ => true) n.parts x) : w.Meets act (fun _ => true) n x := by
  refine ⟨fun {c s a s'} hr => hparts.run ?_⟩
  rwa [Visit.preorder_eq, List.forM_cons, h.skips hn, if_pos rfl, pure_bind] at hr

mutual

theorem type (h : r.Asks act) : ∀ t : TypeExpr τ,
    (r.type t).Meets act (fun _ => true) (.type t) (t.mapAttrs r.typeAttrs)
  | .variable _ _ | .unit _ => h.meetType (tours_pure _)
  | .reference _ _ ts => h.meetType (((h.types 0 ts).indexed "args").map _)
  | .tuple _ ts => h.meetType (((h.types 0 ts).indexed "elements").map _)
  | .record _ fs | .extensibleRecord _ _ fs => h.meetType (((h.typeFields fs).named "fields").map _)
  | .function _ x y =>
    h.meetType (((h.type x).tours "arg").bind (((h.type y).tours "result").map _))

theorem types (h : r.Asks act) : ∀ (i : Nat) (ts : List (TypeExpr τ)),
    (r.types i ts).Tours act (fun _ => true)
      ((ts.zipIdx i).map fun t => ⟨[toString t.2], .type t.1⟩) (TypeExpr.mapAttrsList r.typeAttrs ts)
  | _, [] => tours_pure _
  | i, t :: ts => ((h.type t).tours (toString i)).bind ((h.types (i + 1) ts).map _)

theorem typeFields (h : r.Asks act) : ∀ fs : List (Name × TypeExpr τ),
    (r.typeFields fs).Tours act (fun _ => true) (fs.map fun f => ⟨[f.1.kebab], .type f.2⟩)
      (TypeExpr.mapAttrsFields r.typeAttrs fs)
  | [] => tours_pure _
  | (n, t) :: fs => ((h.type t).tours n.kebab).bind ((h.typeFields fs).map _)

end

theorem type? (h : r.Asks act) (segment : String) : ∀ t : Option (TypeExpr τ),
    (within segment (r.type? t)).Tours act (fun _ => true)
      (t.toList.map fun t => ⟨[segment], .type t⟩) (t.map (TypeExpr.mapAttrs r.typeAttrs))
  | none => (tours_pure _).within segment
  | some t => Walk.Meets.tours (Walk.Follows.map (h.type t) some) segment

mutual

theorem pattern (h : r.Asks act) : ∀ p : Pattern ν,
    (r.pattern p).Meets act (fun _ => true) (.pattern p) (p.mapAttrs r.valueAttrs)
  | .wildcard _ | .emptyList _ | .literal _ _ | .unit _ => h.meetPattern (tours_pure _)
  | .as _ p _ => h.meetPattern (((h.pattern p).tours "pattern").map _)
  | .tuple _ ps => h.meetPattern (((h.patterns 0 ps).indexed "elements").map _)
  | .constructor _ _ ps => h.meetPattern (((h.patterns 0 ps).indexed "args").map _)
  | .headTail _ x y =>
    h.meetPattern (((h.pattern x).tours "head").bind (((h.pattern y).tours "tail").map _))

theorem patterns (h : r.Asks act) : ∀ (i : Nat) (ps : List (Pattern ν)),
    (r.patterns i ps).Tours act (fun _ => true)
      ((ps.zipIdx i).map fun p => ⟨[toString p.2], .pattern p.1⟩) (Pattern.mapAttrsList r.valueAttrs ps)
  | _, [] => tours_pure _
  | i, p :: ps => ((h.pattern p).tours (toString i)).bind ((h.patterns (i + 1) ps).map _)

end

theorem inputs (h : r.Asks act) : ∀ is : List (Input τ ν),
    (r.inputs is).Tours act (fun _ => true) (is.map fun i => ⟨[i.name.kebab], .type i.type⟩)
      (is.map (Input.mapAttrs r.typeAttrs r.valueAttrs))
  | [] => tours_pure _
  | i :: is => ((h.type i.type).tours i.name.kebab).bind ((h.inputs is).map _)

mutual

theorem value (h : r.Asks act) : ∀ v : Value τ ν,
    (r.value v).Meets act (fun _ => true) (.value v) (v.mapAttrs r.typeAttrs r.valueAttrs)
  | .literal _ _ | .constructor _ _ | .variable _ _ | .reference _ _ | .fieldFunction _ _
  | .unit _ | .native _ _ _ | .external _ _ _ => h.meetValue (tours_pure _)
  | .tuple _ vs => h.meetValue (((h.values 0 vs).indexed "elements").map _)
  | .list _ vs => h.meetValue (((h.values 0 vs).indexed "items").map _)
  | .record _ fs => h.meetValue (((h.valueFields fs).named "fields").map _)
  | .field _ v _ => h.meetValue (((h.value v).tours "value").map _)
  | .apply _ f x =>
    h.meetValue (((h.value f).tours "function").bind (((h.value x).tours "argument").map _))
  | .lambda _ p b =>
    h.meetValue (((h.pattern p).tours "pattern").bind (((h.value b).tours "body").map _))
  | .letDefinition _ _ d b =>
    h.meetValue (((h.definition d).tours "definition").bind (((h.value b).tours "body").map _))
  | .letRecursion _ ds b =>
    h.meetValue (((h.bindings ds).named "bindings").bind (((h.value b).tours "body").map _))
  | .destructure _ p v b =>
    h.meetValue (((h.pattern p).tours "pattern").bind
      (((h.value v).tours "value").bind (((h.value b).tours "body").map _)))
  | .ifThenElse _ c t e =>
    h.meetValue (((h.value c).tours "condition").bind
      (((h.value t).tours "then-branch").bind (((h.value e).tours "else-branch").map _)))
  | .patternMatch _ v cs =>
    h.meetValue (((h.value v).tours "subject").bind (((h.cases 0 cs).within "cases").map _))
  | .updateRecord _ v us =>
    h.meetValue (((h.value v).tours "record").bind (((h.valueFields us).named "updates").map _))
  | .hole _ _ t => h.meetValue ((h.type? "tpe" t).map _)

theorem values (h : r.Asks act) : ∀ (i : Nat) (vs : List (Value τ ν)),
    (r.values i vs).Tours act (fun _ => true)
      ((vs.zipIdx i).map fun v => ⟨[toString v.2], .value v.1⟩)
      (Value.mapAttrsList r.typeAttrs r.valueAttrs vs)
  | _, [] => tours_pure _
  | i, v :: vs => ((h.value v).tours (toString i)).bind ((h.values (i + 1) vs).map _)

theorem valueFields (h : r.Asks act) : ∀ fs : List (Name × Value τ ν),
    (r.valueFields fs).Tours act (fun _ => true) (fs.map fun f => ⟨[f.1.kebab], .value f.2⟩)
      (Value.mapAttrsFields r.typeAttrs r.valueAttrs fs)
  | [] => tours_pure _
  | (n, v) :: fs => ((h.value v).tours n.kebab).bind ((h.valueFields fs).map _)

theorem cases (h : r.Asks act) : ∀ (i : Nat) (cs : List (Pattern ν × Value τ ν)),
    (r.cases i cs).Tours act (fun _ => true) ((cs.zipIdx i).flatMap Value.caseParts)
      (Value.mapAttrsCases r.typeAttrs r.valueAttrs cs)
  | _, [] => tours_pure _
  | i, (p, v) :: cs =>
    have hcase : (do
          let p' ← within "0" (r.pattern p)
          return (p', ← within "1" (r.value v))).Tours act (fun _ => true)
        [⟨["0"], .pattern p⟩, ⟨["1"], .value v⟩]
        (p.mapAttrs r.valueAttrs, v.mapAttrs r.typeAttrs r.valueAttrs) :=
      ((h.pattern p).tours "0").bind (((h.value v).tours "1").map _)
    (hcase.within (toString i)).bind ((h.cases (i + 1) cs).map _)

theorem bindings (h : r.Asks act) : ∀ ds : List (Name × ValueDefinition τ ν),
    (r.bindings ds).Tours act (fun _ => true)
      (ds.map fun d => ⟨[d.1.kebab], .valueDefinition d.1 d.2⟩)
      (ValueDefinition.mapAttrsBindings r.typeAttrs r.valueAttrs ds)
  | [] => tours_pure _
  | (n, d) :: ds => ((h.definition d).tours n.kebab).bind ((h.bindings ds).map _)

theorem definition (h : r.Asks act) {n : Name} : ∀ d : ValueDefinition τ ν,
    (r.definition d).Meets act (fun _ => true) (.valueDefinition n d)
      (d.mapAttrs r.typeAttrs r.valueAttrs)
  | .mk is t b =>
    h.skip rfl (((h.inputs is).named "input-types").bind
      (((h.type t).tours "output-type").bind ((h.body b).map _)))

theorem body (h : r.Asks act) : ∀ b : ValueBody τ ν,
    (within "body" (r.body b)).Tours act (fun _ => true) b.parts
      (b.mapAttrs r.typeAttrs r.valueAttrs)
  | .expression v => Walk.Meets.tours (Walk.Follows.map (h.value v) _) "body"
  | .native _ | .external _ _ | .incomplete _ => (tours_pure _).within "body"

end

section Entries

variable {γ δ : Type} {name : γ → String} {edit : γ → Walk σ ε δ} {f : γ → δ}

theorem named {parts : γ → List (Sighting τ ν)}
    (h : ∀ x, (edit x).Tours act (fun _ => true) (parts x) (f x)) : ∀ xs : List γ,
    (Editor.named name edit xs).Tours act (fun _ => true)
      (xs.flatMap fun x => (parts x).map (·.under [name x])) (xs.map f)
  | [] => tours_pure _
  | x :: xs => ((h x).within (name x)).bind ((named h xs).map _)

theorem entries {node : γ → Visit τ ν} (h : ∀ x, (edit x).Meets act (fun _ => true) (node x) (f x)) :
    ∀ xs : List γ, (Editor.named name edit xs).Tours act (fun _ => true)
      (xs.map fun x => ⟨[name x], node x⟩) (xs.map f)
  | [] => tours_pure _
  | x :: xs => ((h x).tours (name x)).bind ((entries h xs).map _)

end Entries

theorem constructors (h : r.Asks act) (cs : List (Constructor τ)) :
    (r.constructors cs).Tours act (fun _ => true)
      ((cs.flatMap Constructor.parts).map (·.under ["constructors"]))
      (cs.map (Constructor.mapAttrs r.typeAttrs)) :=
  have hargs (c : Constructor τ) :
      (do return ⟨c.name, ← within "args" (r.typeFields c.arguments)⟩ :
        Walk σ ε (Constructor τ')).Tours act (fun _ => true)
      (Sighting.named "args" (·.1.kebab) (.type ·.2) c.arguments) (c.mapAttrs r.typeAttrs) :=
    ((h.typeFields c.arguments).named "args").map _
  (named hargs cs).within "constructors"

theorem typeDefinition (h : r.Asks act) {n : Name} : ∀ d : TypeDefinition τ,
    (r.typeDefinition d).Meets act (fun _ => true) (.typeDefinition n d) (d.mapAttrs r.typeAttrs)
  | .synonym _ t => h.skip rfl (((h.type t).tours "type-exp").map _)
  | .custom _ _ cs => h.skip rfl ((h.constructors cs).map _)
  | .incomplete _ _ t => h.skip rfl ((h.type? "partial" t).map _)

theorem typeSpecification (h : r.Asks act) {n : Name} : ∀ s : TypeSpecification τ,
    (r.typeSpecification s).Meets act (fun _ => true) (.typeSpecification n s)
      (s.mapAttrs r.typeAttrs)
  | .synonym _ t => h.skip rfl (((h.type t).tours "type-exp").map _)
  | .abstract _ => h.skip rfl (tours_pure _)
  | .custom _ cs => h.skip rfl ((h.constructors cs).map _)

theorem valueSpecification (h : r.Asks act) {n : Name} (s : ValueSpecification τ) :
    (r.valueSpecification s).Meets act (fun _ => true) (.valueSpecification n s)
      (s.mapAttrs r.typeAttrs) :=
  h.skip rfl (((h.typeFields s.inputs).named "inputs").bind (((h.type s.output).tours "output").map _))

theorem moduleDefinition (h : r.Asks act) {n : Path} (m : ModuleDefinition τ ν) :
    (r.moduleDefinition m).Meets act (fun _ => true) (.moduleDefinition n m)
      (m.mapAttrs r.typeAttrs r.valueAttrs) :=
  have htype (e : TypeEntry τ) : (do
      return ⟨e.name, e.access, e.doc, ← r.typeDefinition e.definition⟩ :
        Walk σ ε (TypeEntry τ')).Meets act (fun _ => true) (.typeDefinition e.name e.definition)
          (e.mapAttrs r.typeAttrs) :=
    Walk.Follows.map (h.typeDefinition e.definition) _
  have hvalue (e : ValueEntry τ ν) : (do
      return ⟨e.name, e.access, e.doc, ← r.definition e.definition⟩ :
        Walk σ ε (ValueEntry τ' ν')).Meets act (fun _ => true) (.valueDefinition e.name e.definition)
          (e.mapAttrs r.typeAttrs r.valueAttrs) :=
    Walk.Follows.map (h.definition e.definition) _
  h.skip rfl (((entries htype m.types).named "types").bind
    (((entries hvalue m.values).named "values").map _))

theorem moduleSpecification (h : r.Asks act) {n : Path} (m : ModuleSpecification τ) :
    (r.moduleSpecification m).Meets act (fun _ => true) (.moduleSpecification n m)
      (m.mapAttrs r.typeAttrs) :=
  have htype (e : TypeSpecEntry τ) : (do
      return ⟨e.name, e.doc, ← r.typeSpecification e.specification⟩ :
        Walk σ ε (TypeSpecEntry τ')).Meets act (fun _ => true)
          (.typeSpecification e.name e.specification) (e.mapAttrs r.typeAttrs) :=
    Walk.Follows.map (h.typeSpecification e.specification) _
  have hvalue (e : ValueSpecEntry τ) : (do
      return ⟨e.name, e.doc, ← r.valueSpecification e.specification⟩ :
        Walk σ ε (ValueSpecEntry τ')).Meets act (fun _ => true)
          (.valueSpecification e.name e.specification) (e.mapAttrs r.typeAttrs) :=
    Walk.Follows.map (h.valueSpecification e.specification) _
  h.skip rfl (((entries htype m.types).named "types").bind
    (((entries hvalue m.values).named "values").map _))

theorem package (h : r.Asks act) (p : PackageDefinition τ ν) :
    (r.package p).Tours act (fun _ => true) p.parts (p.mapAttrs r.typeAttrs r.valueAttrs) :=
  have hmodule (e : ModuleEntry τ ν) : (do
      return ⟨e.name, e.access, ← r.moduleDefinition e.definition⟩ :
        Walk σ ε (ModuleEntry τ' ν')).Meets act (fun _ => true)
          (.moduleDefinition e.name e.definition) (e.mapAttrs r.typeAttrs r.valueAttrs) :=
    Walk.Follows.map (h.moduleDefinition e.definition) _
  ((entries hmodule p.modules).named "modules").map _

theorem packageSpecification (h : r.Asks act) (p : PackageSpecification τ) :
    (r.packageSpecification p).Tours act (fun _ => true) p.parts (p.mapAttrs r.typeAttrs) :=
  have hmodule (e : ModuleSpecEntry τ) : (do
      return ⟨e.name, ← r.moduleSpecification e.specification⟩ :
        Walk σ ε (ModuleSpecEntry τ')).Meets act (fun _ => true)
          (.moduleSpecification e.name e.specification) (e.mapAttrs r.typeAttrs) :=
    Walk.Follows.map (h.moduleSpecification e.specification) _
  ((entries hmodule p.modules).named "modules").map _

theorem dependencies (h : r.Asks act) (ds : List (Dependency τ)) :
    (r.dependencies ds).Tours act (fun _ => true)
      ((ds.flatMap Dependency.parts).map (·.under ["dependencies"]))
      (ds.map (Dependency.mapAttrs r.typeAttrs)) :=
  have hdependency (d : Dependency τ) : (do
      return ⟨d.name, ← r.packageSpecification d.specification⟩ :
        Walk σ ε (Dependency τ')).Tours act (fun _ => true) d.specification.parts
          (d.mapAttrs r.typeAttrs) :=
    (h.packageSpecification d.specification).map _
  (named hdependency ds).within "dependencies"

theorem distribution (h : r.Asks act) : ∀ d : Distribution τ ν,
    (r.distribution d).Tours act (fun _ => true) d.parts (d.mapAttrs r.typeAttrs r.valueAttrs)
  | .library _ ds d => (h.dependencies ds).bind (((h.package d).within "def").map _)
  | .specs _ ds s => (h.dependencies ds).bind (((h.packageSpecification s).within "spec").map _)
  | .application _ ds d _ => (h.dependencies ds).bind (((h.package d).within "def").map _)

theorem document (h : r.Asks act) (d : Document τ ν) :
    (r.document d).Tours act (fun _ => true) (Root.document d).parts
      (d.mapAttrs r.typeAttrs r.valueAttrs) :=
  ((h.distribution d.distribution).within "distribution").map _

end Asks

/-- The editor builds every node again. -/
structure Rebuilds (r : Editor τ ν τ' ν' σ ε) : Prop where
  onType : ∀ t c s, r.onType t c s = (.ok .rebuild, s)
  onPattern : ∀ p c s, r.onPattern p c s = (.ok .rebuild, s)
  onValue : ∀ v c s, r.onValue v c s = (.ok .rebuild, s)

/-- The editor that replaces attributes and has no opinion on nodes. -/
def replacing (f : τ → τ') (g : ν → ν') : Editor τ ν τ' ν' σ ε :=
  ⟨f, g, fun _ _ s => (.ok .rebuild, s), fun _ _ s => (.ok .rebuild, s),
    fun _ _ s => (.ok .rebuild, s)⟩

theorem rebuilds_replacing (f : τ → τ') (g : ν → ν') :
    (replacing f g : Editor τ ν τ' ν' σ ε).Rebuilds :=
  ⟨fun _ _ _ => rfl, fun _ _ _ => rfl, fun _ _ _ => rfl⟩

/-- Edits all that there is. -/
def root (r : Editor τ ν τ' ν' σ ε) : Root τ ν → Walk σ ε (Root τ' ν')
  | .document d => do return .document (← r.document d)
  | .type t => do return .type (← r.type t)
  | .value v => do return .value (← r.value v)

/-- An editor that builds every node again asks at the nodes in order and replaces the attributes. -/
theorem Asks.root {r : Editor τ ν τ' ν' σ ε} {act : Sighting τ ν → ExceptT ε (StateM σ) Unit}
    (h : r.Asks act) : ∀ x : Root τ ν, (r.root x).Tours act (fun _ => true) x.parts
      (x.mapAttrs r.typeAttrs r.valueAttrs)
  | .document d => (h.document d).map _
  | .type t => (h.type t).alone.map _
  | .value v => (h.value v).alone.map _

namespace Rebuilds

variable {r : Editor τ ν τ' ν' σ ε}

theorem asks (h : r.Rebuilds) : r.Asks fun _ => pure () where
  onType := by
    rintro t c s a s' ⟨⟩
    exact h.onType t c s
  onPattern := by
    rintro p c s a s' ⟨⟩
    exact h.onPattern p c s
  onValue := by
    rintro v c s a s' ⟨⟩
    exact h.onValue v c s
  skips _ := rfl

/-- Such an editor gives every document back with its attributes replaced. -/
theorem document (h : r.Rebuilds) (d : Document τ ν) :
    r.document d = pure (d.mapAttrs r.typeAttrs r.valueAttrs) :=
  (h.asks.document d).eq_pure

/-- Such an editor gives every value back with its attributes replaced. -/
theorem value (h : r.Rebuilds) (v : Value τ ν) :
    r.value v = pure (v.mapAttrs r.typeAttrs r.valueAttrs) :=
  (h.asks.value v).eq_pure

end Rebuilds

end Editor

end IrDialects
