import IrDialects.Proofs.Traverse.Route
import IrDialects.Traverse.Observer

/-!
# What a visitor visits

A visitor that does something at a node and then goes on to the parts or leaves them out does it at the
nodes of the tree in order, without those that are left out. A visitor made of callbacks that never
fail calls them for all nodes.
-/

namespace IrDialects

namespace Visitor

open Walk (tours_pure)

variable {τ ν σ ε : Type}

/-- The visitor does `act` at a node and then goes on to its parts if `descends` says so. -/
def Does (v : Visitor τ ν σ ε) (act : Sighting τ ν → ExceptT ε (StateM σ) Unit)
    (descends : Sighting τ ν → Bool) : Prop :=
  ∀ {n c s r s'}, (act ⟨c.path, n⟩).run s = (r, s') →
    v.visit n c s = (r.map fun _ => descends ⟨c.path, n⟩, s')

namespace Does

variable {v : Visitor τ ν σ ε} {act : Sighting τ ν → ExceptT ε (StateM σ) Unit}
  {descends : Sighting τ ν → Bool}

theorem meet (h : v.Does act descends) {n : Visit τ ν} {parts : Walk σ ε Unit}
    (hparts : parts.Tours act descends n.parts ()) :
    (v.meet n parts).Meets act descends n () := by
  refine Walk.meets_ask (a := fun c => descends ⟨c.path, n⟩) h (fun {c s} hd => ?_) fun {c} hd => ?_
  · rw [hd]
    rfl
  · rw [hd]
    exact hparts

mutual

theorem typeParts (h : v.Does act descends) : ∀ t : TypeExpr τ,
    (v.typeParts t).Tours act descends t.parts ()
  | .variable .. | .unit _ => tours_pure ()
  | .reference _ _ ts | .tuple _ ts => (h.types 0 ts).indexed _
  | .record _ fs | .extensibleRecord _ _ fs => (h.typeFields fs).named _
  | .function _ x y =>
    ((h.meet (h.typeParts x)).tours "arg").bind ((h.meet (h.typeParts y)).tours "result")

theorem types (h : v.Does act descends) : ∀ (i : Nat) (ts : List (TypeExpr τ)),
    (v.types i ts).Tours act descends ((ts.zipIdx i).map fun t => ⟨[toString t.2], .type t.1⟩) ()
  | _, [] => tours_pure ()
  | i, t :: ts => ((h.meet (h.typeParts t)).tours (toString i)).bind (h.types (i + 1) ts)

theorem typeFields (h : v.Does act descends) : ∀ fs : List (Name × TypeExpr τ),
    (v.typeFields fs).Tours act descends (fs.map fun f => ⟨[f.1.kebab], .type f.2⟩) ()
  | [] => tours_pure ()
  | (n, t) :: fs => ((h.meet (h.typeParts t)).tours n.kebab).bind (h.typeFields fs)

end

theorem type (h : v.Does act descends) (t : TypeExpr τ) :
    (v.type t).Meets act descends (Visit.type t) () :=
  h.meet (h.typeParts t)

theorem type? (h : v.Does act descends) (segment : String) : ∀ t : Option (TypeExpr τ),
    (Walk.within segment (v.type? t)).Tours act descends
      (t.toList.map fun t => ⟨[segment], .type t⟩) ()
  | none => (tours_pure ()).within segment
  | some t => (h.type t).tours segment

mutual

theorem patternParts (h : v.Does act descends) : ∀ p : Pattern ν,
    (v.patternParts p).Tours act descends p.parts ()
  | .wildcard _ | .emptyList _ | .literal .. | .unit _ => tours_pure ()
  | .as _ p _ => (h.meet (h.patternParts p)).tours "pattern"
  | .tuple _ ps | .constructor _ _ ps => (h.patterns 0 ps).indexed _
  | .headTail _ x y =>
    ((h.meet (h.patternParts x)).tours "head").bind ((h.meet (h.patternParts y)).tours "tail")

theorem patterns (h : v.Does act descends) : ∀ (i : Nat) (ps : List (Pattern ν)),
    (v.patterns i ps).Tours act descends
      ((ps.zipIdx i).map fun p => ⟨[toString p.2], .pattern p.1⟩) ()
  | _, [] => tours_pure ()
  | i, p :: ps => ((h.meet (h.patternParts p)).tours (toString i)).bind (h.patterns (i + 1) ps)

end

theorem pattern (h : v.Does act descends) (p : Pattern ν) :
    (v.pattern p).Meets act descends (Visit.pattern p) () :=
  h.meet (h.patternParts p)

theorem inputs (h : v.Does act descends) : ∀ is : List (Input τ ν),
    (v.inputs is).Tours act descends (is.map fun i => ⟨[i.name.kebab], .type i.type⟩) ()
  | [] => tours_pure ()
  | i :: is => ((h.type i.type).tours i.name.kebab).bind (h.inputs is)

mutual

theorem valueParts (h : v.Does act descends) : ∀ x : Value τ ν,
    (v.valueParts x).Tours act descends x.parts ()
  | .literal .. | .constructor .. | .variable .. | .reference .. | .fieldFunction .. | .unit _
  | .native .. | .external .. => tours_pure ()
  | .tuple _ xs | .list _ xs => (h.values 0 xs).indexed _
  | .record _ fs => (h.valueFields fs).named _
  | .field _ x _ => (h.meet (h.valueParts x)).tours "value"
  | .apply _ f x =>
    ((h.meet (h.valueParts f)).tours "function").bind ((h.meet (h.valueParts x)).tours "argument")
  | .lambda _ p b => ((h.pattern p).tours "pattern").bind ((h.meet (h.valueParts b)).tours "body")
  | .letDefinition _ _ d b =>
    ((h.meet (h.definitionParts d)).tours "definition").bind
      ((h.meet (h.valueParts b)).tours "body")
  | .letRecursion _ ds b =>
    ((h.bindings ds).named "bindings").bind ((h.meet (h.valueParts b)).tours "body")
  | .destructure _ p x b =>
    ((h.pattern p).tours "pattern").bind (((h.meet (h.valueParts x)).tours "value").bind
      ((h.meet (h.valueParts b)).tours "body"))
  | .ifThenElse _ c t e =>
    ((h.meet (h.valueParts c)).tours "condition").bind
      (((h.meet (h.valueParts t)).tours "then-branch").bind
        ((h.meet (h.valueParts e)).tours "else-branch"))
  | .patternMatch _ x cs =>
    ((h.meet (h.valueParts x)).tours "subject").bind ((h.cases 0 cs).within "cases")
  | .updateRecord _ x us =>
    ((h.meet (h.valueParts x)).tours "record").bind ((h.valueFields us).named "updates")
  | .hole _ _ t => h.type? "tpe" t

theorem values (h : v.Does act descends) : ∀ (i : Nat) (xs : List (Value τ ν)),
    (v.values i xs).Tours act descends ((xs.zipIdx i).map fun x => ⟨[toString x.2], .value x.1⟩) ()
  | _, [] => tours_pure ()
  | i, x :: xs => ((h.meet (h.valueParts x)).tours (toString i)).bind (h.values (i + 1) xs)

theorem valueFields (h : v.Does act descends) : ∀ fs : List (Name × Value τ ν),
    (v.valueFields fs).Tours act descends (fs.map fun f => ⟨[f.1.kebab], .value f.2⟩) ()
  | [] => tours_pure ()
  | (n, x) :: fs => ((h.meet (h.valueParts x)).tours n.kebab).bind (h.valueFields fs)

theorem cases (h : v.Does act descends) : ∀ (i : Nat) (cs : List (Pattern ν × Value τ ν)),
    (v.cases i cs).Tours act descends ((cs.zipIdx i).flatMap Value.caseParts) ()
  | _, [] => tours_pure ()
  | i, (p, x) :: cs =>
    have hcase : (do Walk.within "0" (v.pattern p); Walk.within "1" (v.value x)).Tours act descends
        [⟨["0"], .pattern p⟩, ⟨["1"], .value x⟩] () :=
      ((h.pattern p).tours "0").bind ((h.meet (h.valueParts x)).tours "1")
    (hcase.within (toString i)).bind (h.cases (i + 1) cs)

theorem bindings (h : v.Does act descends) : ∀ ds : List (Name × ValueDefinition τ ν),
    (v.bindings ds).Tours act descends
      (ds.map fun d => ⟨[d.1.kebab], .valueDefinition d.1 d.2⟩) ()
  | [] => tours_pure ()
  | (n, d) :: ds => ((h.meet (h.definitionParts d)).tours n.kebab).bind (h.bindings ds)

theorem definitionParts (h : v.Does act descends) : ∀ d : ValueDefinition τ ν,
    (v.definitionParts d).Tours act descends d.parts ()
  | .mk is t b =>
    ((h.inputs is).named "input-types").bind (((h.type t).tours "output-type").bind (h.bodyParts b))

theorem bodyParts (h : v.Does act descends) : ∀ b : ValueBody τ ν,
    (Walk.within "body" (v.bodyParts b)).Tours act descends b.parts ()
  | .expression x => (h.meet (h.valueParts x)).tours "body"
  | .native _ | .external .. | .incomplete _ => (tours_pure ()).within "body"

end

theorem value (h : v.Does act descends) (x : Value τ ν) :
    (v.value x).Meets act descends (Visit.value x) () :=
  h.meet (h.valueParts x)

section Entries

variable {γ : Type} {name : γ → String} {visit : γ → Walk σ ε Unit}

theorem named {parts : γ → List (Sighting τ ν)}
    (h : ∀ x, (visit x).Tours act descends (parts x) ()) : ∀ xs : List γ,
    (Visitor.named name visit xs).Tours act descends
      (xs.flatMap fun x => (parts x).map (·.under [name x])) ()
  | [] => tours_pure ()
  | x :: xs => ((h x).within (name x)).bind (named h xs)

theorem entries {node : γ → Visit τ ν}
    (h : ∀ x, (visit x).Meets act descends (node x) ()) :
    ∀ xs : List γ,
      (Visitor.named name visit xs).Tours act descends (xs.map fun x => ⟨[name x], node x⟩) ()
  | [] => tours_pure ()
  | x :: xs => ((h x).tours (name x)).bind (entries h xs)

end Entries

theorem constructors (h : v.Does act descends) (cs : List (Constructor τ)) :
    (v.constructors cs).Tours act descends
      ((cs.flatMap Constructor.parts).map (·.under ["constructors"])) () :=
  have hargs (c : Constructor τ) : (Walk.within "args" (v.typeFields c.arguments)).Tours act descends
      (Sighting.named "args" (·.1.kebab) (.type ·.2) c.arguments) () :=
    (h.typeFields c.arguments).named "args"
  (named hargs cs).within "constructors"

theorem typeDefinition (h : v.Does act descends) : ∀ e : TypeEntry τ,
    (v.typeDefinition e).Meets act descends (Visit.typeDefinition e.name e.definition) ()
  | ⟨_, _, _, .synonym _ t⟩ => h.meet ((h.type t).tours "type-exp")
  | ⟨_, _, _, .custom _ _ cs⟩ => h.meet (h.constructors cs)
  | ⟨_, _, _, .incomplete _ _ t⟩ => h.meet (h.type? "partial" t)

theorem typeSpecification (h : v.Does act descends) : ∀ e : TypeSpecEntry τ,
    (v.typeSpecification e).Meets act descends (Visit.typeSpecification e.name e.specification) ()
  | ⟨_, _, .synonym _ t⟩ => h.meet ((h.type t).tours "type-exp")
  | ⟨_, _, .abstract _⟩ => h.meet (tours_pure ())
  | ⟨_, _, .custom _ cs⟩ => h.meet (h.constructors cs)

theorem valueDefinition (h : v.Does act descends) (e : ValueEntry τ ν) :
    (v.valueDefinition e).Meets act descends (Visit.valueDefinition e.name e.definition) () :=
  h.meet (h.definitionParts e.definition)

theorem valueSpecification (h : v.Does act descends) (e : ValueSpecEntry τ) :
    (v.valueSpecification e).Meets act descends (Visit.valueSpecification e.name e.specification) () :=
  h.meet (((h.typeFields e.specification.inputs).named "inputs").bind
    ((h.type e.specification.output).tours "output"))

theorem moduleDefinition (h : v.Does act descends) (e : ModuleEntry τ ν) :
    (v.moduleDefinition e).Meets act descends (Visit.moduleDefinition e.name e.definition) () :=
  h.meet (((entries h.typeDefinition e.definition.types).named "types").bind
    ((entries h.valueDefinition e.definition.values).named "values"))

theorem moduleSpecification (h : v.Does act descends) (e : ModuleSpecEntry τ) :
    (v.moduleSpecification e).Meets act descends (Visit.moduleSpecification e.name e.specification) () :=
  h.meet (((entries h.typeSpecification e.specification.types).named "types").bind
    ((entries h.valueSpecification e.specification.values).named "values"))

theorem package (h : v.Does act descends) (p : PackageDefinition τ ν) :
    (v.package p).Tours act descends p.parts () :=
  (entries h.moduleDefinition p.modules).named "modules"

theorem packageSpecification (h : v.Does act descends) (p : PackageSpecification τ) :
    (v.packageSpecification p).Tours act descends p.parts () :=
  (entries h.moduleSpecification p.modules).named "modules"

theorem distribution (h : v.Does act descends) (d : Distribution τ ν) :
    (v.distribution d).Tours act descends d.parts () := by
  have hdeps : (Visitor.named (fun dep => dep.name.text)
      (fun dep => v.packageSpecification dep.specification) d.dependencies).Tours act descends _ () :=
    named (fun dep => h.packageSpecification dep.specification) d.dependencies
  refine (hdeps.within "dependencies").bind ?_
  cases d with
  | library _ _ p => exact (h.package p).within "def"
  | specs _ _ p => exact (h.packageSpecification p).within "spec"
  | application _ _ p _ => exact (h.package p).within "def"

end Does

/-- Visits all that there is. -/
def root (v : Visitor τ ν σ ε) : Root τ ν → Walk σ ε Unit
  | .document d => v.document d
  | .type t => v.type t
  | .value x => v.value x

/-- A visitor acts at the nodes in order. -/
theorem Does.root {v : Visitor τ ν σ ε} {act : Sighting τ ν → ExceptT ε (StateM σ) Unit}
    {descends : Sighting τ ν → Bool} (h : v.Does act descends) : ∀ r : Root τ ν,
    (v.root r).Tours act descends r.parts ()
  | .document d => (h.distribution d.distribution).within "distribution"
  | .type t => (h.type t).alone
  | .value x => (h.value x).alone

/-- A visitor that never fails and always goes on sees all nodes in order. -/
theorem runFrom_root {v : Visitor τ ν σ ε} {f : σ → Sighting τ ν → σ}
    (h : ∀ n c s, v.visit n c s = (.ok true, f s ⟨c.path, n⟩)) (r : Root τ ν) (s : σ) :
    (v.root r).runFrom s = (.ok (), {}, r.nodes.foldl f s) := by
  have hdoes : v.Does (fun m => ExceptT.mk fun s => (.ok (), f s m)) fun _ => true := by
    rintro n c s a s' ⟨⟩
    exact h n c s
  exact (hdoes.root r).run (c := {}) (Walk.run_forM_of_ok (fun _ _ => rfl) r.nodes s)

end Visitor

variable {τ ν σ ε : Type}

theorem Sighting.cursor_mk_path (c : Cursor) (n : Visit τ ν) :
    (⟨c.path, n⟩ : Sighting τ ν).cursor = c := by
  simp [cursor, Cursor.path]

namespace Observer

/-- Every callback that is there succeeds wherever it is called. -/
structure NeverFails (o : Observer τ ν σ ε) : Prop where
  moduleDefinition : ∀ f ∈ o.moduleDefinition, ∀ c n d s, (f c n d s).1 = .ok ()
  moduleSpecification : ∀ f ∈ o.moduleSpecification, ∀ c n d s, (f c n d s).1 = .ok ()
  typeDefinition : ∀ f ∈ o.typeDefinition, ∀ c n d s, (f c n d s).1 = .ok ()
  typeSpecification : ∀ f ∈ o.typeSpecification, ∀ c n d s, (f c n d s).1 = .ok ()
  valueDefinition : ∀ f ∈ o.valueDefinition, ∀ c n d s, (f c n d s).1 = .ok ()
  valueSpecification : ∀ f ∈ o.valueSpecification, ∀ c n d s, (f c n d s).1 = .ok ()
  type : ∀ f ∈ o.type, ∀ c t s, (f c t s).1 = .ok ()
  pattern : ∀ f ∈ o.pattern, ∀ c p s, (f c p s).1 = .ok ()
  value : ∀ f ∈ o.value, ∀ c v s, (f c v s).1 = .ok ()

/-- The state in which the callback for the kind of a node, if there is one, leaves a state. -/
def told (o : Observer τ ν σ ε) (s : σ) (m : Sighting τ ν) : σ :=
  match m.node with
  | .moduleDefinition n d => o.moduleDefinition.elim s fun f => (f m.cursor n d s).2
  | .moduleSpecification n d => o.moduleSpecification.elim s fun f => (f m.cursor n d s).2
  | .typeDefinition n d => o.typeDefinition.elim s fun f => (f m.cursor n d s).2
  | .typeSpecification n d => o.typeSpecification.elim s fun f => (f m.cursor n d s).2
  | .valueDefinition n d => o.valueDefinition.elim s fun f => (f m.cursor n d s).2
  | .valueSpecification n d => o.valueSpecification.elim s fun f => (f m.cursor n d s).2
  | .type t => o.type.elim s fun f => (f m.cursor t s).2
  | .pattern p => o.pattern.elim s fun f => (f m.cursor p s).2
  | .value v => o.value.elim s fun f => (f m.cursor v s).2

theorem attempt_eq_ok {α : Type} {callback : Option α} {call : α → Except ε Unit × σ}
    (h : ∀ f ∈ callback, (call f).1 = .ok ()) (s : σ) :
    attempt callback call s = (.ok (), callback.elim s fun f => (call f).2) := by
  cases callback with
  | none => rfl
  | some f => exact Prod.ext (h f rfl) rfl

/-- A call for a node is one of the callback for its kind. -/
theorem NeverFails.call {o : Observer τ ν σ ε} (h : o.NeverFails) (s : σ) (m : Sighting τ ν) :
    o.call m.node m.cursor s = (.ok (), o.told s m) := by
  obtain ⟨path, node⟩ := m
  cases node with
  | moduleDefinition n d => exact attempt_eq_ok (fun f hf => h.moduleDefinition f hf _ n d s) s
  | moduleSpecification n d => exact attempt_eq_ok (fun f hf => h.moduleSpecification f hf _ n d s) s
  | typeDefinition n d => exact attempt_eq_ok (fun f hf => h.typeDefinition f hf _ n d s) s
  | typeSpecification n d => exact attempt_eq_ok (fun f hf => h.typeSpecification f hf _ n d s) s
  | valueDefinition n d => exact attempt_eq_ok (fun f hf => h.valueDefinition f hf _ n d s) s
  | valueSpecification n d => exact attempt_eq_ok (fun f hf => h.valueSpecification f hf _ n d s) s
  | type t => exact attempt_eq_ok (fun f hf => h.type f hf _ t s) s
  | pattern p => exact attempt_eq_ok (fun f hf => h.pattern f hf _ p s) s
  | value v => exact attempt_eq_ok (fun f hf => h.value f hf _ v s) s

/-- Callbacks that never fail are called for all nodes in order. -/
theorem runFrom_root {o : Observer τ ν σ ε} (h : o.NeverFails) (r : Root τ ν) (s : σ) :
    (o.visitor.root r).runFrom s = (.ok (), {}, r.nodes.foldl o.told s) := by
  refine Visitor.runFrom_root (fun n c s => ?_) r s
  have hcall := h.call s ⟨c.path, n⟩
  rw [Sighting.cursor_mk_path] at hcall
  simp only [visitor, hcall]

end Observer

end IrDialects
