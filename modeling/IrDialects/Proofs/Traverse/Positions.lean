import IrDialects.Proofs.Number.Whole
import IrDialects.Proofs.Traverse.Visits

/-!
# A position identifies its node

If no list of named parts has a name twice, the segments that lead from a node to two of its parts
part ways before either of them ends. What is below different parts is then at different positions,
so that no two nodes of a tree are at the same one.
-/

namespace IrDialects

variable {τ ν : Type}

namespace Sighting

/-- Neither of two positions leads on from the other. -/
def Apart (m m' : Sighting τ ν) : Prop := ¬ m.path <+: m'.path ∧ ¬ m'.path <+: m.path

theorem apart_of_head? {m m' : Sighting τ ν} (hm : m.path ≠ []) (hm' : m'.path ≠ [])
    (h : m.path.head? ≠ m'.path.head?) : m.Apart m' := by
  obtain ⟨s, p, hp⟩ := List.exists_cons_of_ne_nil hm
  obtain ⟨t, q, hq⟩ := List.exists_cons_of_ne_nil hm'
  rw [hp, hq, List.head?_cons, List.head?_cons, ne_eq, Option.some_inj] at h
  simp [Apart, hp, hq, List.cons_prefix_cons, h, Ne.symm h]

theorem Apart.under {m m' : Sighting τ ν} (h : m.Apart m') (segments : List String) :
    (m.under segments).Apart (m'.under segments) := by
  simpa only [Apart, Sighting.under, List.prefix_append_right_inj] using h

/-- Positions that lead on from positions that are apart are different. -/
theorem Apart.ne {m m' : Sighting τ ν} (h : m.Apart m') {path p q : List String}
    (hp : path ++ m.path <+: p) (hq : path ++ m'.path <+: q) : p ≠ q := by
  rintro rfl
  rcases List.prefix_or_prefix_of_prefix hp hq with hle | hle
  · exact h.1 ((List.prefix_append_right_inj _).1 hle)
  · exact h.2 ((List.prefix_append_right_inj _).1 hle)

/-- Each of several positions is further in, and any two of them are apart. -/
structure Spread (ms : List (Sighting τ ν)) : Prop where
  inside : ∀ m ∈ ms, m.path ≠ []
  apart : ms.Pairwise Apart

variable {α : Type} {xs : List α} {ms ms' : List (Sighting τ ν)} {s t : String}

/-- All of several positions begin with a segment. -/
def Starts (s : String) (ms : List (Sighting τ ν)) : Prop := ∀ m ∈ ms, m.path.head? = some s

/-- None of several positions begins with a segment. -/
def Avoids (s : String) (ms : List (Sighting τ ν)) : Prop := ∀ m ∈ ms, m.path.head? ≠ some s

theorem starts_under : Starts s (ms.map (·.under [s])) := by
  simp [Starts, Sighting.under]

theorem starts_named {name : α → String} {node : α → Visit τ ν} :
    Starts s (named s name node xs) := by
  simp [Starts, named]

theorem Starts.avoids (h : Starts t ms) (hne : t ≠ s) : Avoids s ms := by
  intro m hm
  rw [h m hm]
  simpa using hne

@[simp] theorem avoids_under (hne : t ≠ s) : Avoids s (ms.map (·.under [t])) := starts_under.avoids hne

@[simp] theorem avoids_named {name : α → String} {node : α → Visit τ ν} (hne : t ≠ s) :
    Avoids s (named t name node xs) := starts_named.avoids hne

@[simp] theorem avoids_nil : Avoids s ([] : List (Sighting τ ν)) := by
  simp [Avoids]

@[simp] theorem avoids_cons {p : List String} {n : Visit τ ν} :
    Avoids s (⟨t :: p, n⟩ :: ms) ↔ t ≠ s ∧ Avoids s ms := by
  simp [Avoids]

@[simp] theorem spread_nil : Spread ([] : List (Sighting τ ν)) := ⟨by simp, .nil⟩

@[simp] theorem spread_cons {p : List String} {n : Visit τ ν} (hs : Avoids s ms) (h : Spread ms) :
    Spread (⟨s :: p, n⟩ :: ms) where
  inside := List.forall_mem_cons.2 ⟨List.cons_ne_nil s p, h.inside⟩
  apart := List.pairwise_cons.2 ⟨fun m hm =>
    apart_of_head? (List.cons_ne_nil s p) (h.inside m hm) (hs m hm).symm, h.apart⟩

theorem Spread.append (h : Spread ms) (hs : Starts s ms) (h' : Spread ms') (hs' : Avoids s ms') :
    Spread (ms ++ ms') where
  inside := List.forall_mem_append.2 ⟨h.inside, h'.inside⟩
  apart := List.pairwise_append.2 ⟨h.apart, h'.apart, fun m hm m' hm' =>
    apart_of_head? (h.inside m hm) (h'.inside m' hm') ((hs m hm).trans_ne (hs' m' hm').symm)⟩

theorem spread_under (h : ms.Pairwise Apart) (segment : String) :
    Spread (ms.map (·.under [segment])) where
  inside := by simp [Sighting.under]
  apart := List.pairwise_map.2 (h.imp fun h => h.under _)

/-- Groups of positions that are apart are apart under different names. -/
theorem spread_groups (name : α → String) (f : α → List (Sighting τ ν))
    (h : ∀ x ∈ xs, (f x).Pairwise Apart) (hnames : (xs.map name).Nodup) :
    Spread (xs.flatMap fun x => (f x).map (·.under [name x])) where
  inside m hm := by
    obtain ⟨x, hx, hm⟩ := List.mem_flatMap.1 hm
    exact (spread_under (h x hx) _).inside m hm
  apart := by
    refine List.pairwise_flatMap.2 ⟨fun x hx => (spread_under (h x hx) _).apart,
      (List.pairwise_map.1 hnames).imp fun hne m hm m' hm' => ?_⟩
    obtain ⟨m, -, rfl⟩ := List.mem_map.1 hm
    obtain ⟨m', -, rfl⟩ := List.mem_map.1 hm'
    exact apart_of_head? (by simp [Sighting.under]) (by simp [Sighting.under])
      (by simpa [Sighting.under] using hne)

theorem spread_named {segment : String} {name : α → String} {node : α → Visit τ ν}
    (hnames : (xs.map name).Nodup) : Spread (named segment name node xs) where
  inside := by simp [named]
  apart := List.pairwise_map.2 ((List.pairwise_map.1 hnames).imp fun hne => by
    simp [Apart, List.cons_prefix_cons, hne, Ne.symm hne])

theorem nodup_indices (xs : List α) : (xs.zipIdx.map fun x => toString x.2).Nodup :=
  List.pairwise_map.2 ((pairwise_zipIdx xs).imp fun hlt he =>
    Nat.ne_of_lt hlt (Number.Whole.eq_of_toString_eq he))

theorem spread_indexed (segment : String) (node : α → Visit τ ν) (xs : List α) :
    Spread (indexed segment node xs) :=
  spread_named (nodup_indices xs)

end Sighting

/-- The names in each list of named parts of a type. -/
def TypeExpr.nameLists : TypeExpr τ → List (List String)
  | .record _ fs | .extensibleRecord _ _ fs => [fs.map (·.1.kebab)]
  | .variable .. | .unit _ | .reference .. | .tuple .. | .function .. => []

/-- The names in each list of named parts of a value. -/
def Value.nameLists : Value τ ν → List (List String)
  | .record _ fs | .updateRecord _ _ fs => [fs.map (·.1.kebab)]
  | .letRecursion _ ds _ => [ds.map (·.1.kebab)]
  | .literal .. | .constructor .. | .variable .. | .reference .. | .fieldFunction .. | .unit _
  | .native .. | .external .. | .tuple .. | .list .. | .field .. | .apply .. | .lambda ..
  | .letDefinition .. | .destructure .. | .ifThenElse .. | .patternMatch .. | .hole .. => []

/-- The names of constructors, and those of the arguments of each of them. -/
def Constructor.nameLists (cs : List (Constructor τ)) : List (List String) :=
  cs.map (·.name.kebab) :: cs.map fun c => c.arguments.map (·.1.kebab)

/-- The names in each list of named parts of a type definition. -/
def TypeDefinition.nameLists : TypeDefinition τ → List (List String)
  | .custom _ _ cs => Constructor.nameLists cs
  | .synonym .. | .incomplete .. => []

/-- The names in each list of named parts of a type specification. -/
def TypeSpecification.nameLists : TypeSpecification τ → List (List String)
  | .custom _ cs => Constructor.nameLists cs
  | .synonym .. | .abstract _ => []

/-- The names in each list of named parts of a node: fields, updates, bindings, inputs, constructors
and their arguments, types and values. -/
def Visit.nameLists : Visit τ ν → List (List String)
  | .moduleDefinition _ m => [m.types.map (·.name.kebab), m.values.map (·.name.kebab)]
  | .moduleSpecification _ m => [m.types.map (·.name.kebab), m.values.map (·.name.kebab)]
  | .typeDefinition _ d => d.nameLists
  | .typeSpecification _ s => s.nameLists
  | .valueDefinition _ d => [d.inputs.map (·.name.kebab)]
  | .valueSpecification _ s => [s.inputs.map (·.1.kebab)]
  | .type t => t.nameLists
  | .pattern _ => []
  | .value v => v.nameLists

/-- The names of the dependencies, of the modules of each of them, and of its own modules. -/
def Distribution.nameLists : Distribution τ ν → List (List String)
  | .library _ ds p | .application _ ds p _ => p.modules.map (·.name.text) :: ofDependencies ds
  | .specs _ ds p => p.modules.map (·.name.text) :: ofDependencies ds
where
  ofDependencies (ds : List (Dependency τ)) : List (List String) :=
    ds.map (·.name.text) :: ds.map fun d => d.specification.modules.map (·.name.text)

section Parts

open Sighting (Spread Apart spread_nil spread_cons spread_under spread_groups spread_named
  spread_indexed starts_named)

theorem TypeExpr.spread_parts : ∀ {t : TypeExpr τ}, (∀ l ∈ t.nameLists, l.Nodup) →
    Spread (t.parts : List (Sighting τ ν))
  | .variable .., _ | .unit _, _ => spread_nil
  | .reference _ _ ts, _ | .tuple _ ts, _ => spread_indexed _ _ ts
  | .record _ fs, h | .extensibleRecord _ _ fs, h => spread_named (h _ (List.mem_singleton_self _))
  | .function .., _ => by simp [parts]

theorem Pattern.spread_parts : ∀ p : Pattern ν, Spread (p.parts : List (Sighting τ ν))
  | .wildcard _ | .emptyList _ | .literal .. | .unit _ => spread_nil
  | .as .. | .headTail .. => by simp [parts]
  | .tuple _ ps | .constructor _ _ ps => spread_indexed _ _ ps

theorem Value.spread_caseParts (cs : List (Pattern ν × Value τ ν)) :
    Spread (cs.zipIdx.flatMap caseParts) := by
  have hcase (x : (Pattern ν × Value τ ν) × Nat) :
      Spread [⟨["0"], .pattern x.1.1⟩, ⟨["1"], .value x.1.2⟩] := by simp
  exact spread_groups (fun x => toString x.2) _ (fun x _ => (hcase x).apart)
    (Sighting.nodup_indices cs)

theorem Value.spread_parts : ∀ {v : Value τ ν}, (∀ l ∈ v.nameLists, l.Nodup) → Spread v.parts
  | .literal .., _ | .constructor .., _ | .variable .., _ | .reference .., _ | .fieldFunction .., _
  | .unit _, _ | .native .., _ | .external .., _ => spread_nil
  | .tuple _ xs, _ | .list _ xs, _ => spread_indexed _ _ xs
  | .record .., h => spread_named (h _ (List.mem_singleton_self _))
  | .field .., _ | .apply .., _ | .lambda .., _ | .letDefinition .., _ | .hole _ _ none, _
  | .hole _ _ (some _), _ => by simp [parts]
  | .destructure .., _ | .ifThenElse .., _ => spread_cons (by simp) (by simp)
  | .letRecursion .., h =>
    (spread_named (h _ (List.mem_singleton_self _))).append starts_named (by simp) (by simp)
  | .patternMatch _ _ cs, _ => spread_cons (by simp) (spread_under (spread_caseParts cs).apart _)
  | .updateRecord .., h =>
    spread_cons (by simp) (spread_named (h _ (List.mem_singleton_self _)))

theorem ValueDefinition.spread_parts {d : ValueDefinition τ ν}
    (h : (d.inputs.map (·.name.kebab)).Nodup) : Spread d.parts := by
  refine (spread_named h).append starts_named ?_ ?_ <;> cases d.body <;> simp [ValueBody.parts]

theorem Constructor.spread_parts {cs : List (Constructor τ)} (h : ∀ l ∈ nameLists cs, l.Nodup) :
    Spread ((cs.flatMap parts).map (·.under ["constructors"]) : List (Sighting τ ν)) := by
  rw [nameLists, List.forall_mem_cons, List.forall_mem_map] at h
  exact spread_under (spread_groups _ _ (fun c hc => (spread_named (h.2 c hc)).apart) h.1).apart _

theorem TypeDefinition.spread_parts : ∀ {d : TypeDefinition τ}, (∀ l ∈ d.nameLists, l.Nodup) →
    Spread (d.parts : List (Sighting τ ν))
  | .synonym .., _ | .incomplete _ _ none, _ | .incomplete _ _ (some _), _ => by simp [parts]
  | .custom .., h => Constructor.spread_parts h

theorem TypeSpecification.spread_parts : ∀ {s : TypeSpecification τ},
    (∀ l ∈ s.nameLists, l.Nodup) → Spread (s.parts : List (Sighting τ ν))
  | .synonym .., _ => by simp [parts]
  | .abstract _, _ => spread_nil
  | .custom .., h => Constructor.spread_parts h

theorem ValueSpecification.spread_parts {s : ValueSpecification τ}
    (h : (s.inputs.map (·.1.kebab)).Nodup) : Spread (s.parts : List (Sighting τ ν)) :=
  (spread_named h).append starts_named (by simp) (by simp)

theorem ModuleDefinition.spread_parts {m : ModuleDefinition τ ν}
    (htypes : (m.types.map (·.name.kebab)).Nodup) (hvalues : (m.values.map (·.name.kebab)).Nodup) :
    Spread m.parts :=
  (spread_named htypes).append starts_named (spread_named hvalues) (by simp)

theorem ModuleSpecification.spread_parts {m : ModuleSpecification τ}
    (htypes : (m.types.map (·.name.kebab)).Nodup) (hvalues : (m.values.map (·.name.kebab)).Nodup) :
    Spread (m.parts : List (Sighting τ ν)) :=
  (spread_named htypes).append starts_named (spread_named hvalues) (by simp)

/-- If no list of named parts has a name twice, the parts of a node are apart. -/
theorem Visit.spread_parts {n : Visit τ ν} (h : ∀ l ∈ n.nameLists, l.Nodup) : Spread n.parts := by
  cases n with
  | moduleDefinition | moduleSpecification =>
    rw [nameLists, List.forall_mem_cons, List.forall_mem_singleton] at h
    first
    | exact ModuleDefinition.spread_parts h.1 h.2
    | exact ModuleSpecification.spread_parts h.1 h.2
  | typeDefinition => exact TypeDefinition.spread_parts h
  | typeSpecification => exact TypeSpecification.spread_parts h
  | valueDefinition => exact ValueDefinition.spread_parts (List.forall_mem_singleton.1 h)
  | valueSpecification => exact ValueSpecification.spread_parts (List.forall_mem_singleton.1 h)
  | type => exact TypeExpr.spread_parts h
  | pattern p => exact p.spread_parts
  | value => exact Value.spread_parts h

theorem PackageDefinition.spread_parts {p : PackageDefinition τ ν}
    (h : (p.modules.map (·.name.text)).Nodup) : Spread p.parts :=
  spread_named h

theorem PackageSpecification.spread_parts {p : PackageSpecification τ}
    (h : (p.modules.map (·.name.text)).Nodup) : Spread (p.parts : List (Sighting τ ν)) :=
  spread_named h

theorem Dependency.spread_parts {ds : List (Dependency τ)}
    (h : ∀ l ∈ Distribution.nameLists.ofDependencies ds, l.Nodup) :
    Spread (ds.flatMap parts : List (Sighting τ ν)) := by
  rw [Distribution.nameLists.ofDependencies, List.forall_mem_cons, List.forall_mem_map] at h
  exact spread_groups _ _ (fun d hd => (PackageSpecification.spread_parts (h.2 d hd)).apart) h.1

theorem Distribution.spread_parts : ∀ {d : Distribution τ ν}, (∀ l ∈ d.nameLists, l.Nodup) →
    Spread d.parts
  | .library .., h | .application .., h => by
    rw [nameLists, List.forall_mem_cons] at h
    exact (spread_under (Dependency.spread_parts h.2).apart _).append Sighting.starts_under
      (spread_under (PackageDefinition.spread_parts h.1).apart _) (by simp)
  | .specs .., h => by
    rw [nameLists, List.forall_mem_cons] at h
    exact (spread_under (Dependency.spread_parts h.2).apart _).append Sighting.starts_under
      (spread_under (PackageSpecification.spread_parts h.1).apart _) (by simp)

end Parts

/-- What is met from a node on is where the node is or further in. -/
theorem Visit.prefix_of_mem_preorder {n : Visit τ ν} {descends : Sighting τ ν → Bool}
    {path : List String} {m : Sighting τ ν} (h : m ∈ n.preorder descends path) :
    path <+: m.path := by
  induction n using Visit.induct generalizing path with
  | step n ih =>
    rw [preorder_eq, List.mem_cons] at h
    rcases h with rfl | h
    · exact List.prefix_refl path
    · split at h
      · obtain ⟨x, hx, hm⟩ := List.mem_flatMap.1 h
        exact (List.prefix_append path x.path).trans (ih x hx hm)
      · cases h

/-- If nodes are apart, and no two nodes that are met from one of them on are at the same position,
then no two of all these are. -/
theorem Sighting.pairwise_tour {ms : List (Sighting τ ν)} {descends : Sighting τ ν → Bool}
    {path : List String} (hapart : ms.Pairwise Apart)
    (h : ∀ m ∈ ms, (m.node.preorder descends (path ++ m.path)).Pairwise (·.path ≠ ·.path)) :
    (tour descends path ms).Pairwise (·.path ≠ ·.path) := by
  refine List.pairwise_flatMap.2 ⟨h, hapart.imp fun hne x hx y hy => ?_⟩
  exact hne.ne (Visit.prefix_of_mem_preorder hx) (Visit.prefix_of_mem_preorder hy)

/-- Whether no list of named parts of a node has a name twice. -/
def Visit.Distinct (n : Visit τ ν) : Prop := ∀ l ∈ n.nameLists, l.Nodup

/-- No two nodes that are met from a node on are at the same position. -/
theorem Visit.pairwise_preorder {n : Visit τ ν} {descends : Sighting τ ν → Bool} {path : List String}
    (h : ∀ m ∈ n.preorder descends path, m.node.Distinct) :
    (n.preorder descends path).Pairwise (·.path ≠ ·.path) := by
  induction n using Visit.induct generalizing path with
  | step n ih =>
    rw [preorder_eq] at h ⊢
    rw [List.forall_mem_cons] at h
    have hparts : Sighting.Spread n.parts := spread_parts h.1
    split
    next hd =>
      rw [if_pos hd] at h
      refine List.pairwise_cons.2 ⟨fun x hx => ?_, Sighting.pairwise_tour hparts.apart fun m hm =>
        ih m hm fun x hx => h.2 x (List.mem_flatMap.2 ⟨m, hm, hx⟩)⟩
      obtain ⟨m, hm, hx⟩ := List.mem_flatMap.1 hx
      rintro rfl
      have hle := (Visit.prefix_of_mem_preorder hx).length_le
      have hpos := List.length_pos_iff.2 (hparts.inside m hm)
      rw [List.length_append] at hle
      omega
    next => exact List.pairwise_singleton _ _

namespace Root

/-- The lists of names that belong to no node: those of dependencies and of modules. -/
def nameLists : Root τ ν → List (List String)
  | .document d => d.distribution.nameLists
  | .type _ | .value _ => []

/-- No list of named parts has a name twice. -/
structure Distinct (r : Root τ ν) : Prop where
  outside : ∀ l ∈ r.nameLists, l.Nodup
  nodes : ∀ m ∈ r.nodes, m.node.Distinct

theorem apart_parts : ∀ {r : Root τ ν}, (∀ l ∈ r.nameLists, l.Nodup) →
    r.parts.Pairwise Sighting.Apart
  | .document _, h => (Sighting.spread_under (Distribution.spread_parts h).apart _).apart
  | .type _, _ | .value _, _ => List.pairwise_singleton _ _

/-- No two nodes of a tree are at the same position. -/
theorem Distinct.pairwise_nodes {r : Root τ ν} (h : r.Distinct) :
    r.nodes.Pairwise (·.path ≠ ·.path) :=
  Sighting.pairwise_tour (apart_parts h.outside) fun m hm =>
    Visit.pairwise_preorder fun x hx => h.nodes x (List.mem_flatMap.2 ⟨m, hm, hx⟩)

end Root

namespace Visitor

/-- The visitor that visits all there is and writes it down. -/
def listing : Visitor τ ν (List (Sighting τ ν)) Empty where
  visit n c log := (.ok true, log ++ [⟨c.path, n⟩])

theorem runFrom_listing (r : Root τ ν) : (listing.root r).runFrom [] = (.ok (), {}, r.nodes) := by
  rw [runFrom_root (f := fun log m => log ++ [m]) fun _ _ _ => rfl, List.foldl_append_eq_append,
    ← List.flatMap_def, List.flatMap_singleton']
  rfl

/-- If no list of named parts has a name twice, no two visits to all nodes of a tree are at the same
position. -/
theorem visits_each_position_once {r : Root τ ν} (h : r.Distinct) :
    ∃ visits, (listing.root r).runFrom [] = (.ok (), {}, visits) ∧
      visits.Pairwise (·.path ≠ ·.path) :=
  ⟨r.nodes, runFrom_listing r, h.pairwise_nodes⟩

/-- A library with one dependency, in which a type and a value have the same name and a constructor and
a record have arguments and fields of the same names. -/
def twins : Document Unit Unit where
  version := .number 3
  distribution := .library ⟨[⟨["a"]⟩]⟩ [⟨⟨[⟨["b"]⟩]⟩, ⟨[⟨⟨[⟨["m"]⟩]⟩, {}⟩]⟩⟩]
    { modules := [⟨⟨[⟨["m"]⟩]⟩, .everyone,
        { types := [⟨⟨["t"]⟩, .everyone, "",
            .custom [] .everyone [⟨⟨["t"]⟩, [(⟨["x"]⟩, .unit ()), (⟨["y"]⟩, .unit ())]⟩]⟩]
          values := [⟨⟨["t"]⟩, .everyone, "", .mk [] (.unit ()) (.expression
            (.record () [(⟨["x"]⟩, .unit ()), (⟨["y"]⟩, .unit ())]))⟩] }⟩] }

theorem distinct_twins : (Root.document twins).Distinct where
  outside := by
    simp [Root.nameLists, twins, Distribution.nameLists, Distribution.nameLists.ofDependencies]
  nodes := by
    simp [Root.nodes, Root.parts, twins, Distribution.parts, Distribution.dependencies, Dependency.parts,
      PackageSpecification.parts, PackageDefinition.parts, Sighting.named, Visit.preorder_eq,
      Visit.parts, ModuleSpecification.parts, ModuleDefinition.parts, TypeDefinition.parts,
      Constructor.parts, ValueDefinition.parts, ValueDefinition.inputs, ValueDefinition.output,
      ValueDefinition.body, ValueBody.parts, Value.parts, TypeExpr.parts, Visit.Distinct,
      Visit.nameLists, TypeDefinition.nameLists, Constructor.nameLists, Value.nameLists,
      TypeExpr.nameLists, Sighting.under]
    decide

/-- The positions in `twins` are different although it has names in common. -/
theorem listing_twins : (Root.document twins).Distinct ∧
    ∃ visits, (listing.root (.document twins)).runFrom [] = (.ok (), {}, visits) ∧
      visits.Pairwise (·.path ≠ ·.path) :=
  ⟨distinct_twins, visits_each_position_once distinct_twins⟩

end Visitor

end IrDialects
