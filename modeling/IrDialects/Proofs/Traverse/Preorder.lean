import IrDialects.Traverse.Visitor
import Mathlib.Data.List.Basic

/-!
# The nodes of a tree in order

A table for each kind of node says what its parts are, in which order, and which segments lead to them.
The nodes of a tree are then its root and, part by part, the nodes of the parts. Each node has an
address, which says which part to take at each step, and the nodes in order are those at all addresses,
each once, in lexicographic order.
-/

namespace IrDialects

variable {τ ν τ' ν' : Type}

/-- A node at a position. -/
structure Sighting (τ ν : Type) where
  /-- The segments that lead to the node, outermost first. -/
  path : List String
  node : Visit τ ν

/-- The sighting from further out. -/
def Sighting.under (segments : List String) (m : Sighting τ ν) : Sighting τ ν :=
  ⟨segments ++ m.path, m.node⟩

@[simp] theorem Sighting.node_under (segments : List String) (m : Sighting τ ν) :
    (m.under segments).node = m.node := rfl

/-- Nodes under a segment and consecutive indices. -/
def Sighting.indexed {α : Type} (segment : String) (node : α → Visit τ ν) (xs : List α) :
    List (Sighting τ ν) :=
  xs.zipIdx.map fun x => ⟨[segment, toString x.2], node x.1⟩

/-- Nodes under a segment and their names. -/
def Sighting.named {α : Type} (segment : String) (name : α → String) (node : α → Visit τ ν)
    (xs : List α) : List (Sighting τ ν) :=
  xs.map fun x => ⟨[segment, name x], node x⟩

open Sighting (indexed named)

/-- The direct parts of a type, with the segments that lead to them. -/
def TypeExpr.parts : TypeExpr τ → List (Sighting τ ν)
  | .variable .. | .unit _ => []
  | .reference _ _ ts => indexed "args" .type ts
  | .tuple _ ts => indexed "elements" .type ts
  | .record _ fs | .extensibleRecord _ _ fs => named "fields" (·.1.kebab) (.type ·.2) fs
  | .function _ x y => [⟨["arg"], .type x⟩, ⟨["result"], .type y⟩]

/-- The direct parts of a pattern. -/
def Pattern.parts : Pattern ν → List (Sighting τ ν)
  | .wildcard _ | .emptyList _ | .literal .. | .unit _ => []
  | .as _ p _ => [⟨["pattern"], .pattern p⟩]
  | .tuple _ ps => indexed "elements" .pattern ps
  | .constructor _ _ ps => indexed "args" .pattern ps
  | .headTail _ x y => [⟨["head"], .pattern x⟩, ⟨["tail"], .pattern y⟩]

/-- The pattern and the value of a case of a match. -/
def Value.caseParts (x : (Pattern ν × Value τ ν) × Nat) : List (Sighting τ ν) :=
  [⟨[toString x.2, "0"], .pattern x.1.1⟩, ⟨[toString x.2, "1"], .value x.1.2⟩]

/-- The direct parts of a value. The definitions that a `let` binds are parts of it. -/
def Value.parts : Value τ ν → List (Sighting τ ν)
  | .literal .. | .constructor .. | .variable .. | .reference .. | .fieldFunction .. | .unit _
  | .native .. | .external .. => []
  | .tuple _ xs => indexed "elements" .value xs
  | .list _ xs => indexed "items" .value xs
  | .record _ fs => named "fields" (·.1.kebab) (.value ·.2) fs
  | .field _ x _ => [⟨["value"], .value x⟩]
  | .apply _ f x => [⟨["function"], .value f⟩, ⟨["argument"], .value x⟩]
  | .lambda _ p b => [⟨["pattern"], .pattern p⟩, ⟨["body"], .value b⟩]
  | .letDefinition _ n d b => [⟨["definition"], .valueDefinition n d⟩, ⟨["body"], .value b⟩]
  | .letRecursion _ ds b =>
    named "bindings" (·.1.kebab) (fun d => .valueDefinition d.1 d.2) ds ++ [⟨["body"], .value b⟩]
  | .destructure _ p x b =>
    [⟨["pattern"], .pattern p⟩, ⟨["value"], .value x⟩, ⟨["body"], .value b⟩]
  | .ifThenElse _ c t e =>
    [⟨["condition"], .value c⟩, ⟨["then-branch"], .value t⟩, ⟨["else-branch"], .value e⟩]
  | .patternMatch _ x cs => 
    ⟨["subject"], .value x⟩ :: (cs.zipIdx.flatMap caseParts).map (·.under ["cases"])
  | .updateRecord _ x us => ⟨["record"], .value x⟩ :: named "updates" (·.1.kebab) (.value ·.2) us
  | .hole _ _ t => t.toList.map fun t => ⟨["tpe"], .type t⟩

/-- The value of a body, if it has one. -/
def ValueBody.parts : ValueBody τ ν → List (Sighting τ ν)
  | .expression x => [⟨["body"], .value x⟩]
  | .native _ | .external .. | .incomplete _ => []

/-- The direct parts of a value definition: its input types, its output type and its body. -/
def ValueDefinition.parts (d : ValueDefinition τ ν) : List (Sighting τ ν) :=
  named "input-types" (·.name.kebab) (.type ·.type) d.inputs ++
    (⟨["output-type"], .type d.output⟩ :: d.body.parts)

/-- The arguments of a constructor, under its name. -/
def Constructor.parts (c : Constructor τ) : List (Sighting τ ν) :=
  (named "args" (·.1.kebab) (.type ·.2) c.arguments).map (·.under [c.name.kebab])

/-- The direct parts of a type definition. -/
def TypeDefinition.parts : TypeDefinition τ → List (Sighting τ ν)
  | .synonym _ t => [⟨["type-exp"], .type t⟩]
  | .custom _ _ cs => (cs.flatMap Constructor.parts).map (·.under ["constructors"])
  | .incomplete _ _ t => t.toList.map fun t => ⟨["partial"], .type t⟩

/-- The direct parts of a type specification. -/
def TypeSpecification.parts : TypeSpecification τ → List (Sighting τ ν)
  | .synonym _ t => [⟨["type-exp"], .type t⟩]
  | .abstract _ => []
  | .custom _ cs => (cs.flatMap Constructor.parts).map (·.under ["constructors"])

/-- The direct parts of a value specification. -/
def ValueSpecification.parts (s : ValueSpecification τ) : List (Sighting τ ν) :=
  named "inputs" (·.1.kebab) (.type ·.2) s.inputs ++ [⟨["output"], .type s.output⟩]

/-- The types and then the values of a module. -/
def ModuleDefinition.parts (m : ModuleDefinition τ ν) : List (Sighting τ ν) :=
  named "types" (·.name.kebab) (fun e => .typeDefinition e.name e.definition) m.types ++
    named "values" (·.name.kebab) (fun e => .valueDefinition e.name e.definition) m.values

/-- The types and then the values of the interface of a module. -/
def ModuleSpecification.parts (m : ModuleSpecification τ) : List (Sighting τ ν) :=
  named "types" (·.name.kebab) (fun e => .typeSpecification e.name e.specification) m.types ++
    named "values" (·.name.kebab) (fun e => .valueSpecification e.name e.specification) m.values

/-- The direct parts of a node, with the segments that lead from it to them. -/
def Visit.parts : Visit τ ν → List (Sighting τ ν)
  | .moduleDefinition _ m => m.parts
  | .moduleSpecification _ m => m.parts
  | .typeDefinition _ d => d.parts
  | .typeSpecification _ s => s.parts
  | .valueDefinition _ d => d.parts
  | .valueSpecification _ s => s.parts
  | .type t => t.parts
  | .pattern p => p.parts
  | .value v => v.parts

namespace Sighting

variable {α : Type} {segment : String} {node : α → Visit τ ν} {xs : List α} {m : Sighting τ ν}

theorem exists_of_mem_indexed (h : m ∈ indexed segment node xs) : ∃ x ∈ xs, m.node = node x := by
  obtain ⟨x, hx, rfl⟩ := List.mem_map.1 h
  exact ⟨x.1, (List.mem_zipIdx hx).2.2 ▸ List.getElem_mem _, rfl⟩

theorem exists_of_mem_named {name : α → String} (h : m ∈ named segment name node xs) :
    ∃ x ∈ xs, m.node = node x := by
  obtain ⟨x, hx, rfl⟩ := List.mem_map.1 h
  exact ⟨x, hx, rfl⟩

theorem sizeOf_of_exists [SizeOf α] (h : ∃ x ∈ xs, m.node = node x)
    (hnode : ∀ x, sizeOf (node x) ≤ sizeOf x + 1) : sizeOf m.node ≤ sizeOf xs := by
  obtain ⟨x, hx, he⟩ := h
  have hlt := List.sizeOf_lt_of_mem hx
  have hle := hnode x
  rw [he]
  omega

end Sighting

section Size

open Sighting (exists_of_mem_indexed exists_of_mem_named sizeOf_of_exists)

theorem TypeExpr.sizeOf_parts {m : Sighting τ ν} : ∀ {t : TypeExpr τ}, m ∈ t.parts →
    sizeOf m.node ≤ sizeOf t
  | .variable .., h | .unit _, h => by cases h
  | .reference _ _ ts, h | .tuple _ ts, h => by
    have hle := sizeOf_of_exists (exists_of_mem_indexed h) fun x => by simp +arith
    simp only [reference.sizeOf_spec, tuple.sizeOf_spec]
    omega
  | .record _ fs, h | .extensibleRecord _ _ fs, h => by
    have hle := sizeOf_of_exists (exists_of_mem_named h) fun x => by cases x; simp +arith
    simp only [record.sizeOf_spec, extensibleRecord.sizeOf_spec]
    omega
  | .function _ x y, h => by
    simp only [parts, List.mem_cons, List.not_mem_nil, or_false] at h
    rcases h with rfl | rfl <;> simp only [Visit.type.sizeOf_spec, function.sizeOf_spec] <;> omega

theorem Pattern.sizeOf_parts {m : Sighting τ ν} : ∀ {p : Pattern ν}, m ∈ p.parts →
    sizeOf m.node ≤ sizeOf p
  | .wildcard _, h | .emptyList _, h | .literal .., h | .unit _, h => by cases h
  | .tuple _ ps, h | .constructor _ _ ps, h => by
    have hle := sizeOf_of_exists (exists_of_mem_indexed h) fun x => by simp +arith
    simp only [tuple.sizeOf_spec, constructor.sizeOf_spec]
    omega
  | .as _ p _, h => by
    cases List.mem_singleton.1 h
    simp
  | .headTail _ x y, h => by
    simp only [parts, List.mem_cons, List.not_mem_nil, or_false] at h
    rcases h with rfl | rfl <;> simp only [Visit.pattern.sizeOf_spec, headTail.sizeOf_spec] <;> omega

theorem Value.sizeOf_parts {m : Sighting τ ν} : ∀ {v : Value τ ν}, m ∈ v.parts →
    sizeOf m.node ≤ sizeOf v
  | .literal .., h | .constructor .., h | .variable .., h | .reference .., h
  | .fieldFunction .., h | .unit _, h | .native .., h | .external .., h => by cases h
  | .tuple _ xs, h | .list _ xs, h => by
    have hle := sizeOf_of_exists (exists_of_mem_indexed h) fun x => by simp +arith
    simp only [tuple.sizeOf_spec, list.sizeOf_spec]
    omega
  | .record _ fs, h => by
    have hle := sizeOf_of_exists (exists_of_mem_named h) fun x => by cases x; simp +arith
    simp only [record.sizeOf_spec]
    omega
  | .field .., h => by
    cases List.mem_singleton.1 h
    simp
  | .apply .., h | .lambda .., h | .letDefinition .., h => by
    simp only [parts, List.mem_cons, List.not_mem_nil, or_false] at h
    rcases h with rfl | rfl <;> simp +arith
  | .letRecursion _ ds b, h => by
    simp only [parts, List.mem_append, List.mem_singleton] at h
    rcases h with h | rfl
    · have hle := sizeOf_of_exists (exists_of_mem_named h) fun x => by cases x; simp +arith
      simp only [letRecursion.sizeOf_spec]
      omega
    · simp
  | .destructure .., h | .ifThenElse .., h => by
    simp only [parts, List.mem_cons, List.not_mem_nil, or_false] at h
    rcases h with rfl | rfl | rfl <;> simp +arith
  -- A part of a case is smaller than the case, and the case smaller than the list of cases.
  | .patternMatch _ x cs, h => by
    simp only [parts, List.mem_cons, List.mem_map, List.mem_flatMap] at h
    rcases h with rfl | ⟨m, ⟨y, hy, h⟩, rfl⟩
    · simp +arith
    · have hlt := List.sizeOf_lt_of_mem (List.fst_mem_of_mem_zipIdx hy)
      obtain ⟨⟨p, b⟩, i⟩ := y
      simp only [caseParts, List.mem_cons, List.not_mem_nil, or_false] at h
      simp only [Prod.mk.sizeOf_spec, patternMatch.sizeOf_spec, Sighting.node_under] at hlt ⊢
      rcases h with rfl | rfl
      · rw [Visit.pattern.sizeOf_spec]
        omega
      · rw [Visit.value.sizeOf_spec]
        omega
  | .updateRecord _ x us, h => by
    simp only [parts, List.mem_cons] at h
    rcases h with rfl | h
    · simp +arith
    · have hle := sizeOf_of_exists (exists_of_mem_named h) fun x => by cases x; simp +arith
      simp only [updateRecord.sizeOf_spec]
      omega
  | .hole _ _ none, h => by cases h
  | .hole _ _ (some t), h => by
    cases List.mem_singleton.1 h
    simp

theorem ValueBody.sizeOf_parts {m : Sighting τ ν} : ∀ {b : ValueBody τ ν}, m ∈ b.parts →
    sizeOf m.node ≤ sizeOf b
  | .native _, h | .external .., h | .incomplete _, h => by cases h
  | .expression _, h => by
    cases List.mem_singleton.1 h
    simp

theorem ValueDefinition.sizeOf_parts {m : Sighting τ ν} : ∀ {d : ValueDefinition τ ν}, m ∈ d.parts →
    sizeOf m.node ≤ sizeOf d
  | .mk is t b, h => by
    simp only [parts, inputs, output, body, List.mem_append, List.mem_cons] at h
    simp only [mk.sizeOf_spec]
    rcases h with h | rfl | h
    · have hle := sizeOf_of_exists (exists_of_mem_named h) fun x => by cases x; simp +arith
      omega
    · simp +arith
    · have hle := ValueBody.sizeOf_parts h
      omega

theorem Constructor.sizeOf_parts {cs : List (Constructor τ)} {m : Sighting τ ν}
    (h : m ∈ (cs.flatMap parts).map (·.under ["constructors"])) : sizeOf m.node ≤ sizeOf cs := by
  obtain ⟨m, hm, rfl⟩ := List.mem_map.1 h
  obtain ⟨⟨n, as⟩, hc, hm⟩ := List.mem_flatMap.1 hm
  obtain ⟨m, hx, rfl⟩ := List.mem_map.1 hm
  have hlt := List.sizeOf_lt_of_mem hc
  have hle := sizeOf_of_exists (exists_of_mem_named hx) fun x => by cases x; simp +arith
  simp only [mk.sizeOf_spec, Sighting.node_under] at hlt hle ⊢
  omega

theorem TypeDefinition.sizeOf_parts {m : Sighting τ ν} : ∀ {d : TypeDefinition τ}, m ∈ d.parts →
    sizeOf m.node ≤ sizeOf d
  | .synonym _ t, h => by
    cases List.mem_singleton.1 h
    simp
  | .custom _ _ cs, h => by
    have hle := Constructor.sizeOf_parts h
    simp only [custom.sizeOf_spec]
    omega
  | .incomplete _ _ none, h => by cases h
  | .incomplete _ _ (some t), h => by
    cases List.mem_singleton.1 h
    simp

theorem TypeSpecification.sizeOf_parts {m : Sighting τ ν} : ∀ {s : TypeSpecification τ},
    m ∈ s.parts → sizeOf m.node ≤ sizeOf s
  | .synonym _ t, h => by
    cases List.mem_singleton.1 h
    simp
  | .abstract _, h => by cases h
  | .custom _ cs, h => by
    have hle := Constructor.sizeOf_parts h
    simp only [custom.sizeOf_spec]
    omega

theorem ValueSpecification.sizeOf_parts {s : ValueSpecification τ} {m : Sighting τ ν}
    (h : m ∈ s.parts) : sizeOf m.node ≤ sizeOf s := by
  obtain ⟨is, t⟩ := s
  simp only [parts, List.mem_append, List.mem_singleton] at h
  simp only [mk.sizeOf_spec]
  rcases h with h | rfl
  · have hle := sizeOf_of_exists (exists_of_mem_named h) fun x => by cases x; simp +arith
    omega
  · simp

theorem ModuleDefinition.sizeOf_parts {d : ModuleDefinition τ ν} {m : Sighting τ ν}
    (h : m ∈ d.parts) : sizeOf m.node ≤ sizeOf d := by
  obtain ⟨ts, vs, doc⟩ := d
  simp only [parts, List.mem_append] at h
  simp only [mk.sizeOf_spec]
  rcases h with h | h <;>
    have hle := sizeOf_of_exists (exists_of_mem_named h) fun x => by cases x; simp +arith
  all_goals omega

theorem ModuleSpecification.sizeOf_parts {s : ModuleSpecification τ} {m : Sighting τ ν}
    (h : m ∈ s.parts) : sizeOf m.node ≤ sizeOf s := by
  obtain ⟨ts, vs, doc⟩ := s
  simp only [parts, List.mem_append] at h
  simp only [mk.sizeOf_spec]
  rcases h with h | h <;>
    have hle := sizeOf_of_exists (exists_of_mem_named h) fun x => by cases x; simp +arith
  all_goals omega

/-- A part of a node is smaller than the node. -/
theorem Visit.sizeOf_parts {n : Visit τ ν} {m : Sighting τ ν} (h : m ∈ n.parts) :
    sizeOf m.node < sizeOf n := by
  cases n with
  | moduleDefinition => exact Nat.lt_of_le_of_lt (ModuleDefinition.sizeOf_parts h) (by simp +arith)
  | moduleSpecification =>
    exact Nat.lt_of_le_of_lt (ModuleSpecification.sizeOf_parts h) (by simp +arith)
  | typeDefinition => exact Nat.lt_of_le_of_lt (TypeDefinition.sizeOf_parts h) (by simp +arith)
  | typeSpecification => exact Nat.lt_of_le_of_lt (TypeSpecification.sizeOf_parts h) (by simp +arith)
  | valueDefinition => exact Nat.lt_of_le_of_lt (ValueDefinition.sizeOf_parts h) (by simp +arith)
  | valueSpecification =>
    exact Nat.lt_of_le_of_lt (ValueSpecification.sizeOf_parts h) (by simp +arith)
  | type => exact Nat.lt_of_le_of_lt (TypeExpr.sizeOf_parts h) (by simp)
  | pattern => exact Nat.lt_of_le_of_lt (Pattern.sizeOf_parts h) (by simp)
  | value => exact Nat.lt_of_le_of_lt (Value.sizeOf_parts h) (by simp)

end Size

/-- What holds of a node if it holds of its parts holds of every node. -/
theorem Visit.induct {motive : Visit τ ν → Prop}
    (step : ∀ n : Visit τ ν, (∀ m ∈ n.parts, motive m.node) → motive n) (n : Visit τ ν) : motive n :=
  step n fun m _ => Visit.induct step m.node
termination_by sizeOf n
decreasing_by exact sizeOf_parts ‹_›

/-- A node and, if `descends` says so, the nodes below it, each before its parts. -/
def Visit.preorder (descends : Sighting τ ν → Bool) (path : List String) (n : Visit τ ν) :
    List (Sighting τ ν) :=
  ⟨path, n⟩ :: if descends ⟨path, n⟩ then
    (n.parts.attach.map fun m => m.1.node.preorder descends (path ++ m.1.path)).flatten
  else []
termination_by sizeOf n
decreasing_by exact sizeOf_parts m.2

/-- The nodes that are met from several nodes on. -/
def Sighting.tour (descends : Sighting τ ν → Bool) (path : List String)
    (ms : List (Sighting τ ν)) : List (Sighting τ ν) :=
  ms.flatMap fun m => m.node.preorder descends (path ++ m.path)

/-- Parts may be gone through without keeping in mind that they are parts. -/
private theorem flatten_attach {α β : Type} (l : List α) (f : α → List β) :
    (l.attach.map fun x => f x.1).flatten = l.flatMap f := by
  rw [List.flatMap_def]
  exact congrArg List.flatten List.attach_map_val

theorem Visit.preorder_eq (descends : Sighting τ ν → Bool) (path : List String) (n : Visit τ ν) :
    n.preorder descends path =
      ⟨path, n⟩ :: if descends ⟨path, n⟩ then Sighting.tour descends path n.parts else [] := by
  rw [preorder, Sighting.tour]
  exact congrArg _ (if_congr Iff.rfl
    (flatten_attach n.parts fun m => m.node.preorder descends (path ++ m.path)) rfl)

namespace Sighting

variable (descends : Sighting τ ν → Bool) (path : List String)

@[simp] theorem tour_nil : tour descends path ([] : List (Sighting τ ν)) = [] := rfl

@[simp] theorem tour_cons (m : Sighting τ ν) (ms : List (Sighting τ ν)) :
    tour descends path (m :: ms) =
      m.node.preorder descends (path ++ m.path) ++ tour descends path ms :=
  List.flatMap_cons

@[simp] theorem tour_append (ms ms' : List (Sighting τ ν)) :
    tour descends path (ms ++ ms') = tour descends path ms ++ tour descends path ms' :=
  List.flatMap_append

/-- The position of a sighting. -/
def cursor (m : Sighting τ ν) : Cursor := ⟨m.path.reverse⟩

@[simp] theorem path_cursor (m : Sighting τ ν) : m.cursor.path = m.path :=
  List.reverse_reverse m.path

end Sighting

/-- From further out the same nodes are met. -/
theorem Visit.preorder_append (descends : Sighting τ ν → Bool) (p path : List String) (n : Visit τ ν) :
    n.preorder descends (p ++ path) =
      (n.preorder (fun m => descends (m.under p)) path).map (·.under p) := by
  induction n using Visit.induct generalizing path with
  | step n ih =>
    have hparts : Sighting.tour descends (p ++ path) n.parts =
        (Sighting.tour (fun m => descends (m.under p)) path n.parts).map (·.under p) := by
      rw [Sighting.tour, Sighting.tour, List.map_flatMap]
      refine List.flatMap_congr fun m hm => ?_
      rw [List.append_assoc, ih m hm]
    rw [preorder_eq, preorder_eq, List.map_cons, apply_ite (List.map _), hparts]
    rfl

/-- The node at an address, seen from a node: which part to take, and so on from there. -/
def Visit.at? (n : Visit τ ν) : List Nat → Option (Sighting τ ν)
  | [] => some ⟨[], n⟩
  | i :: is => n.parts[i]?.bind fun m => (m.node.at? is).map (·.under m.path)

/-- The addresses of a node and of the nodes below it. -/
def Visit.addresses (n : Visit τ ν) : List (List Nat) :=
  [] :: (n.parts.zipIdx.attach.map fun m => m.1.1.node.addresses.map (m.1.2 :: ·)).flatten
termination_by sizeOf n
decreasing_by exact sizeOf_parts (List.fst_mem_of_mem_zipIdx m.2)

namespace Sighting

variable {ms : List (Sighting τ ν)}

/-- The node at an address among several nodes and what is below them. -/
def at? (ms : List (Sighting τ ν)) : List Nat → Option (Sighting τ ν)
  | [] => none
  | i :: is => ms[i]?.bind fun m => (m.node.at? is).map (·.under m.path)

/-- The addresses of several nodes and of what is below them. -/
def addresses (ms : List (Sighting τ ν)) : List (List Nat) :=
  ms.zipIdx.flatMap fun m => m.1.node.addresses.map (m.2 :: ·)

theorem cons_mem_addresses {i : Nat} {is : List Nat} :
    i :: is ∈ addresses ms ↔ ∃ m, ms[i]? = some m ∧ is ∈ m.node.addresses := by
  simp only [addresses, List.mem_flatMap, List.mem_map, List.cons.injEq, Prod.exists,
    List.mem_zipIdx_iff_getElem?]
  constructor
  · rintro ⟨m, _, hm, _, his, rfl, rfl⟩
    exact ⟨m, hm, his⟩
  · rintro ⟨m, hm, his⟩
    exact ⟨m, i, hm, is, his, rfl, rfl⟩

theorem cons_mem_addresses_iff {i : Nat} {is : List Nat}
    (h : ∀ n : Visit τ ν, is ∈ n.addresses ↔ (n.at? is).isSome) :
    i :: is ∈ addresses ms ↔ (at? ms (i :: is)).isSome := by
  rw [cons_mem_addresses, at?]
  cases hm : ms[i]? with
  | none => simp
  | some m => simp [h]

theorem nil_notMem_addresses : [] ∉ addresses ms := by
  simp [addresses]

theorem pairwise_zipIdx {α : Type} (xs : List α) : xs.zipIdx.Pairwise fun x y => x.2 < y.2 := by
  rw [← List.pairwise_map (f := Prod.snd), List.zipIdx_map_snd]
  exact List.pairwise_lt_range'

/-- Later nodes have greater addresses. -/
theorem pairwise_addresses (h : ∀ m ∈ ms, m.node.addresses.Pairwise (· < ·)) :
    (addresses ms).Pairwise (· < ·) := by
  refine List.pairwise_flatMap.2 ⟨fun m hm => ?_, (pairwise_zipIdx ms).imp fun hlt a ha b hb => ?_⟩
  · refine List.pairwise_map.2 ((h m.1 (List.fst_mem_of_mem_zipIdx hm)).imp fun hlt => ?_)
    exact List.cons_lt_cons_iff.2 (.inr ⟨rfl, hlt⟩)
  · obtain ⟨a, -, rfl⟩ := List.mem_map.1 ha
    obtain ⟨b, -, rfl⟩ := List.mem_map.1 hb
    exact List.cons_lt_cons_iff.2 (.inl hlt)

/-- Going through nodes is going through each of them from where it is. -/
theorem tour_eq_flatMap_zipIdx (descends : Sighting τ ν → Bool) (ms : List (Sighting τ ν)) :
    tour descends [] ms = ms.zipIdx.flatMap fun m =>
      (m.1.node.preorder (fun x => descends (x.under m.1.path)) []).map (·.under m.1.path) := by
  conv_lhs => rw [tour, ← List.zipIdx_map_fst 0 ms, List.flatMap_map]
  refine List.flatMap_congr fun m _ => ?_
  rw [List.nil_append, ← Visit.preorder_append, List.append_nil]

theorem at?_comp_cons {m : Sighting τ ν × Nat} (hm : m ∈ ms.zipIdx) :
    at? ms ∘ (m.2 :: ·) = Option.map (·.under m.1.path) ∘ m.1.node.at? := by
  funext is
  simp only [Function.comp_apply, at?, List.mem_zipIdx_iff_getElem?.1 hm, Option.bind_some]

/-- What the addresses lead to are the nodes in order. -/
theorem map_at?_addresses
    (h : ∀ m ∈ ms, m.node.addresses.map m.node.at? = (m.node.preorder (fun _ => true) []).map some) :
    (addresses ms).map (at? ms) = (tour (fun _ => true) [] ms).map some := by
  rw [addresses, tour_eq_flatMap_zipIdx, List.map_flatMap, List.map_flatMap]
  refine List.flatMap_congr fun m hm => ?_
  rw [List.map_map, at?_comp_cons hm, ← List.map_map, h m.1 (List.fst_mem_of_mem_zipIdx hm),
    List.map_map, List.map_map]
  rfl

end Sighting

namespace Visit

theorem addresses_eq (n : Visit τ ν) : n.addresses = [] :: Sighting.addresses n.parts := by
  rw [addresses, Sighting.addresses]
  exact congrArg _ (flatten_attach n.parts.zipIdx fun m => m.1.node.addresses.map (m.2 :: ·))

theorem pairwise_addresses (n : Visit τ ν) : n.addresses.Pairwise (· < ·) := by
  induction n using Visit.induct with
  | step n ih =>
    rw [addresses_eq, List.pairwise_cons]
    refine ⟨fun a ha => ?_, Sighting.pairwise_addresses ih⟩
    cases a with
    | nil => exact absurd ha Sighting.nil_notMem_addresses
    | cons i is => exact List.nil_lt_cons i is

theorem mem_addresses {n : Visit τ ν} {a : List Nat} : a ∈ n.addresses ↔ (n.at? a).isSome := by
  induction a generalizing n with
  | nil =>
    rw [addresses_eq]
    simp [at?]
  | cons i is ih =>
    rw [addresses_eq, List.mem_cons, Sighting.cons_mem_addresses_iff fun _ => ih]
    simp [at?, Sighting.at?]

theorem map_at?_addresses (n : Visit τ ν) :
    n.addresses.map n.at? = (n.preorder (fun _ => true) []).map some := by
  induction n using Visit.induct with
  | step n ih =>
    have hat : (Sighting.addresses n.parts).map n.at? =
        (Sighting.addresses n.parts).map (Sighting.at? n.parts) := by
      refine List.map_congr_left fun a ha => ?_
      cases a with
      | nil => exact absurd ha Sighting.nil_notMem_addresses
      | cons i is => rfl
    rw [addresses_eq, preorder_eq, if_pos rfl, List.map_cons, List.map_cons, hat,
      Sighting.map_at?_addresses ih]
    rfl

end Visit

theorem Sighting.mem_addresses {ms : List (Sighting τ ν)} {a : List Nat} :
    a ∈ addresses ms ↔ (at? ms a).isSome := by
  cases a with
  | nil => simp [at?, nil_notMem_addresses]
  | cons i is => exact cons_mem_addresses_iff fun _ => Visit.mem_addresses

/-- Going through nodes and what is below them meets the node at every address, once, in the order of
the addresses: a node before what is below it, and what is below it before the node after it. -/
theorem Sighting.tour_lists_once (ms : List (Sighting τ ν)) :
    ∃ addresses : List (List Nat), addresses.Pairwise (· < ·) ∧
      (∀ a, a ∈ addresses ↔ (at? ms a).isSome) ∧
      addresses.map (at? ms) = (tour (fun _ => true) [] ms).map some :=
  ⟨addresses ms, pairwise_addresses fun m _ => m.node.pairwise_addresses, fun _ => mem_addresses,
    map_at?_addresses fun m _ => m.node.map_at?_addresses⟩

/-- The modules of the interface of a package. -/
def PackageSpecification.parts (p : PackageSpecification τ) : List (Sighting τ ν) :=
  named "modules" (·.name.text) (fun e => .moduleSpecification e.name e.specification) p.modules

/-- The modules of a package. -/
def PackageDefinition.parts (p : PackageDefinition τ ν) : List (Sighting τ ν) :=
  named "modules" (·.name.text) (fun e => .moduleDefinition e.name e.definition) p.modules

/-- The modules of the interface of a dependency, under its name. -/
def Dependency.parts (d : Dependency τ) : List (Sighting τ ν) :=
  d.specification.parts.map (·.under [d.name.text])

/-- The modules of a distribution: those of the interfaces it depends on, and then its own. -/
def Distribution.parts (d : Distribution τ ν) : List (Sighting τ ν) :=
  (d.dependencies.flatMap Dependency.parts).map (·.under ["dependencies"]) ++
    match d with
    | .library _ _ p | .application _ _ p _ => p.parts.map (·.under ["def"])
    | .specs _ _ p => p.parts.map (·.under ["spec"])

/-- What can be walked as a whole. -/
inductive Root (τ ν : Type) where
  | document (document : Document τ ν)
  | type (type : TypeExpr τ)
  | value (value : Value τ ν)

namespace Root

/-- The same with its attributes replaced. -/
def mapAttrs (f : τ → τ') (g : ν → ν') : Root τ ν → Root τ' ν'
  | .document d => .document (d.mapAttrs f g)
  | .type t => .type (t.mapAttrs f)
  | .value v => .value (v.mapAttrs f g)

/-- The outermost nodes. -/
def parts : Root τ ν → List (Sighting τ ν)
  | .document d => d.distribution.parts.map (·.under ["distribution"])
  | .type t => [⟨[], .type t⟩]
  | .value v => [⟨[], .value v⟩]

/-- All nodes at their positions, each before its parts. -/
def nodes (r : Root τ ν) : List (Sighting τ ν) := Sighting.tour (fun _ => true) [] r.parts

end Root

end IrDialects
