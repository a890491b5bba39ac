import IrDialects.Document.Conversion
import IrDialects.Proofs.Traverse.Rebuilding
import IrDialects.Proofs.Traverse.Visits
import IrDialects.Proofs.Tree.Replacement
import IrDialects.Traverse.Stats

/-!
# How many nodes there are

Callbacks are called for every node of a tree once, so the counts are those of the nodes in order.
Replacing attributes replaces each node by one of the same kind at the same position and changes no
count.
-/

namespace IrDialects

variable {τ ν τ' ν' σ ε : Type}

/-- The kinds of nodes that are told apart when they are counted. -/
inductive Visit.Kind where
  | module
  | typeEntry
  | valueEntry
  | type
  | pattern
  | value
deriving DecidableEq

/-- What a node counts as. -/
def Visit.kind : Visit τ ν → Visit.Kind
  | .moduleDefinition .. | .moduleSpecification .. => .module
  | .typeDefinition .. | .typeSpecification .. => .typeEntry
  | .valueDefinition .. | .valueSpecification .. => .valueEntry
  | .type _ => .type
  | .pattern _ => .pattern
  | .value _ => .value

namespace Sighting

/-- The number of nodes of a kind. -/
def number (ms : List (Sighting τ ν)) (k : Visit.Kind) : Nat := ms.countP (·.node.kind = k)

@[simp] theorem number_cons (m : Sighting τ ν) (ms : List (Sighting τ ν)) (k : Visit.Kind) :
    number (m :: ms) k = number ms k + if m.node.kind = k then 1 else 0 := by
  simp [number, List.countP_cons]

@[simp] theorem number_append (ms ms' : List (Sighting τ ν)) (k : Visit.Kind) :
    number (ms ++ ms') k = number ms k + number ms' k :=
  List.countP_append

end Sighting

namespace Stats

/-- The numbers of nodes of each kind. -/
def total (ms : List (Sighting τ ν)) : Stats where
  modules := Sighting.number ms .module
  types := Sighting.number ms .typeEntry
  values := Sighting.number ms .valueEntry
  typeNodes := Sighting.number ms .type
  patternNodes := Sighting.number ms .pattern
  valueNodes := Sighting.number ms .value

theorem neverFails_counter : (counter : Observer τ ν Stats Empty).NeverFails := by
  constructor <;> rintro _ ⟨⟩ <;> intros <;> rfl

/-- Counting on from some counts adds the numbers of nodes of each kind. -/
theorem foldl_counter : ∀ (ms : List (Sighting τ ν)) (s : Stats),
    ms.foldl counter.told s =
      { modules := s.modules + (total ms).modules
        types := s.types + (total ms).types
        values := s.values + (total ms).values
        typeNodes := s.typeNodes + (total ms).typeNodes
        patternNodes := s.patternNodes + (total ms).patternNodes
        valueNodes := s.valueNodes + (total ms).valueNodes }
  | [], _ => rfl
  | m :: ms, s => by
    rw [List.foldl_cons, foldl_counter ms]
    obtain ⟨path, n⟩ := m
    cases n <;> simp +arith [total, Observer.told, counter, Visit.kind]

theorem outcome_counter (r : Root τ ν) :
    ((counter.visitor.root r).outcome {}).2 = total r.nodes := by
  rw [Walk.outcome, Observer.runFrom_root neverFails_counter, foldl_counter]
  simp

theorem ofDocument_eq_total (d : Document τ ν) : ofDocument d = total (Root.document d).nodes :=
  outcome_counter (.document d)

theorem ofValue_eq_total (v : Value τ ν) : ofValue v = total (Root.value v).nodes :=
  outcome_counter (.value v)

end Stats

section Attributes

variable (f : τ → τ') (g : ν → ν')

/-- The node with its attributes replaced. -/
def Visit.mapAttrs : Visit τ ν → Visit τ' ν'
  | .moduleDefinition n m => .moduleDefinition n (m.mapAttrs f g)
  | .moduleSpecification n m => .moduleSpecification n (m.mapAttrs f)
  | .typeDefinition n d => .typeDefinition n (d.mapAttrs f)
  | .typeSpecification n s => .typeSpecification n (s.mapAttrs f)
  | .valueDefinition n d => .valueDefinition n (d.mapAttrs f g)
  | .valueSpecification n s => .valueSpecification n (s.mapAttrs f)
  | .type t => .type (t.mapAttrs f)
  | .pattern p => .pattern (p.mapAttrs g)
  | .value v => .value (v.mapAttrs f g)

@[simp] theorem Visit.kind_mapAttrs (n : Visit τ ν) : (n.mapAttrs f g).kind = n.kind := by
  cases n <;> rfl

/-- The node with its attributes replaced, where it was. -/
def Sighting.mapAttrs (m : Sighting τ ν) : Sighting τ' ν' := ⟨m.path, m.node.mapAttrs f g⟩

@[simp] theorem Sighting.mapAttrs_under (segments : List String) (m : Sighting τ ν) :
    (m.under segments).mapAttrs f g = (m.mapAttrs f g).under segments := rfl

theorem Sighting.number_mapAttrs (ms : List (Sighting τ ν)) (k : Visit.Kind) :
    number (ms.map (mapAttrs f g)) k = number ms k := by
  simp [number, List.countP_map, Function.comp_def, mapAttrs]

theorem Stats.total_mapAttrs (ms : List (Sighting τ ν)) :
    total (ms.map (Sighting.mapAttrs f g)) = total ms := by
  simp only [total, Sighting.number_mapAttrs]

namespace Sighting

variable {α β : Type} (segment : String) (node : α → Visit τ ν) (h : β → α)

theorem indexed_map (xs : List β) :
    indexed segment node (xs.map h) = indexed segment (fun x => node (h x)) xs := by
  simp [indexed, List.zipIdx_map]

theorem named_map (name : α → String) (xs : List β) :
    named segment name node (xs.map h) =
      named segment (fun x => name (h x)) (fun x => node (h x)) xs := by
  simp [named]

theorem map_indexed (xs : List α) : (indexed segment node xs).map (mapAttrs f g) =
    indexed segment (fun x => (node x).mapAttrs f g) xs := by
  simp [indexed, mapAttrs]

theorem map_named (name : α → String) (xs : List α) :
    (named segment name node xs).map (mapAttrs f g) =
      named segment name (fun x => (node x).mapAttrs f g) xs := by
  simp [named, mapAttrs]

theorem map_under (segments : List String) (ms : List (Sighting τ ν)) :
    (ms.map (·.under segments)).map (mapAttrs f g) =
      (ms.map (mapAttrs f g)).map (·.under segments) := by
  simp only [List.map_map, Function.comp_def, mapAttrs_under]

end Sighting

open Sighting (indexed_map named_map map_indexed map_named map_under)

theorem TypeExpr.parts_mapAttrs : ∀ t : TypeExpr τ,
    ((t.mapAttrs f).parts : List (Sighting τ' ν')) = t.parts.map (Sighting.mapAttrs f g)
  | .variable .. | .unit _ | .function .. => rfl
  | .reference .. | .tuple .. => by
    simp only [mapAttrs, parts, mapAttrsList_eq_map, indexed_map, map_indexed, Visit.mapAttrs]
  | .record .. | .extensibleRecord .. => by
    simp only [mapAttrs, parts, mapAttrsFields_eq_map, named_map, map_named, Visit.mapAttrs]

theorem Pattern.parts_mapAttrs : ∀ p : Pattern ν,
    ((p.mapAttrs g).parts : List (Sighting τ' ν')) = p.parts.map (Sighting.mapAttrs f g)
  | .wildcard _ | .emptyList _ | .literal .. | .unit _ | .as .. | .headTail .. => rfl
  | .tuple .. | .constructor .. => by
    simp only [mapAttrs, parts, mapAttrsList_eq_map, indexed_map, map_indexed, Visit.mapAttrs]

theorem Value.parts_mapAttrs : ∀ v : Value τ ν,
    (v.mapAttrs f g).parts = v.parts.map (Sighting.mapAttrs f g)
  | .literal .. | .constructor .. | .variable .. | .reference .. | .fieldFunction .. | .unit _
  | .native .. | .external .. | .field .. | .apply .. | .lambda .. | .letDefinition ..
  | .destructure .. | .ifThenElse .. | .hole _ _ none | .hole _ _ (some _) => rfl
  | .tuple .. | .list .. => by
    simp only [mapAttrs, parts, mapAttrsList_eq_map, indexed_map, map_indexed, Visit.mapAttrs]
  | .record .. => by
    simp only [mapAttrs, parts, mapAttrsFields_eq_map, named_map, map_named, Visit.mapAttrs]
  | .letRecursion .. => by
    simp only [mapAttrs, parts, ValueDefinition.mapAttrsBindings_eq_map, List.map_append, named_map,
      map_named, Visit.mapAttrs]
    rfl
  | .patternMatch .. => by
    simp only [mapAttrs, parts, mapAttrsCases_eq_map, List.zipIdx_map, List.flatMap_map,
      List.map_cons, List.map_map, List.map_flatMap]
    rfl
  | .updateRecord .. => by
    simp only [mapAttrs, parts, mapAttrsFields_eq_map, List.map_cons, named_map, map_named,
      Visit.mapAttrs]
    rfl

theorem ValueDefinition.parts_mapAttrs (d : ValueDefinition τ ν) :
    (d.mapAttrs f g).parts = d.parts.map (Sighting.mapAttrs f g) := by
  cases d with
  | mk is t b =>
    have hbody : (b.mapAttrs f g).parts = b.parts.map (Sighting.mapAttrs f g) := by cases b <;> rfl
    simp only [mapAttrs, parts, inputs, output, body, hbody, named_map, map_named, List.map_append,
      List.map_cons]
    rfl

theorem Constructor.parts_mapAttrs (cs : List (Constructor τ)) :
    ((cs.map (mapAttrs f)).flatMap parts : List (Sighting τ' ν')) =
      (cs.flatMap parts).map (Sighting.mapAttrs f g) := by
  rw [List.flatMap_map, List.map_flatMap]
  refine List.flatMap_congr fun c _ => ?_
  simp only [mapAttrs, parts, TypeExpr.mapAttrsFields_eq_map, named_map, map_under, map_named,
    Visit.mapAttrs]

theorem TypeDefinition.parts_mapAttrs : ∀ d : TypeDefinition τ,
    ((d.mapAttrs f).parts : List (Sighting τ' ν')) = d.parts.map (Sighting.mapAttrs f g)
  | .synonym .. | .incomplete _ _ none | .incomplete _ _ (some _) => rfl
  | .custom .. => by simp only [mapAttrs, parts, map_under, Constructor.parts_mapAttrs f g]

theorem TypeSpecification.parts_mapAttrs : ∀ s : TypeSpecification τ,
    ((s.mapAttrs f).parts : List (Sighting τ' ν')) = s.parts.map (Sighting.mapAttrs f g)
  | .synonym .. | .abstract _ => rfl
  | .custom .. => by simp only [mapAttrs, parts, map_under, Constructor.parts_mapAttrs f g]

theorem ValueSpecification.parts_mapAttrs (s : ValueSpecification τ) :
    ((s.mapAttrs f).parts : List (Sighting τ' ν')) = s.parts.map (Sighting.mapAttrs f g) := by
  simp only [mapAttrs, parts, TypeExpr.mapAttrsFields_eq_map, named_map, map_named, List.map_append]
  rfl

theorem ModuleDefinition.parts_mapAttrs (m : ModuleDefinition τ ν) :
    (m.mapAttrs f g).parts = m.parts.map (Sighting.mapAttrs f g) := by
  simp only [mapAttrs, parts, named_map, map_named, List.map_append]
  rfl

theorem ModuleSpecification.parts_mapAttrs (m : ModuleSpecification τ) :
    ((m.mapAttrs f).parts : List (Sighting τ' ν')) = m.parts.map (Sighting.mapAttrs f g) := by
  simp only [mapAttrs, parts, named_map, map_named, List.map_append]
  rfl

/-- Replacing the attributes of a node replaces those of its parts. -/
theorem Visit.parts_mapAttrs : ∀ n : Visit τ ν,
    (n.mapAttrs f g).parts = n.parts.map (Sighting.mapAttrs f g)
  | .moduleDefinition _ m => m.parts_mapAttrs f g
  | .moduleSpecification _ m => m.parts_mapAttrs f g
  | .typeDefinition _ d => d.parts_mapAttrs f g
  | .typeSpecification _ s => s.parts_mapAttrs f g
  | .valueDefinition _ d => d.parts_mapAttrs f g
  | .valueSpecification _ s => s.parts_mapAttrs f g
  | .type t => t.parts_mapAttrs f g
  | .pattern p => p.parts_mapAttrs f g
  | .value v => v.parts_mapAttrs f g

/-- The nodes below a node whose attributes are replaced are those below it, with theirs replaced. -/
theorem Visit.preorder_mapAttrs (path : List String) (n : Visit τ ν) :
    (n.mapAttrs f g).preorder (fun _ => true) path =
      (n.preorder (fun _ => true) path).map (Sighting.mapAttrs f g) := by
  induction n using Visit.induct generalizing path with
  | step n ih =>
    rw [preorder_eq, preorder_eq, if_pos rfl, if_pos rfl, parts_mapAttrs, List.map_cons,
      Sighting.tour, Sighting.tour, List.flatMap_map, List.map_flatMap]
    exact congrArg _ (List.flatMap_congr fun m hm => ih m hm _)

theorem Sighting.tour_mapAttrs (path : List String) (ms : List (Sighting τ ν)) :
    tour (fun _ => true) path (ms.map (mapAttrs f g)) =
      (tour (fun _ => true) path ms).map (mapAttrs f g) := by
  rw [tour, tour, List.flatMap_map, List.map_flatMap]
  exact List.flatMap_congr fun m _ => m.node.preorder_mapAttrs f g _

theorem PackageDefinition.parts_mapAttrs (p : PackageDefinition τ ν) :
    (p.mapAttrs f g).parts = p.parts.map (Sighting.mapAttrs f g) := by
  simp only [mapAttrs, parts, named_map, map_named]
  rfl

theorem PackageSpecification.parts_mapAttrs (p : PackageSpecification τ) :
    ((p.mapAttrs f).parts : List (Sighting τ' ν')) = p.parts.map (Sighting.mapAttrs f g) := by
  simp only [mapAttrs, parts, named_map, map_named]
  rfl

theorem Dependency.parts_mapAttrs (ds : List (Dependency τ)) :
    ((ds.map (mapAttrs f)).flatMap parts : List (Sighting τ' ν')) =
      (ds.flatMap parts).map (Sighting.mapAttrs f g) := by
  rw [List.flatMap_map, List.map_flatMap]
  refine List.flatMap_congr fun d _ => ?_
  simp only [mapAttrs, parts, map_under, PackageSpecification.parts_mapAttrs f g]

theorem Distribution.parts_mapAttrs : ∀ d : Distribution τ ν,
    (d.mapAttrs f g).parts = d.parts.map (Sighting.mapAttrs f g)
  | .library .. | .application .. => by
    simp only [mapAttrs, parts, dependencies, List.map_append, map_under,
      Dependency.parts_mapAttrs f g, PackageDefinition.parts_mapAttrs f g]
  | .specs .. => by
    simp only [mapAttrs, parts, dependencies, List.map_append, map_under,
      Dependency.parts_mapAttrs f g, PackageSpecification.parts_mapAttrs f g]

theorem Root.parts_mapAttrs : ∀ r : Root τ ν,
    (r.mapAttrs f g).parts = r.parts.map (Sighting.mapAttrs f g)
  | .document d => by
    simp only [mapAttrs, parts, Document.mapAttrs, map_under, Distribution.parts_mapAttrs f g]
  | .type _ | .value _ => rfl

/-- Replacing attributes replaces every node by a node of the same kind at the same position. -/
theorem Root.nodes_mapAttrs (r : Root τ ν) :
    (r.mapAttrs f g).nodes = r.nodes.map (Sighting.mapAttrs f g) := by
  rw [nodes, nodes, parts_mapAttrs, Sighting.tour_mapAttrs]

end Attributes

namespace Stats

variable (f : τ → τ') (g : ν → ν')

@[simp] theorem ofDocument_mapAttrs (d : Document τ ν) :
    ofDocument (d.mapAttrs f g) = ofDocument d := by
  have hnodes := Root.nodes_mapAttrs f g (.document d)
  rw [Root.mapAttrs] at hnodes
  rw [ofDocument_eq_total, ofDocument_eq_total, hnodes, total_mapAttrs]

@[simp] theorem ofValue_mapAttrs (v : Value τ ν) : ofValue (v.mapAttrs f g) = ofValue v := by
  have hnodes := Root.nodes_mapAttrs f g (.value v)
  rw [Root.mapAttrs] at hnodes
  rw [ofValue_eq_total, ofValue_eq_total, hnodes, total_mapAttrs]

end Stats

/-- The observer whose callbacks write down the node they are called for and its position. -/
def Observer.noting : Observer τ ν (List (Sighting τ ν)) ε where
  moduleDefinition := some fun c n d s => (.ok (), s ++ [⟨c.path, .moduleDefinition n d⟩])
  moduleSpecification := some fun c n d s => (.ok (), s ++ [⟨c.path, .moduleSpecification n d⟩])
  typeDefinition := some fun c n d s => (.ok (), s ++ [⟨c.path, .typeDefinition n d⟩])
  typeSpecification := some fun c n d s => (.ok (), s ++ [⟨c.path, .typeSpecification n d⟩])
  valueDefinition := some fun c n d s => (.ok (), s ++ [⟨c.path, .valueDefinition n d⟩])
  valueSpecification := some fun c n d s => (.ok (), s ++ [⟨c.path, .valueSpecification n d⟩])
  type := some fun c t s => (.ok (), s ++ [⟨c.path, .type t⟩])
  pattern := some fun c p s => (.ok (), s ++ [⟨c.path, .pattern p⟩])
  value := some fun c v s => (.ok (), s ++ [⟨c.path, .value v⟩])

namespace Observer

/-- Callbacks that write something down for each node write it down for all nodes in order. -/
theorem foldl_told {α : Type} {o : Observer τ ν (List α) ε} {f : Sighting τ ν → α}
    (hf : ∀ s m, o.told s m = s ++ [f m]) (ms : List (Sighting τ ν)) :
    ms.foldl o.told [] = ms.map f := by
  have htold : o.told = fun s m => s ++ [f m] := funext₂ hf
  rw [htold, List.foldl_append_eq_append, ← List.flatMap_def, List.map_eq_flatMap, List.nil_append]

theorem neverFails_noting : (noting : Observer τ ν _ ε).NeverFails := by
  constructor <;> rintro _ ⟨⟩ <;> intros <;> rfl

theorem told_noting (s : List (Sighting τ ν)) (m : Sighting τ ν) :
    (noting : Observer τ ν _ ε).told s m = s ++ [m] := by
  obtain ⟨path, node⟩ := m
  cases node <;> simp [told, noting, Sighting.cursor, Cursor.path]

theorem runFrom_noting (r : Root τ ν) :
    ((noting : Observer τ ν _ ε).visitor.root r).runFrom [] = (.ok (), {}, r.nodes) := by
  rw [runFrom_root neverFails_noting, foldl_told told_noting, List.map_id']

end Observer

/-- Callbacks that never fail are called for all nodes of a tree in order, each for the nodes of its kind
and at their positions: for the node at each address once, where a node comes before its parts and its
parts come one after the other with all that is below them. So the counts are the numbers of the nodes
of each kind, and neither a conversion nor any other replacement of attributes changes them. -/
theorem Observer.called_once_for_each_node {o : Observer τ ν σ ε} (h : o.NeverFails) (r : Root τ ν)
    (s : σ) :
    (o.visitor.root r).runFrom s = (.ok (), {}, r.nodes.foldl o.told s) ∧
    ((noting : Observer τ ν _ ε).visitor.root r).runFrom [] = (.ok (), {}, r.nodes) ∧
    (∃ addresses : List (List Nat), addresses.Pairwise (· < ·) ∧
      (∀ a, a ∈ addresses ↔ (Sighting.at? r.parts a).isSome) ∧
      addresses.map (Sighting.at? r.parts) = r.nodes.map some) ∧
    (∀ d : Document τ ν, Stats.ofDocument d = Stats.total (Root.document d).nodes) ∧
    (∀ v : Value τ ν, Stats.ofValue v = Stats.total (Root.value v).nodes) ∧
    (∀ d : ClassicDocument, Stats.ofDocument (Convert.toV4 d) = Stats.ofDocument d) ∧
    (∀ d : V4Document, Stats.ofDocument (Convert.toClassic d) = Stats.ofDocument d) ∧
    (∀ v : ClassicValue, Stats.ofValue (Convert.valueToV4 v) = Stats.ofValue v) ∧
    (∀ v : V4Value, Stats.ofValue (Convert.valueToClassic v) = Stats.ofValue v) ∧
    ∀ {τ' ν' σ' ε' : Type} (f : τ → τ') (g : ν → ν') (s' : σ'),
      (∀ d : Document τ ν, ∃ d', Stats.ofDocument d' = Stats.ofDocument d ∧
        ((Editor.replacing f g : Editor _ _ _ _ σ' ε').document d).runFrom s' = (.ok d', {}, s')) ∧
      ∀ v : Value τ ν, ∃ v', Stats.ofValue v' = Stats.ofValue v ∧
        ((Editor.replacing f g : Editor _ _ _ _ σ' ε').value v).runFrom s' = (.ok v', {}, s') := by
  refine ⟨runFrom_root h r s, runFrom_noting r, Sighting.tour_lists_once r.parts,
    Stats.ofDocument_eq_total, Stats.ofValue_eq_total, fun d => Stats.ofDocument_mapAttrs _ _ d,
    fun d => Stats.ofDocument_mapAttrs _ _ d, fun v => Stats.ofValue_mapAttrs _ _ v,
    fun v => Stats.ofValue_mapAttrs _ _ v, fun f g s' => ⟨fun d => ?_, fun v => ?_⟩⟩
  · refine ⟨d.mapAttrs f g, Stats.ofDocument_mapAttrs f g d, ?_⟩
    rw [(Editor.rebuilds_replacing f g).document]
    rfl
  · refine ⟨v.mapAttrs f g, Stats.ofValue_mapAttrs f g v, ?_⟩
    rw [(Editor.rebuilds_replacing f g).value]
    rfl

/-- The observer that writes down what the nodes are counted as and where they are. -/
def Observer.placing : Observer Unit Unit (List (Visit.Kind × String)) Empty where
  moduleDefinition := some fun c _ _ s => (.ok (), s ++ [(.module, c.text)])
  moduleSpecification := some fun c _ _ s => (.ok (), s ++ [(.module, c.text)])
  typeDefinition := some fun c _ _ s => (.ok (), s ++ [(.typeEntry, c.text)])
  typeSpecification := some fun c _ _ s => (.ok (), s ++ [(.typeEntry, c.text)])
  valueDefinition := some fun c _ _ s => (.ok (), s ++ [(.valueEntry, c.text)])
  valueSpecification := some fun c _ _ s => (.ok (), s ++ [(.valueEntry, c.text)])
  type := some fun c _ s => (.ok (), s ++ [(.type, c.text)])
  pattern := some fun c _ s => (.ok (), s ++ [(.pattern, c.text)])
  value := some fun c _ s => (.ok (), s ++ [(.value, c.text)])

/-- A definition without arguments whose body is a hole that should have the unit type. -/
def boundHole : Value Unit Unit :=
  .letDefinition () ⟨["x"]⟩ (.mk [] (.unit ()) (.expression (.hole () .draft (some (.unit ())))))
    (.lambda () (.as () (.wildcard ()) ⟨["y"]⟩) (.variable () ⟨["x"]⟩))

/-- A module with a type and a value, and the interface of another with as much. -/
def cartAndBag : Document Unit Unit where
  version := .number 3
  distribution := .library ⟨[⟨["shop"]⟩]⟩
    [⟨⟨[⟨["base"]⟩]⟩, ⟨[⟨⟨[⟨["bag"]⟩]⟩, {
      types := [⟨⟨["item"]⟩, "", .abstract []⟩]
      values := [⟨⟨["size"]⟩, "", ⟨[], .unit ()⟩⟩] }⟩]⟩⟩]
    ⟨[⟨⟨[⟨["cart"]⟩]⟩, .everyone, {
      types := [⟨⟨["total"]⟩, .everyone, "", .synonym [] (.unit ())⟩]
      values := [⟨⟨["skip"]⟩, .everyone, "", .mk [] (.unit ()) (.expression boundHole)⟩] }⟩]⟩

theorem Observer.told_placing (s : List (Visit.Kind × String)) (m : Sighting Unit Unit) :
    placing.told s m = s ++ [(m.node.kind, m.cursor.text)] := by
  obtain ⟨path, node⟩ := m
  cases node <;> rfl

/-- The interface comes first, and the types of a module before its values. -/
theorem Observer.placing_cartAndBag : placing.NeverFails ∧
    (placing.visitor.root (.document cartAndBag)).runFrom [] = (.ok (), {},
      [(.module, "/distribution/dependencies/base/modules/bag"),
        (.typeEntry, "/distribution/dependencies/base/modules/bag/types/item"),
        (.valueEntry, "/distribution/dependencies/base/modules/bag/values/size"),
        (.type, "/distribution/dependencies/base/modules/bag/values/size/output"),
        (.module, "/distribution/def/modules/cart"),
        (.typeEntry, "/distribution/def/modules/cart/types/total"),
        (.type, "/distribution/def/modules/cart/types/total/type-exp"),
        (.valueEntry, "/distribution/def/modules/cart/values/skip"),
        (.type, "/distribution/def/modules/cart/values/skip/output-type"),
        (.value, "/distribution/def/modules/cart/values/skip/body"),
        (.valueEntry, "/distribution/def/modules/cart/values/skip/body/definition"),
        (.type, "/distribution/def/modules/cart/values/skip/body/definition/output-type"),
        (.value, "/distribution/def/modules/cart/values/skip/body/definition/body"),
        (.type, "/distribution/def/modules/cart/values/skip/body/definition/body/tpe"),
        (.value, "/distribution/def/modules/cart/values/skip/body/body"),
        (.pattern, "/distribution/def/modules/cart/values/skip/body/body/pattern"),
        (.pattern, "/distribution/def/modules/cart/values/skip/body/body/pattern/pattern"),
        (.value, "/distribution/def/modules/cart/values/skip/body/body/body")]) := by
  have hok : placing.NeverFails := by
    constructor <;> rintro _ ⟨⟩ <;> intros <;> rfl
  refine ⟨hok, (called_once_for_each_node hok (.document cartAndBag) []).1.trans ?_⟩
  rw [foldl_told told_placing]
  simp [Root.nodes, Root.parts, cartAndBag, boundHole, Distribution.parts, Distribution.dependencies,
    Dependency.parts, PackageDefinition.parts, PackageSpecification.parts, ModuleDefinition.parts,
    ModuleSpecification.parts, TypeDefinition.parts, TypeSpecification.parts, ValueDefinition.parts,
    ValueDefinition.inputs, ValueDefinition.output, ValueDefinition.body, ValueSpecification.parts,
    ValueBody.parts, Value.parts, Pattern.parts, TypeExpr.parts, Visit.parts, Visit.preorder_eq,
    Visit.kind, Sighting.named, Sighting.under, Sighting.cursor, Cursor.text, Cursor.path, Path.text,
    Name.kebab]

end IrDialects
