import IrDialects.Proofs.Traverse.Counting

/-!
# Walks that are cut short

A visitor may leave out what is below some nodes, and it may fail. It then visits the nodes of the tree
in order without those below the nodes at which it turned back, as far as the node where it failed.
-/

namespace IrDialects

variable {τ ν σ ε : Type}

namespace Visit

/-- Whether an address passes, before its end, a node that satisfies `prune`. -/
def isBelow (prune : Sighting τ ν → Bool) (n : Visit τ ν) (a : List Nat) : Bool :=
  (List.range a.length).any fun i => (n.at? (a.take i)).any prune

/-- A node and what is below it, in order, without what is below nodes that satisfy `prune`. -/
def remaining (prune : Sighting τ ν → Bool) (n : Visit τ ν) : List (Sighting τ ν) :=
  (n.addresses.filter fun a => !n.isBelow prune a).filterMap n.at?

end Visit

namespace Sighting

/-- The same among several nodes and what is below them. -/
def isBelow (prune : Sighting τ ν → Bool) (ms : List (Sighting τ ν)) (a : List Nat) : Bool :=
  (List.range a.length).any fun i => (at? ms (a.take i)).any prune

/-- Several nodes and what is below them, in order, without what is below nodes that satisfy
`prune`. -/
def remaining (prune : Sighting τ ν → Bool) (ms : List (Sighting τ ν)) : List (Sighting τ ν) :=
  ((addresses ms).filter fun a => !isBelow prune ms a).filterMap (at? ms)

variable {prune : Sighting τ ν → Bool} {ms : List (Sighting τ ν)}

/-- An address that leads to a part of a node, or below it, passes the node itself. -/
theorem isBelow_cons_parts (n : Visit τ ν) (i : Nat) (is : List Nat) :
    n.isBelow prune (i :: is) = (prune ⟨[], n⟩ || isBelow prune n.parts (i :: is)) := by
  simp [Visit.isBelow, isBelow, List.range_succ_eq_map, List.any_map, Function.comp_def, Visit.at?,
    at?]

theorem isBelow_comp_cons {m : Sighting τ ν × Nat} (hm : m ∈ ms.zipIdx) :
    isBelow prune ms ∘ (m.2 :: ·) = m.1.node.isBelow fun x => prune (x.under m.1.path) := by
  funext is
  simp [Visit.isBelow, isBelow, List.range_succ_eq_map, List.any_map, Function.comp_def, at?,
    List.mem_zipIdx_iff_getElem?.1 hm, Option.any_map]

/-- Going through nodes without going on below those that satisfy `prune` leaves out what is below
these and nothing else. -/
theorem tour_not_eq_remaining (h : ∀ m ∈ ms, ∀ prune : Sighting τ ν → Bool,
      m.node.preorder (fun x => !prune x) [] = m.node.remaining prune) :
    tour (fun x => !prune x) [] ms = remaining prune ms := by
  rw [tour_eq_flatMap_zipIdx, remaining, addresses, List.filter_flatMap, List.filterMap_flatMap]
  refine List.flatMap_congr fun m hm => ?_
  have hbelow : (fun a => !isBelow prune ms a) ∘ (m.2 :: ·) =
      fun a => !m.1.node.isBelow (fun x => prune (x.under m.1.path)) a := by
    rw [← isBelow_comp_cons hm]
    rfl
  rw [h m.1 (List.fst_mem_of_mem_zipIdx hm), Visit.remaining, List.filter_map, hbelow,
    List.filterMap_map, at?_comp_cons hm, List.map_filterMap]
  rfl

end Sighting

/-- Going through a node and what is below it without going on below nodes that satisfy `prune` leaves
out what is below these and nothing else. -/
theorem Visit.preorder_not_eq_remaining (n : Visit τ ν) (prune : Sighting τ ν → Bool) :
    n.preorder (fun x => !prune x) [] = n.remaining prune := by
  induction n using Visit.induct generalizing prune with
  | step n ih =>
    have hcons : ∀ a ∈ Sighting.addresses n.parts,
        n.isBelow prune a = (prune ⟨[], n⟩ || Sighting.isBelow prune n.parts a) ∧
          n.at? a = Sighting.at? n.parts a := by
      intro a ha
      cases a with
      | nil => exact absurd ha Sighting.nil_notMem_addresses
      | cons i is => exact ⟨Sighting.isBelow_cons_parts n i is, rfl⟩
    have hroot (as : List (List Nat)) :
        (([] :: as).filter fun a => !n.isBelow prune a).filterMap n.at? =
          ⟨[], n⟩ :: (as.filter fun a => !n.isBelow prune a).filterMap n.at? := rfl
    rw [preorder_eq, remaining, addresses_eq, hroot, Sighting.tour_not_eq_remaining ih,
      List.filter_congr fun a ha => congrArg not (hcons a ha).1,
      List.filterMap_congr fun a ha => (hcons a (List.mem_of_mem_filter ha)).2]
    cases hprune : prune ⟨[], n⟩ <;> simp [Sighting.remaining]

namespace Root

/-- All nodes of a tree in order, without those below nodes that satisfy `prune`. -/
def remaining (prune : Sighting τ ν → Bool) (r : Root τ ν) : List (Sighting τ ν) :=
  Sighting.remaining prune r.parts

theorem tour_parts_eq_remaining (prune : Sighting τ ν → Bool) (r : Root τ ν) :
    Sighting.tour (fun m => !prune m) [] r.parts = r.remaining prune :=
  Sighting.tour_not_eq_remaining fun m _ => m.node.preorder_not_eq_remaining

/-- If no node satisfies `prune`, all nodes remain. -/
theorem remaining_false (r : Root τ ν) : r.remaining (fun _ => false) = r.nodes :=
  (r.tour_parts_eq_remaining fun _ => false).symm

/-- The nodes that remain are those that are not below a node that satisfies `prune`. -/
theorem mem_remaining {prune : Sighting τ ν → Bool} {r : Root τ ν} {m : Sighting τ ν} :
    m ∈ r.remaining prune ↔ ∃ a, Sighting.at? r.parts a = some m ∧
      ∀ i < a.length, ∀ x, Sighting.at? r.parts (a.take i) = some x → prune x = false := by
  have hmem {a : List Nat} (h : Sighting.at? r.parts a = some m) :
      a ∈ Sighting.addresses r.parts := Sighting.mem_addresses.2 (by simp [h])
  simp only [remaining, Sighting.remaining, List.mem_filterMap, List.mem_filter,
    Sighting.isBelow, Bool.not_eq_true', List.any_eq_false, List.mem_range, Option.any_eq_true]
  constructor
  · rintro ⟨a, ⟨-, hbelow⟩, hat⟩
    exact ⟨a, hat, fun i hi x hx => by simpa using fun hp => hbelow i hi ⟨x, hx, hp⟩⟩
  · rintro ⟨a, hat, hbelow⟩
    refine ⟨a, ⟨hmem hat, fun i hi => ?_⟩, hat⟩
    rintro ⟨x, hx, hp⟩
    exact Bool.noConfusion (hp.symm.trans (hbelow i hi x hx))

end Root

namespace Visitor

/-- The visitor knows the visits that it has made, goes on to the parts of a node unless the node
satisfies `prune`, and fails at the visit that comes after `k` others. -/
structure Cuts (v : Visitor τ ν σ ε) (made : σ → List (Sighting τ ν)) (prune : Sighting τ ν → Bool)
    (k : Nat) (e : Sighting τ ν → ε) : Prop where
  answers : ∀ n c s, (v.visit n c s).1 =
    if (made s).length = k then .error (e ⟨c.path, n⟩) else .ok (!prune ⟨c.path, n⟩)
  records : ∀ n c s, made (v.visit n c s).2 = made s ++ [⟨c.path, n⟩]

/-- Visits a node and forgets whether to go on. -/
def call (v : Visitor τ ν σ ε) (m : Sighting τ ν) : ExceptT ε (StateM σ) Unit :=
  ExceptT.mk fun s => Prod.map (Except.map fun _ => ()) id (v.visit m.node m.cursor s)

namespace Cuts

variable {v : Visitor τ ν σ ε} {made : σ → List (Sighting τ ν)} {prune : Sighting τ ν → Bool}
  {k : Nat} {e : Sighting τ ν → ε}

theorem does (h : v.Cuts made prune k e) : v.Does v.call fun m => !prune m := by
  intro n c s r s' hcall
  refine Walk.eq_map_of_prodMap (by rwa [← Sighting.cursor_mk_path c n]) fun {b} hb => ?_
  have hanswer := h.answers n c s
  rw [hb] at hanswer
  split at hanswer <;> cases hanswer
  rfl

/-- One visit is recorded, and it fails if it comes after `k` others. -/
theorem run_call (h : v.Cuts made prune k e) (m : Sighting τ ν) (s : σ) :
    ∃ s', (v.call m).run s = (if (made s).length = k then .error (e m) else .ok ⟨⟩, s') ∧
      made s' = made s ++ [m] := by
  have hanswer := h.answers m.node m.cursor s
  have hrecord := h.records m.node m.cursor s
  rw [m.path_cursor] at hanswer hrecord
  refine ⟨_, Prod.ext ?_ rfl, hrecord⟩
  show Except.map _ (v.visit m.node m.cursor s).1 = _
  rw [hanswer]
  split <;> rfl

/-- Visits that follow on from others end with the one that comes after `k`, if there are as many. -/
theorem run_forM (h : v.Cuts made prune k e) {j : Nat} (ms : List (Sighting τ ν)) {s : σ}
    (hj : (made s).length + j = k) :
    ∃ s', (forM ms v.call).run s = (ms[j]?.elim (.ok ⟨⟩) fun m => .error (e m), s') ∧
      made s' = made s ++ ms.take (j + 1) := by
  induction ms generalizing s j with
  | nil => exact ⟨s, rfl, by simp⟩
  | cons m ms ih =>
    obtain ⟨s₁, hcall, hmade⟩ := h.run_call m s
    rw [List.forM_cons]
    cases j with
    | zero =>
      rw [if_pos (by omega)] at hcall
      exact ⟨s₁, Walk.run_bind_of_error hcall, hmade⟩
    | succ j =>
      rw [if_neg (by omega)] at hcall
      have hlength : (made s₁).length + j = k := by
        rw [hmade, List.length_append, List.length_singleton]
        omega
      obtain ⟨s', hrun, hmade'⟩ := ih hlength
      refine ⟨s', (Walk.run_bind_of_ok hcall).trans hrun, ?_⟩
      rw [hmade', hmade, List.append_assoc]
      rfl

end Cuts

/-- A visitor that turns back at the nodes that satisfy `prune` and fails after `k` visits makes the
first `k + 1` of the visits to all nodes in order, without those below nodes that satisfy `prune`, or
all of them if there are no more than `k`. Its failure is that of the walk, there is none if it makes
no more than `k` visits, and the walk ends at the root in every case. -/
theorem visits_until_cut {v : Visitor τ ν σ ε} {made : σ → List (Sighting τ ν)}
    {prune : Sighting τ ν → Bool} {k : Nat} {e : Sighting τ ν → ε} (h : v.Cuts made prune k e)
    (r : Root τ ν) {s : σ} (hs : made s = []) :
    ∃ s', (v.root r).runFrom s =
        ((r.remaining prune)[k]?.elim (.ok ()) fun m => .error (e m), {}, s') ∧
      made s' = (r.remaining prune).take (k + 1) := by
  have hdoes : v.Does v.call fun m => !prune m := h.does
  -- The walk is reduced to the calls in order, and those are cut by induction on their list.
  obtain ⟨s', hrun, hmade⟩ := h.run_forM (j := k) (r.remaining prune) (s := s) (by simp [hs])
  rw [hs, List.nil_append] at hmade
  rw [← r.tour_parts_eq_remaining] at hrun
  refine ⟨s', ((hdoes.root r).run (c := {}) hrun).trans ?_, hmade⟩
  rw [r.tour_parts_eq_remaining]
  cases (r.remaining prune)[k]? <;> rfl

/-- The visitor that writes down its visits, goes on unless a node satisfies `prune`, and fails at the
visit after the first `k`. -/
def cutting (prune : Sighting τ ν → Bool) (k : Nat) (e : ε) :
    Visitor τ ν (List (Sighting τ ν)) ε where
  visit n c log :=
    (if log.length = k then .error e else .ok (!prune ⟨c.path, n⟩), log ++ [⟨c.path, n⟩])

theorem cuts_cutting (prune : Sighting τ ν → Bool) (k : Nat) (e : ε) :
    (cutting prune k e).Cuts id prune k fun _ => e :=
  ⟨fun _ _ _ => rfl, fun _ _ _ => rfl⟩

/-- What is visited without the parts of definitions. -/
theorem remaining_boundHole : (Root.value boundHole).remaining (·.node.kind = .valueEntry) =
    [⟨[], .value boundHole⟩,
      ⟨["definition"], .valueDefinition ⟨["x"]⟩
        (.mk [] (.unit ()) (.expression (.hole () .draft (some (.unit ())))))⟩,
      ⟨["body"], .value (.lambda () (.as () (.wildcard ()) ⟨["y"]⟩) (.variable () ⟨["x"]⟩))⟩,
      ⟨["body", "pattern"], .pattern (.as () (.wildcard ()) ⟨["y"]⟩)⟩,
      ⟨["body", "pattern", "pattern"], .pattern (.wildcard ())⟩,
      ⟨["body", "body"], .value (.variable () ⟨["x"]⟩)⟩] := by
  rw [← Root.tour_parts_eq_remaining]
  simp [Root.parts, boundHole, Visit.preorder_eq, Visit.parts, Value.parts, Pattern.parts, Visit.kind]

/-- A visitor that leaves out the parts of definitions and fails at its fourth visit fails inside what
comes after the definition. -/
theorem cutting_boundHole :
    (cutting (τ := Unit) (ν := Unit) (·.node.kind = .valueEntry) 3 "stop").Cuts id
        (·.node.kind = .valueEntry) 3 (fun _ => "stop") ∧
      ∃ log, ((cutting (·.node.kind = .valueEntry) 3 "stop").root (.value boundHole)).runFrom [] =
          (.error "stop", {}, log) ∧
        log.map (·.path) = [[], ["definition"], ["body"], ["body", "pattern"]] := by
  have hcuts := cuts_cutting (τ := Unit) (ν := Unit) (·.node.kind = .valueEntry) 3 "stop"
  obtain ⟨log, hrun, hlog⟩ := visits_until_cut hcuts (.value boundHole) (s := []) rfl
  rw [remaining_boundHole] at hrun hlog
  exact ⟨hcuts, log, hrun, congrArg (List.map (·.path)) hlog⟩

end Visitor

end IrDialects
