import IrDialects.Proofs.Traverse.Counting

/-!
# Where an editor asks

An editor that builds every node again asks where a visitor visits: about the same types, patterns and
values, at the same positions and in the same order. If it fails at one of them it has asked about
those before and about no other, and it is back at the root.
-/

namespace IrDialects

variable {τ ν τ' ν' σ ε : Type}

/-- The record of visits with one more, if it is a visit to a type, a pattern or a value. -/
def Sighting.record (log : List (Sighting τ ν)) (m : Sighting τ ν) : List (Sighting τ ν) :=
  if m.node.isNode then log ++ [m] else log

theorem Sighting.foldl_record (ms : List (Sighting τ ν)) (log : List (Sighting τ ν)) :
    ms.foldl record log = log ++ ms.filter (·.node.isNode) := by
  induction ms generalizing log with
  | nil => simp
  | cons m ms ih =>
    rw [List.foldl_cons, ih]
    cases hm : m.node.isNode <;> simp [record, hm]

/-- The visitor that writes down the types, patterns and values that it visits. -/
def Visitor.tracing : Visitor τ ν (List (Sighting τ ν)) Empty where
  visit n c log := (.ok true, Sighting.record log ⟨c.path, n⟩)

/-- The types, patterns and values that a visitor visits, in its order. -/
def Root.visited (x : Root τ ν) : List (Sighting τ ν) := ((Visitor.tracing.root x).outcome []).2

theorem Root.visited_eq_filter (x : Root τ ν) : x.visited = x.nodes.filter (·.node.isNode) := by
  rw [visited, Walk.outcome, Visitor.runFrom_root (f := Sighting.record) fun _ _ _ => rfl]
  exact Sighting.foldl_record x.nodes []

namespace Editor

/-- The editor builds every node again if it does not fail. -/
structure OnlyRebuilds (r : Editor τ ν τ' ν' σ ε) : Prop where
  onType : ∀ {t c s a s'}, r.onType t c s = (.ok a, s') → a = .rebuild
  onPattern : ∀ {p c s a s'}, r.onPattern p c s = (.ok a, s') → a = .rebuild
  onValue : ∀ {v c s a s'}, r.onValue v c s = (.ok a, s') → a = .rebuild

/-- Asks about a type, a pattern or a value and forgets the answer; there is no question elsewhere. -/
def ask (r : Editor τ ν τ' ν' σ ε) (m : Sighting τ ν) : ExceptT ε (StateM σ) Unit :=
  match m.node with
  | .type t => ExceptT.mk fun s => Prod.map (Except.map fun _ => ()) id (r.onType t m.cursor s)
  | .pattern p => ExceptT.mk fun s => Prod.map (Except.map fun _ => ()) id (r.onPattern p m.cursor s)
  | .value v => ExceptT.mk fun s => Prod.map (Except.map fun _ => ()) id (r.onValue v m.cursor s)
  | _ => pure ()

/-- The editor that writes down what it asks about. -/
def recorded (r : Editor τ ν τ' ν' σ ε) : Editor τ ν τ' ν' (List (Sighting τ ν) × σ) ε where
  typeAttrs := r.typeAttrs
  valueAttrs := r.valueAttrs
  onType t c s := Prod.map id (Prod.mk (s.1 ++ [⟨c.path, .type t⟩])) (r.onType t c s.2)
  onPattern p c s := Prod.map id (Prod.mk (s.1 ++ [⟨c.path, .pattern p⟩])) (r.onPattern p c s.2)
  onValue v c s := Prod.map id (Prod.mk (s.1 ++ [⟨c.path, .value v⟩])) (r.onValue v c s.2)

variable {r : Editor τ ν τ' ν' σ ε}

theorem ask_of_not_isNode {m : Sighting τ ν} (h : m.node.isNode = false) : r.ask m = pure () := by
  obtain ⟨path, n⟩ := m
  cases n <;> first | rfl | exact Bool.noConfusion h

theorem OnlyRebuilds.asks (h : r.OnlyRebuilds) : r.Asks r.ask where
  onType {t c _ _ _} hr :=
    Walk.eq_map_of_prodMap (by rwa [← Sighting.cursor_mk_path c (.type t)]) h.onType
  onPattern {p c _ _ _} hr :=
    Walk.eq_map_of_prodMap (by rwa [← Sighting.cursor_mk_path c (.pattern p)]) h.onPattern
  onValue {v c _ _ _} hr :=
    Walk.eq_map_of_prodMap (by rwa [← Sighting.cursor_mk_path c (.value v)]) h.onValue
  skips := ask_of_not_isNode

/-- Writing down what is asked about does not change the answers. -/
theorem run_ask_recorded {m : Sighting τ ν} (hm : m.node.isNode = true) (log : List (Sighting τ ν))
    (s : σ) : (r.recorded.ask m).run (log, s) =
      Prod.map id (Prod.mk (log ++ [m])) ((r.ask m).run s) := by
  obtain ⟨path, n⟩ := m
  cases n with
  | type | pattern | value =>
    simp only [ask, Editor.recorded, Sighting.path_cursor]
    rfl
  | moduleDefinition | moduleSpecification | typeDefinition | typeSpecification | valueDefinition
  | valueSpecification => cases hm

theorem OnlyRebuilds.recorded (h : r.OnlyRebuilds) : r.recorded.OnlyRebuilds where
  onType {t c s a _} hr :=
    have ha : (r.onType t c s.2).1 = .ok a := congrArg Prod.fst hr
    h.onType (Prod.ext ha rfl)
  onPattern {p c s a _} hr :=
    have ha : (r.onPattern p c s.2).1 = .ok a := congrArg Prod.fst hr
    h.onPattern (Prod.ext ha rfl)
  onValue {v c s a _} hr :=
    have ha : (r.onValue v c s.2).1 = .ok a := congrArg Prod.fst hr
    h.onValue (Prod.ext ha rfl)

/-- Where there is no question there is nothing to do. -/
theorem forM_ask_filter (ms : List (Sighting τ ν)) :
    forM ms r.ask = forM (ms.filter (·.node.isNode)) r.ask := by
  induction ms with
  | nil => rfl
  | cons m ms ih =>
    cases hm : m.node.isNode with
    | false =>
      rw [List.forM_cons, ask_of_not_isNode hm, pure_bind, ih, List.filter_cons_of_neg (by simp [hm])]
    | true =>
      rw [List.forM_cons, ih, List.filter_cons_of_pos (p := fun m : Sighting τ ν => m.node.isNode) hm,
        List.forM_cons]

variable {ms : List (Sighting τ ν)}

/-- What is written down while nothing fails is everything that is asked about. -/
theorem run_forM_recorded (hms : ∀ m ∈ ms, m.node.isNode = true) {log : List (Sighting τ ν)} {s s' : σ}
    (h : (forM ms r.ask).run s = (.ok ⟨⟩, s')) :
    (forM ms r.recorded.ask).run (log, s) = (.ok ⟨⟩, log ++ ms, s') := by
  induction ms generalizing log s with
  | nil =>
    cases h
    rw [List.append_nil]
    rfl
  | cons m ms ih =>
    rw [List.forM_cons] at h ⊢
    have hrecord := run_ask_recorded (r := r) (hms m (List.mem_cons_self ..)) log s
    rcases hask : (r.ask m).run s with ⟨a, s₁⟩
    rw [hask] at hrecord
    cases a with
    | error e =>
      rw [Walk.run_bind_of_error hask] at h
      cases h
    | ok =>
      rw [Walk.run_bind_of_ok hask] at h
      rw [Walk.run_bind_of_ok hrecord, ih (fun m' hm' => hms m' (List.mem_cons_of_mem _ hm')) h]
      simp

/-- What is written down when a question fails ends with that question. -/
theorem run_forM_recorded_of_error (hms : ∀ m ∈ ms, m.node.isNode = true) {k : Nat} (hk : k < ms.length)
    {s s₁ s₂ : σ} {e : ε} (hbefore : (forM (ms.take k) r.ask).run s = (.ok ⟨⟩, s₁))
    (hfails : (r.ask ms[k]).run s₁ = (.error e, s₂)) :
    (forM ms r.recorded.ask).run ([], s) = (.error e, ms.take (k + 1), s₂) := by
  have hsplit : ms = ms.take k ++ ms[k] :: ms.drop (k + 1) := by simp
  have hok : (forM (ms.take k) r.recorded.ask).run ([], s) = (.ok ⟨⟩, [] ++ ms.take k, s₁) :=
    run_forM_recorded (fun m hm => hms m (List.mem_of_mem_take hm)) hbefore
  have hrecord := run_ask_recorded (r := r) (hms _ (List.getElem_mem hk)) (ms.take k) s₁
  rw [hfails] at hrecord
  conv_lhs => rw [hsplit, List.forM_append, List.forM_cons]
  rw [Walk.run_bind_of_ok hok, List.nil_append, Walk.run_bind_of_error hrecord,
    List.take_succ_eq_append_getElem hk]

/-- An editor that builds every node again asks about the types, patterns and values that a visitor
visits, in the same order and at the same positions. If one of the questions fails, that question is
the last one, and its failure is that of the walk, which ends at the root. -/
theorem asks_where_visited (h : r.OnlyRebuilds) (x : Root τ ν) (s : σ) :
    (∀ s', (forM x.visited r.ask).run s = (.ok ⟨⟩, s') →
      (r.recorded.root x).runFrom ([], s) =
        (.ok (x.mapAttrs r.typeAttrs r.valueAttrs), {}, x.visited, s')) ∧
    ∀ (k : Nat) (hk : k < x.visited.length) (s₁ s₂ : σ) (e : ε),
      (forM (x.visited.take k) r.ask).run s = (.ok ⟨⟩, s₁) →
      (r.ask x.visited[k]).run s₁ = (.error e, s₂) →
      (r.recorded.root x).runFrom ([], s) = (.error e, {}, x.visited.take (k + 1), s₂) := by
  have hroot := h.recorded.asks.root x
  have hall : ∀ m ∈ x.visited, m.node.isNode = true := by
    rw [x.visited_eq_filter]
    exact fun m hm => (List.mem_filter.1 hm).2
  -- Nothing is asked at other sightings, so the calls are those at the nodes that are visited.
  have hcalls {log : List (Sighting τ ν)} {a : Except ε PUnit} {s' : σ}
      (hr : (forM x.visited r.recorded.ask).run ([], s) = (a, log, s')) :
      (r.recorded.root x).runFrom ([], s) =
        (a.map fun _ => x.mapAttrs r.typeAttrs r.valueAttrs, {}, log, s') := by
    rw [x.visited_eq_filter, ← forM_ask_filter] at hr
    exact hroot.run (c := {}) hr
  exact ⟨fun s' hok => hcalls (run_forM_recorded hall hok),
    fun k hk s₁ s₂ e hbefore hfails => hcalls (run_forM_recorded_of_error hall hk hbefore hfails)⟩

/-- The editor that keeps attributes and fails at the question after the first `limit`. -/
def failingAfter (limit : Nat) : Editor τ ν τ ν Nat String where
  typeAttrs := id
  valueAttrs := id
  onType _ _ s := if s = limit then (.error "stop", s) else (.ok .rebuild, s + 1)
  onPattern _ _ s := if s = limit then (.error "stop", s) else (.ok .rebuild, s + 1)
  onValue _ _ s := if s = limit then (.error "stop", s) else (.ok .rebuild, s + 1)

theorem onlyRebuilds_failingAfter (limit : Nat) :
    (failingAfter limit : Editor τ ν τ ν Nat String).OnlyRebuilds := by
  have hanswer {α : Type} {a : Edit α} {s s' : Nat}
      (h : (if s = limit then ((.error "stop" : Except String (Edit α)), s) else (.ok .rebuild, s + 1)) =
        (.ok a, s')) : a = .rebuild := by
    split at h <;> cases h
    rfl
  exact ⟨hanswer, hanswer, hanswer⟩

/-- The questions about a definition and its hole. -/
theorem visited_boundHole : (Root.value boundHole).visited =
    [⟨[], .value boundHole⟩, ⟨["definition", "output-type"], .type (.unit ())⟩,
      ⟨["definition", "body"], .value (.hole () .draft (some (.unit ())))⟩,
      ⟨["definition", "body", "tpe"], .type (.unit ())⟩,
      ⟨["body"], .value (.lambda () (.as () (.wildcard ()) ⟨["y"]⟩) (.variable () ⟨["x"]⟩))⟩,
      ⟨["body", "pattern"], .pattern (.as () (.wildcard ()) ⟨["y"]⟩)⟩,
      ⟨["body", "pattern", "pattern"], .pattern (.wildcard ())⟩,
      ⟨["body", "body"], .value (.variable () ⟨["x"]⟩)⟩] := by
  rw [Root.visited_eq_filter]
  simp [Root.nodes, Root.parts, boundHole, Visit.preorder_eq, Visit.parts, Value.parts,
    ValueDefinition.parts, ValueDefinition.inputs, ValueDefinition.output, ValueDefinition.body,
    ValueBody.parts, TypeExpr.parts, Pattern.parts, Sighting.named, Visit.isNode]

/-- An editor that fails at the type of the hole has asked about four nodes. -/
theorem stops_at_type_of_hole : (failingAfter 3 : Editor Unit Unit Unit Unit Nat String).OnlyRebuilds ∧
    ((failingAfter 3).recorded.root (.value boundHole)).runFrom ([], 0) =
      (.error "stop", {}, (Root.value boundHole).visited.take 4, 3) := by
  have hk : 3 < (Root.value boundHole).visited.length := by
    rw [visited_boundHole]
    decide
  refine ⟨onlyRebuilds_failingAfter 3,
    (asks_where_visited (onlyRebuilds_failingAfter 3) (.value boundHole) 0).2 3 hk 3 3 "stop" ?_ ?_⟩
  · rw [visited_boundHole]
    rfl
  · simp only [visited_boundHole]
    rfl

end Editor

end IrDialects
