import IrDialects.Proofs.Traverse.Preorder

/-!
# Walks along a route

A walk follows a route if it acts at the nodes of the route in their order, stops where that fails,
and ends at the position where it started. Walks that follow routes are put together as the routes
are, so that a walk of a whole tree is known from what it does at the parts of each node.
-/

namespace IrDialects

variable {τ ν σ ε α β : Type}

namespace Walk

section Run

variable {S : Type} {w : ExceptT ε (StateM S) α} {f : α → ExceptT ε (StateM S) β} {s s' : S}

theorem run_bind_of_ok {a : α} (h : w.run s = (.ok a, s')) : (w >>= f).run s = (f a).run s' := by
  show ExceptT.bindCont f (w.run s).1 (w.run s).2 = _
  rw [h]
  rfl

theorem run_bind_of_error {e : ε} (h : w.run s = (.error e, s')) :
    (w >>= f).run s = (.error e, s') := by
  show ExceptT.bindCont f (w.run s).1 (w.run s).2 = _
  rw [h]
  rfl

@[simp] theorem runFrom_pure (x : α) (s : σ) :
    runFrom (pure x : Walk σ ε α) s = (.ok x, {}, s) := rfl

end Run

variable {act : Sighting τ ν → ExceptT ε (StateM σ) Unit} {w : Walk σ ε α}
  {route route' : List String → List (Sighting τ ν)} {x : α} {y : β}

/-- The walk does `act` at the nodes of a route in their order, until that fails. It ends where it
started, with the result `x` unless something failed. -/
structure Follows (act : Sighting τ ν → ExceptT ε (StateM σ) Unit) (w : Walk σ ε α)
    (route : List String → List (Sighting τ ν)) (x : α) : Prop where
  run : ∀ {c s r s'}, (forM (route c.path) act).run s = (r, s') →
    w.run (c, s) = (r.map fun _ => x, c, s')

theorem follows_pure (x : α) : (pure x : Walk σ ε α).Follows act (fun _ => []) x := by
  refine ⟨fun h => ?_⟩
  cases h
  rfl

theorem Follows.bind {f : α → Walk σ ε β} (hw : w.Follows act route x)
    (hf : (f x).Follows act route' y) :
    (w >>= f).Follows act (fun path => route path ++ route' path) y := by
  refine ⟨fun {c s r s'} h => ?_⟩
  rw [List.forM_append] at h
  rcases hr : (forM (route c.path) act).run s with ⟨r₁, s₁⟩
  cases r₁ with
  | error e =>
    rw [run_bind_of_error hr] at h
    cases h
    exact run_bind_of_error (hw.run hr)
  | ok =>
    rw [run_bind_of_ok hr] at h
    rw [run_bind_of_ok (hw.run hr)]
    exact hf.run h

theorem Follows.map (hw : w.Follows act route x) (f : α → β) :
    (w >>= fun a => pure (f a)).Follows act route (f x) := by
  have h := hw.bind (f := fun a => pure (f a)) (follows_pure (f x))
  simpa only [List.append_nil] using h

/-- A walk on which nothing is done does nothing. -/
theorem Follows.eq_pure (hw : w.Follows (fun _ => pure ()) route x) : w = pure x := by
  have hrun (ms : List (Sighting τ ν)) :
      forM ms (fun _ => pure () : Sighting τ ν → ExceptT ε (StateM σ) Unit) = pure () := by
    induction ms with
    | nil => rfl
    | cons m ms ih => rw [List.forM_cons, pure_bind, ih]
  funext ⟨c, s⟩
  exact hw.run (r := .ok ()) (by rw [hrun]; rfl)

theorem run_within {segment : String} {c c' : Cursor} {s s' : σ} {r : Except ε α}
    (h : w.run (c.enter segment, s) = (r, c', s')) :
    (within segment w).run (c, s) = (r, c'.exit, s') := by
  show ((w.run (c.enter segment, s)).1, (w.run (c.enter segment, s)).2.1.exit,
    (w.run (c.enter segment, s)).2.2) = _
  rw [h]

theorem Follows.within (hw : w.Follows act route x) (segment : String) :
    (Walk.within segment w).Follows act (fun path => route (path ++ [segment])) x := by
  refine ⟨fun {c s r s'} h => ?_⟩
  simp only [← Cursor.path_enter] at h
  exact run_within (hw.run h)

/-- A question leaves the position as it is. -/
theorem run_ask {f : Cursor → σ → Except ε α × σ} {c : Cursor} {s s' : σ} {r : Except ε α}
    (h : f c s = (r, s')) : (ask f).run (c, s) = (r, c, s') := by
  show ((f c s).1, c, (f c s).2) = _
  rw [h]

/-- An answer that can only be `y` is known from whether there is one. -/
theorem eq_map_of_prodMap {S : Type} {answer : Except ε β × S} {y : β} {a : Except ε Unit} {s' : S}
    (h : Prod.map (Except.map fun _ => ()) id answer = (a, s'))
    (hok : ∀ {b}, answer = (.ok b, s') → b = y) : answer = (a.map fun _ => y, s') := by
  obtain ⟨b, s''⟩ := answer
  cases h
  cases b with
  | error e => rfl
  | ok b =>
    cases hok rfl
    rfl

/-- Acting where nothing fails folds over the nodes. -/
theorem run_forM_of_ok {f : σ → Sighting τ ν → σ} (h : ∀ m s, (act m).run s = (.ok ⟨⟩, f s m)) :
    ∀ (ms : List (Sighting τ ν)) (s : σ), (forM ms act).run s = (.ok ⟨⟩, ms.foldl f s)
  | [], _ => rfl
  | m :: ms, s => by
    rw [List.forM_cons, run_bind_of_ok (h m s), List.foldl_cons]
    exact run_forM_of_ok h ms (f s m)

variable {descends : Sighting τ ν → Bool} {ms ms' : List (Sighting τ ν)}

/-- The walk meets a node and what is below it. -/
abbrev Meets (act : Sighting τ ν → ExceptT ε (StateM σ) Unit) (descends : Sighting τ ν → Bool)
    (w : Walk σ ε α) (n : Visit τ ν) (x : α) : Prop :=
  w.Follows act (fun path => n.preorder descends path) x

/-- The walk meets several nodes and what is below them. -/
abbrev Tours (act : Sighting τ ν → ExceptT ε (StateM σ) Unit) (descends : Sighting τ ν → Bool)
    (w : Walk σ ε α) (ms : List (Sighting τ ν)) (x : α) : Prop :=
  w.Follows act (fun path => Sighting.tour descends path ms) x

theorem tours_pure (x : α) : (pure x : Walk σ ε α).Tours act descends [] x := follows_pure x

theorem Tours.map (hw : w.Tours act descends ms x) (f : α → β) :
    (w >>= fun a => pure (f a)).Tours act descends ms (f x) := Follows.map hw f

theorem Tours.bind {f : α → Walk σ ε β} (hw : w.Tours act descends ms x)
    (hf : (f x).Tours act descends ms' y) : (w >>= f).Tours act descends (ms ++ ms') y := by
  have h := Follows.bind hw hf
  simpa only [Tours, Sighting.tour_append] using h

theorem Meets.alone {n : Visit τ ν} (hw : w.Meets act descends n x) :
    w.Tours act descends [⟨[], n⟩] x := by
  simpa only [Tours, Sighting.tour_cons, Sighting.tour_nil, List.append_nil] using hw

theorem Meets.tours {n : Visit τ ν} (hw : w.Meets act descends n x) (segment : String) :
    (Walk.within segment w).Tours act descends [⟨[segment], n⟩] x := by
  have h := Follows.within hw segment
  simpa only [Tours, Sighting.tour_cons, Sighting.tour_nil, List.append_nil] using h

theorem Tours.within (hw : w.Tours act descends ms x) (segment : String) :
    (Walk.within segment w).Tours act descends (ms.map (·.under [segment])) x := by
  have h := Follows.within hw segment
  simpa only [Tours, Sighting.tour, List.flatMap_map, Sighting.under, List.append_assoc] using h

theorem Tours.indexed {γ : Type} {node : γ → Visit τ ν} {xs : List γ}
    (hw : w.Tours act descends (xs.zipIdx.map fun x => ⟨[toString x.2], node x.1⟩) x)
    (segment : String) :
    (Walk.within segment w).Tours act descends (Sighting.indexed segment node xs) x := by
  have h := Tours.within hw segment
  rwa [List.map_map] at h

theorem Tours.named {γ : Type} {name : γ → String} {node : γ → Visit τ ν} {xs : List γ}
    (hw : w.Tours act descends (xs.map fun x => ⟨[name x], node x⟩) x) (segment : String) :
    (Walk.within segment w).Tours act descends (Sighting.named segment name node xs) x := by
  have h := Tours.within hw segment
  rwa [List.map_map] at h

/-- A node is met before its parts, and the parts if the answer is to go on. -/
theorem meets_ask {n : Visit τ ν} {question : Cursor → σ → Except ε β × σ} {a : Cursor → β}
    {f : β → Walk σ ε α}
    (hask : ∀ {c s r s'}, (act ⟨c.path, n⟩).run s = (r, s') →
      question c s = (r.map fun _ => a c, s'))
    (hpass : ∀ {c s}, descends ⟨c.path, n⟩ = false → (f (a c)).run (c, s) = (.ok x, c, s))
    (hparts : ∀ {c}, descends ⟨c.path, n⟩ = true → (f (a c)).Tours act descends n.parts x) :
    (ask question >>= f).Meets act descends n x := by
  refine ⟨fun {c s r s'} h => ?_⟩
  simp only [Visit.preorder_eq, List.forM_cons] at h
  -- The answer for the node itself decides: an error ends the walk, before any part is met.
  rcases hr : (act ⟨c.path, n⟩).run s with ⟨r₁, s₁⟩
  cases r₁ with
  | error e =>
    rw [run_bind_of_error hr] at h
    cases h
    exact run_bind_of_error (run_ask (hask hr))
  | ok =>
    rw [run_bind_of_ok hr] at h
    rw [run_bind_of_ok (run_ask (hask hr))]
    cases hd : descends ⟨c.path, n⟩ with
    | true =>
      rw [if_pos hd] at h
      exact (hparts hd).run h
    | false =>
      rw [if_neg (by rw [hd]; decide)] at h
      cases h
      exact hpass hd

end Walk

end IrDialects
