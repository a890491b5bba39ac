import IrDialects.Proofs.Wire.Decoding

/-!
# Where issues arise

The path of an issue leads from the value that was read to the place of the complaint.
`Arises R v e` says so for one issue, `Within b R v r` for a result, and `Pointing b R decode` for a
decoder, if what is read is nested less than `b` levels deep. Each step of a decoder adds the segment
by which it goes down, so a decoder is pointing if the decoders of its parts are. No complaint below
the version of a document is about the version, and none is that the fuel ran out.

The only member of an object need not be named by its key: `R key label` tells which labels may
stand for it. Nothing may where only Classic nodes are read; in V4 the label of a node is its
canonical tag.
-/

namespace IrDialects

/-- A complaint of a decoder about what it reads: not about the version, and not that the nesting is
too deep for its fuel. -/
def Complaint.Proper (c : Complaint) : Prop := c.kind ≠ .unknownFormatVersion ∧ c ≠ .tooDeep

attribute [simp] Complaint.Proper Complaint.kind

/-- An issue arises in a value: its path goes down by items and members, or by a label that stands
for the only key. A bare text can be read as the array with it, in which its tag is unknown. -/
inductive Arises (R : String → String → Prop) : Json → Issue → Prop
  | here (v : Json) {c : Complaint} (tag : String) :
      c.Proper → Arises R v ⟨c, [], tag⟩
  | item {vs : List Json} {i : Nat} {v : Json} {e : Issue} :
      vs[i]? = some v → Arises R v e → Arises R (.array vs) (e.under (toString i))
  | member {ms : Members} {k : String} {v : Json} {e : Issue} :
      (k, v) ∈ ms → Arises R v e → Arises R (.object ms) (e.under k)
  | body {key label : String} {v : Json} {e : Issue} :
      R key label → Arises R v e → Arises R (.object [(key, v)]) (e.under label)
  | bare (s : String) :
      Arises R (.string s) (((NodeKind.nativeHint.unknownTag s).issueIn s).under "0")
  | withTag {v : Json} {e : Issue} (tag : String) : Arises R v e → Arises R v (e.withTag tag)

/-- If a result is an issue, then the issue arises in `v`, unless `v` is too deep. -/
def Within {α : Type} (b : Nat) (R : String → String → Prop) (v : Json) (r : Decoded α) : Prop :=
  v.depth < b → ∀ e, r = .error e → Arises R v e

/-- A decoder all of whose issues arise in the value that it reads, unless the value is too deep. -/
def Pointing {α : Type} (b : Nat) (R : String → String → Prop) (decode : Json → Decoded α) : Prop :=
  ∀ v, Within b R v (decode v)

/-- The label of a key that spells a tag is the canonical spelling of the tag. -/
def SpellsTag (key label : String) : Prop := ∃ kind : NodeKind, kind.lookup? key = some label

variable {R : String → String → Prop} {b : Nat}

theorem NodeKind.proper_unknownTag (k : NodeKind) (s : String) : (k.unknownTag s).Proper := by
  rw [unknownTag]
  split <;> simp

theorem Arises.tagged {v : Json} {e : Issue} (h : Arises R v e) (tag : String) :
    Arises R v (e.tagged tag) := by
  rw [Issue.tagged]
  split
  · exact h.withTag tag
  · exact h

theorem Arises.proper {v : Json} {e : Issue} (h : Arises R v e) : e.complaint.Proper := by
  induction h with
  | here _ _ hc => exact hc
  | item _ _ ih => exact ih
  | member _ _ ih => exact ih
  | body _ _ ih => exact ih
  | bare s => exact NodeKind.proper_unknownTag .nativeHint s
  | withTag _ _ ih => exact ih

/-- An issue that arises below the version is not about the version. -/
theorem Arises.kind_ne {v : Json} {e : Issue} (h : Arises R v e) :
    e.kind ≠ .unknownFormatVersion :=
  h.proper.1

theorem TagTable.find?_map {α β : Type} (f : α → β) (t : TagTable α) (s : String) :
    (t.map f).find? s = (t.find? s).map f := by
  have hlookup (ps : List (List Char × α)) (cs : List Char) :
      (ps.map fun p => (p.1, f p.2)).lookup cs = (ps.lookup cs).map f := by
    induction ps with
    | nil => rfl
    | cons p ps ih =>
      obtain ⟨k, a⟩ := p
      simp only [List.map_cons, List.lookup_cons]
      cases cs == k
      · exact ih
      · rfl
  have hindex : (t.map f).index = t.index.map fun p => (p.1, f p.2) := by
    simp [index, map, Function.comp_def]
  rw [find?, find?, hindex, hlookup]

namespace Within

variable {α β : Type} {v : Json} {x : Decoded α}

theorem ok (a : α) : Within b R v (.ok a) := by
  intro _ e h
  cases h

theorem error {e : Issue} (h : Arises R v e) : Within b R v (.error e : Decoded α) := by
  rintro _ _ ⟨⟩
  exact h

theorem complain {c : Complaint} (h : c.Proper) : Within b R v (.error c.issue : Decoded α) :=
  error (.here v _ h)

/-- A step whose result the next step depends on. -/
theorem andThen {f : α → Decoded β} (hx : Within b R v x) (hf : ∀ a, x = .ok a → Within b R v (f a)) :
    Within b R v (x >>= f) := by
  intro hd e h
  cases x with
  | error e' =>
    cases h
    exact hx hd e rfl
  | ok a => exact hf a rfl hd e h

theorem bind {f : α → Decoded β} (hx : Within b R v x) (hf : ∀ a, Within b R v (f a)) :
    Within b R v (x >>= f) :=
  hx.andThen fun a _ => hf a

/-- A step that is known to succeed. -/
theorem okThen {f : α → Decoded β} {a : α} (hx : x = .ok a) (h : Within b R v (f a)) :
    Within b R v (x >>= f) := by
  rw [hx]
  exact h

theorem tagged (h : Within b R v x) (tag : String) : Within b R v (x.tagged tag) := by
  intro hd e he
  cases x with
  | error e' =>
    cases he
    exact (h hd e' rfl).tagged tag
  | ok a => cases he

/-- An item may be one level less deep than the array. -/
theorem itemBelow {vs : List Json} {i : Nat} {w : Json} (hi : vs[i]? = some w)
    (h : Within b R w x) : Within (b + 1) R (.array vs) (x.underIndex i) := by
  intro hd e he
  have hw : w.depth < b :=
    (Json.depth_lt_of_mem_array (List.mem_of_getElem? hi)).trans_le (Nat.le_of_lt_succ hd)
  cases x with
  | error e' =>
    cases he
    exact .item hi (h hw e' rfl)
  | ok a => cases he

theorem slotBelow {vs : List Json} {tag : String} {i : Nat} {w : Json} (hi : vs[i]? = some w)
    (h : Within b R w x) : Within (b + 1) R (.array vs) (Shape.slot tag i x) :=
  (itemBelow hi h).tagged tag

/-- A member may be one level less deep than the object. -/
theorem memberBelow {ms : Members} {k : String} {w : Json} (hm : (k, w) ∈ ms)
    (h : Within b R w x) : Within (b + 1) R (.object ms) (x.under k) := by
  intro hd e he
  have hw : w.depth < b :=
    (Json.depth_lt_of_mem_object hm).trans_le (Nat.le_of_lt_succ hd)
  cases x with
  | error e' =>
    cases he
    exact .member hm (h hw e' rfl)
  | ok a => cases he

theorem weaken (h : Within (b + 1) R v x) : Within b R v x :=
  fun hd => h (Nat.lt_succ_of_lt hd)

theorem item {vs : List Json} {i : Nat} {w : Json} (hi : vs[i]? = some w) (h : Within b R w x) :
    Within b R (.array vs) (x.underIndex i) :=
  (itemBelow hi h).weaken

theorem slot {vs : List Json} {tag : String} {i : Nat} {w : Json} (hi : vs[i]? = some w)
    (h : Within b R w x) : Within b R (.array vs) (Shape.slot tag i x) :=
  (slotBelow hi h).weaken

theorem member {ms : Members} {k : String} {w : Json} (hm : (k, w) ∈ ms) (h : Within b R w x) :
    Within b R (.object ms) (x.under k) :=
  (memberBelow hm h).weaken

/-- The items of an array of any length. -/
theorem arrayThen {what : String} {f : List Json → Decoded β}
    (h : ∀ vs, Within b R (.array vs) (f vs)) : Within b R v (Shape.array what v >>= f) := by
  cases v with
  | array vs => exact h vs
  | _ => exact complain (by simp)

/-- The members of an object. -/
theorem objectThen {what : String} {f : Members → Decoded β}
    (h : ∀ ms, Within b R (.object ms) (f ms)) : Within b R v (Shape.object what v >>= f) := by
  cases v with
  | object ms => exact h ms
  | _ => exact complain (by simp)

/-- The two elements of an array. -/
theorem pairThen {what : String} {f : Json × Json → Decoded β}
    (h : ∀ w x, Within b R (.array [w, x]) (f (w, x))) : Within b R v (Shape.pair what v >>= f) := by
  refine andThen (arrayThen fun vs => ?_) fun p hp => ?_
  · split
    · exact ok _
    · exact complain (by simp)
  · obtain ⟨w, x⟩ := p
    rw [Shape.pair_eq_ok.1 hp]
    exact h w x

/-- The fields of a tagged array. -/
theorem taggedThen {table : TagTable α} {f : α × List Json → Decoded β}
    (h : ∀ tag s fields, Within b R (.array (.string s :: fields)) (f (tag, fields))) :
    Within b R v (Shape.tagged table v >>= f) := by
  refine andThen ?_ fun p hp => ?_
  · rw [Shape.tagged.eq_def]
    split
    · exact complain (by simp)
    · split
      · exact ok _
      · exact error (.item (i := 0) rfl (.here _ _ (NodeKind.proper_unknownTag _ _)))
    · exact error (.item (i := 0) rfl (.here _ _ (by simp)))
    · exact complain (by simp)
  · obtain ⟨tag, fields⟩ := p
    obtain ⟨s, rfl, -⟩ := Shape.tagged_eq_ok.1 hp
    exact h tag s fields

section Fields

variable {tag s : String} {fs : List Json}

theorem fieldCount {wanted got : Nat} :
    Within b R v (.error (Shape.fieldCount tag wanted got) : Decoded α) :=
  error (.here v tag (by simp))

theorem zeroThen {f : Unit → Decoded β} (h : Within b R (.array [.string s]) (f ())) :
    Within b R (.array (.string s :: fs)) (Shape.zero tag fs >>= f) := by
  rw [Shape.zero.eq_def]
  split
  · exact h
  · exact fieldCount

theorem oneThen {f : Json → Decoded β} (h : ∀ a, Within b R (.array [.string s, a]) (f a)) :
    Within b R (.array (.string s :: fs)) (Shape.one tag fs >>= f) := by
  rw [Shape.one.eq_def]
  split
  · exact h _
  · exact fieldCount

theorem twoThen {f : Json × Json → Decoded β}
    (h : ∀ w x, Within b R (.array [.string s, w, x]) (f (w, x))) :
    Within b R (.array (.string s :: fs)) (Shape.two tag fs >>= f) := by
  rw [Shape.two.eq_def]
  split
  · exact h _ _
  · exact fieldCount

theorem threeThen {f : Json × Json × Json → Decoded β}
    (h : ∀ w x y, Within b R (.array [.string s, w, x, y]) (f (w, x, y))) :
    Within b R (.array (.string s :: fs)) (Shape.three tag fs >>= f) := by
  rw [Shape.three.eq_def]
  split
  · exact h _ _ _
  · exact fieldCount

theorem fourThen {f : Json × Json × Json × Json → Decoded β}
    (h : ∀ w x y z, Within b R (.array [.string s, w, x, y, z]) (f (w, x, y, z))) :
    Within b R (.array (.string s :: fs)) (Shape.four tag fs >>= f) := by
  rw [Shape.four.eq_def]
  split
  · exact h _ _ _ _
  · exact fieldCount

end Fields

/-- A member that has to be there. -/
theorem memberThen {what key : String} {ms : Members} {f : Json → Decoded β}
    (h : ∀ w, (key, w) ∈ ms → Within b R v (f w)) : Within b R v (Shape.member what key ms >>= f) := by
  refine andThen ?_ fun w hw => h w (Json.mem_of_get? (Shape.member_eq_ok.1 hw))
  rw [Shape.member]
  split
  · exact ok _
  · exact complain (by simp)

end Within

section Decoders

variable {α : Type} {decode : Json → Decoded α}

theorem pointing_string (what : String) : Pointing b R (Shape.string what) := by
  intro v
  cases v <;> first | exact .ok _ | exact .complain (by simp)

theorem pointing_bool (what : String) : Pointing b R (Shape.bool what) := by
  intro v
  cases v <;> first | exact .ok _ | exact .complain (by simp)

theorem pointing_object (what : String) : Pointing b R (Shape.object what) := by
  intro v
  cases v <;> first | exact .ok _ | exact .complain (by simp)

theorem pointing_int (what : String) : Pointing b R (Shape.int what) := by
  intro v
  rw [Shape.int.eq_def]
  split
  · split
    · exact .ok _
    · exact .complain (by simp)
  · exact .complain (by simp)

theorem pointing_float (what : String) : Pointing b R (Shape.float what) := by
  intro v
  rw [Shape.float.eq_def]
  split
  · split
    · exact .ok _
    · exact .complain (by simp)
  · exact .complain (by simp)

theorem within_optionalString (ms : Members) (key : String) :
    Within b R (.object ms) (Shape.optionalString ms key) := by
  rw [Shape.optionalString]
  split
  · exact .ok _
  · exact .ok _
  · rename_i hget
    exact .member (Json.mem_of_get? hget) (pointing_string key _)

/-- The items from index `i` on. -/
theorem within_each (h : Pointing b R decode) {vs : List Json} (before : List Json) :
    Within b R (.array (before ++ vs)) (Shape.each decode before.length vs) := by
  induction vs generalizing before with
  | nil => exact .ok _
  | cons v vs ih =>
    have hfirst : Within b R (.array (before ++ v :: vs)) ((decode v).underIndex before.length) :=
      .item (by simp) (h v)
    have hrest := ih (before ++ [v])
    rw [List.append_assoc, List.length_append] at hrest
    exact hfirst.bind fun _ => hrest.bind fun _ => .ok _

theorem pointing_list (what : String) (h : Pointing b R decode) :
    Pointing b R (Shape.list what decode) := by
  intro v
  exact .arrayThen fun vs => within_each h []

/-- The distribution below a version that is accepted. -/
theorem within_distribution {β : Type} (h : Pointing b R decode) (ms : Members) (f : α → β) :
    Within b R (.object ms) (do
      let d ← Shape.member "document" "distribution" ms
      let d ← (decode d).under "distribution"
      return f d) := by
  refine .memberThen fun d hd => ?_
  exact .bind (.member hd (h d)) fun _ => .ok _

end Decoders

end IrDialects
