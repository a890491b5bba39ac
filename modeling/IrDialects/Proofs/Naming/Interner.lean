import IrDialects.Naming.Interned
import Mathlib.Data.Finset.Card
import Mathlib.Data.Finset.Dedup
import Mathlib.Data.List.Forall2

/-!
# What symbols stand for

The symbols and the texts of a table are inverse to each other, and every call keeps them so: a text
that is put in gets the next number, and the symbols that were given out before stay what they were.
So in a whole run with no more texts than there are symbols, a symbol stands for its text, and names
that are compared by their symbols are compared by their words.
-/

namespace IrDialects

namespace Interner

variable {t : Interner} {s s' : String} {x x' : Symbol} {ss ss' : List String}

section Table

/-- The symbols and the texts say the same: the symbol of a text comes from the only index at which
the text stands. -/
structure Coherent (t : Interner) : Prop where
  nodup : t.texts.Nodup
  symbol?_eq_some_iff : ∀ {s x}, t.symbol? s = some x ↔ ∃ i, t.texts[i]? = some s ∧ x = .ofIndex i

theorem coherent_empty : Coherent {} where
  nodup := List.nodup_nil
  symbol?_eq_some_iff := by simp [symbol?]

theorem Coherent.mem_texts (h : t.Coherent) : s ∈ t.texts ↔ ∃ x, t.symbol? s = some x := by
  simp only [h.symbol?_eq_some_iff, List.mem_iff_getElem?]
  exact ⟨fun ⟨i, hi⟩ => ⟨_, i, hi, rfl⟩, fun ⟨_, i, hi, _⟩ => ⟨i, hi⟩⟩

theorem Coherent.notMem_texts (h : t.Coherent) (hs : t.symbol? s = none) : s ∉ t.texts := by
  rw [h.mem_texts, hs]
  simp

theorem texts_push (t : Interner) (s : String) : (t.push s).texts = t.texts ++ [s] := rfl

theorem symbol?_push (t : Interner) (s s' : String) :
    (t.push s).symbol? s' = if s' = s then some (.ofIndex t.size) else t.symbol? s' := by
  rw [symbol?, push, List.lookup_cons]
  by_cases hs : s' = s
  · simp [hs, size]
  · simp [hs, symbol?, beq_eq_false_iff_ne.2 hs]

theorem getElem?_texts_push {i : Nat} :
    (t.push s).texts[i]? = some s' ↔ t.texts[i]? = some s' ∨ i = t.size ∧ s = s' := by
  rw [texts_push, size]
  rcases Nat.lt_trichotomy i t.texts.length with hi | rfl | hi
  · simp [List.getElem?_append_left hi, hi.ne]
  · simp
  · have hnone : (t.texts ++ [s])[i]? = none := List.getElem?_eq_none (by simp; omega)
    simp [hnone, List.getElem?_eq_none hi.le, hi.ne']

/-- A text that is not in the table gets the next number. -/
theorem Coherent.push (h : t.Coherent) (hs : t.symbol? s = none) : (t.push s).Coherent where
  nodup := List.nodup_append.2 ⟨h.nodup, List.nodup_singleton s, by
    intro a ha b hb hab
    obtain rfl := List.mem_singleton.1 hb
    exact h.notMem_texts hs (hab ▸ ha)⟩
  symbol?_eq_some_iff := by
    intro s' x
    rw [symbol?_push]
    simp only [getElem?_texts_push]
    by_cases hne : s' = s
    · subst hne
      have hnone (i : Nat) : t.texts[i]? ≠ some s' :=
        fun hi => h.notMem_texts hs (List.mem_of_getElem? hi)
      simp [hnone, eq_comm]
    · simp [hne, Ne.symm hne, h.symbol?_eq_some_iff]

/-- As long as there are no more texts than symbols, a symbol is looked up in the texts and a text in
the symbols to the same effect. -/
theorem Coherent.symbol?_eq_some_iff_resolve? (h : t.Coherent) (hsize : t.size ≤ UInt32.size) :
    t.symbol? s = some x ↔ t.resolve? x = some s := by
  rw [h.symbol?_eq_some_iff]
  constructor
  · rintro ⟨i, hi, rfl⟩
    have hlt : i < UInt32.size := (List.getElem?_eq_some_iff.1 hi).1.trans_le hsize
    rwa [resolve?, Symbol.ofIndex, Fin.val_ofNat, Nat.mod_eq_of_lt hlt]
  · intro hx
    exact ⟨x, hx, (Fin.ofNat_val_eq_self x).symm⟩

theorem Coherent.eq_iff (h : t.Coherent) (hsize : t.size ≤ UInt32.size) (hs : t.symbol? s = some x)
    (hs' : t.symbol? s' = some x') : x = x' ↔ s = s' := by
  constructor
  · rintro rfl
    rw [h.symbol?_eq_some_iff_resolve? hsize] at hs hs'
    exact Option.some.inj (hs.symm.trans hs')
  · rintro rfl
    exact Option.some.inj (hs.symm.trans hs')

theorem isSome_resolve? (t : Interner) (n : Nat) : (t.resolve? n).isSome ↔ n < t.size := by
  simp [resolve?, size]

end Table

section Intern

theorem intern_of_some (h : t.symbol? s = some x) : t.intern s = (x, t) := by
  rw [intern, h]

theorem intern_of_none (h : t.symbol? s = none) : t.intern s = (.ofIndex t.size, t.push s) := by
  rw [intern, h]
  rfl

theorem Coherent.intern (h : t.Coherent) (s : String) : (t.intern s).2.Coherent := by
  cases hs : t.symbol? s with
  | some x => rwa [intern_of_some hs]
  | none => simpa only [intern_of_none hs] using h.push hs

/-- The symbol that is given out is that of the text from then on. -/
theorem symbol?_intern (t : Interner) (s : String) :
    (t.intern s).2.symbol? s = some (t.intern s).1 := by
  cases hs : t.symbol? s with
  | some x => rw [intern_of_some hs, hs]
  | none => simp only [intern_of_none hs, symbol?_push, if_true]

/-- Symbols that were given out are kept. -/
theorem symbol?_intern_of_some (h : t.symbol? s = some x) (s' : String) :
    (t.intern s').2.symbol? s = some x := by
  cases hs : t.symbol? s' with
  | some x' => rwa [intern_of_some hs]
  | none =>
    have hne : s ≠ s' := by
      rintro rfl
      rw [h] at hs
      cases hs
    simpa only [intern_of_none hs, symbol?_push, if_neg hne] using h

theorem Coherent.mem_texts_intern (h : t.Coherent) :
    s' ∈ (t.intern s).2.texts ↔ s' = s ∨ s' ∈ t.texts := by
  cases hs : t.symbol? s with
  | some x =>
    rw [intern_of_some hs]
    have hmem : s ∈ t.texts := h.mem_texts.2 ⟨x, hs⟩
    exact ⟨.inr, fun hor => hor.elim (fun he => he ▸ hmem) id⟩
  | none => simp [intern_of_none hs, texts_push, or_comm]

end Intern

section InternAll

theorem internAll_append (t : Interner) (ss ss' : List String) :
    (t.internAll (ss ++ ss')).2 = ((t.internAll ss).2.internAll ss').2 := by
  induction ss generalizing t with
  | nil => rfl
  | cons s ss ih => exact ih _

theorem Coherent.internAll (h : t.Coherent) (ss : List String) : (t.internAll ss).2.Coherent := by
  induction ss generalizing t with
  | nil => exact h
  | cons s ss ih => exact ih (h.intern s)

theorem symbol?_internAll_of_some (h : t.symbol? s = some x) (ss : List String) :
    (t.internAll ss).2.symbol? s = some x := by
  induction ss generalizing t with
  | nil => exact h
  | cons s' ss ih => exact ih (symbol?_intern_of_some h s')

theorem forall₂_internAll (t : Interner) (ss : List String) :
    List.Forall₂ (fun x s => (t.internAll ss).2.symbol? s = some x) (t.internAll ss).1 ss := by
  induction ss generalizing t with
  | nil => exact .nil
  | cons s ss ih => exact .cons (symbol?_internAll_of_some (symbol?_intern t s) ss) (ih _)

theorem Coherent.mem_texts_internAll (h : t.Coherent) :
    s ∈ (t.internAll ss).2.texts ↔ s ∈ ss ∨ s ∈ t.texts := by
  induction ss generalizing t with
  | nil => simp [Interner.internAll]
  | cons s' ss ih =>
    have hrest := ih (h.intern s')
    rw [h.mem_texts_intern] at hrest
    rw [List.mem_cons, or_assoc, or_left_comm]
    exact hrest

end InternAll

/-- A call to a table. -/
inductive Call where
  | intern (text : String)
  | resolve (number : Nat)
  | size
  /-- Makes a name. -/
  | name (name : Name)

/-- What a call answers. -/
inductive Answer where
  | symbol (symbol : Symbol)
  | text (text : Option String)
  | size (size : Nat)
  | name (name : Interned.Name)
deriving DecidableEq

/-- The texts that a call puts into the table. -/
def Call.texts : Call → List String
  | intern s => [s]
  | name n => n.words
  | _ => []

/-- What a call answers, and the table after it. -/
def step (t : Interner) : Call → Answer × Interner
  | .intern s => (.symbol (t.intern s).1, (t.intern s).2)
  | .resolve n => (.text (t.resolve? n), t)
  | .size => (.size t.size, t)
  | .name n => (.name (t.name n).1, (t.name n).2)

/-- The table after calls to it. -/
def after (t : Interner) : List Call → Interner
  | [] => t
  | c :: cs => (t.step c).2.after cs

/-- What the call at a place of a run answers, where the table is empty at first. -/
def answer? (calls : List Call) (i : Nat) : Option Answer :=
  calls[i]?.map fun c => ((after {} (calls.take i)).step c).1

/-- The texts that calls put into the table. -/
def interned (calls : List Call) : List String := calls.flatMap Call.texts

/-- How many different texts calls put into the table. -/
def distinct (calls : List Call) : Nat := (interned calls).toFinset.card

variable {calls calls' : List Call} {c : Call} {i j : Nat} {n m : Name} {a b : Interned.Name}

section Run

theorem step_snd (t : Interner) (c : Call) : (t.step c).2 = (t.internAll c.texts).2 := by
  cases c <;> rfl

theorem after_eq_internAll (t : Interner) (calls : List Call) :
    t.after calls = (t.internAll (interned calls)).2 := by
  induction calls generalizing t with
  | nil => rfl
  | cons c cs ih =>
    rw [after, ih, step_snd, ← internAll_append]
    rfl

theorem after_append (t : Interner) (calls calls' : List Call) :
    t.after (calls ++ calls') = (t.after calls).after calls' := by
  simp only [after_eq_internAll, interned, List.flatMap_append, internAll_append]

theorem coherent_after (calls : List Call) : (after {} calls).Coherent := by
  rw [after_eq_internAll]
  exact coherent_empty.internAll _

theorem symbol?_after_of_some (h : t.symbol? s = some x) (calls : List Call) :
    (t.after calls).symbol? s = some x := by
  rw [after_eq_internAll]
  exact symbol?_internAll_of_some h _

/-- There are as many texts in the table as different ones have been put into it. -/
theorem size_after (calls : List Call) : (after {} calls).size = distinct calls := by
  have hmem (s : String) : s ∈ (after {} calls).texts ↔ s ∈ interned calls := by
    rw [after_eq_internAll, coherent_empty.mem_texts_internAll]
    simp
  rw [size, distinct, ← List.toFinset_card_of_nodup (coherent_after calls).nodup]
  congr 1
  ext s
  simp only [List.mem_toFinset, hmem]

theorem distinct_take_le (calls : List Call) (i : Nat) : distinct (calls.take i) ≤ distinct calls := by
  refine Finset.card_le_card fun s hs => ?_
  simp only [interned, List.mem_toFinset, List.mem_flatMap] at hs ⊢
  obtain ⟨c, hc, hs⟩ := hs
  exact ⟨c, List.mem_of_mem_take hc, hs⟩

theorem size_after_take_le (h : distinct calls ≤ UInt32.size) (i : Nat) :
    (after {} (calls.take i)).size ≤ UInt32.size :=
  size_after (calls.take i) ▸ (distinct_take_le calls i).trans h

theorem answer?_eq (h : calls[i]? = some c) :
    answer? calls i = some ((after {} (calls.take i)).step c).1 := by
  rw [answer?, h]
  rfl

/-- The symbols that are known after a call are known from then on. -/
theorem symbol?_after_take (h : calls[i]? = some c) (hij : i < j)
    (hs : ((after {} (calls.take i)).step c).2.symbol? s = some x) :
    (after {} (calls.take j)).symbol? s = some x := by
  have hnext : calls.take (i + 1) = calls.take i ++ [c] := by simp [List.take_add_one, h]
  have hlater : calls.take j = calls.take (i + 1) ++ (calls.take j).drop (i + 1) := by
    have hsplit := List.take_append_drop (i + 1) (calls.take j)
    rw [List.take_take, min_eq_left (Nat.succ_le_of_lt hij)] at hsplit
    exact hsplit.symm
  rw [hlater, hnext, after_append, after_append]
  exact symbol?_after_of_some hs _

theorem lt_length (h : calls[i]? = some c) : i < calls.length := (List.getElem?_eq_some_iff.1 h).1

end Run

section Names

/-- A name in symbols has the symbols of the words of a name. -/
def Spells (t : Interner) (a : Interned.Name) (n : Name) : Prop :=
  List.Forall₂ (fun x w => t.symbol? w = some x) a.symbols n.words

/-- If the items of lists stand for other things and are the same exactly if they stand for the same
things, then the lists agree exactly if they stand for the same lists. -/
theorem agree_iff {α β : Type} {same : α → α → Bool} {stands : α → β → Prop}
    (h : ∀ x y u v, stands x u → stands y v → (same x y = true ↔ u = v)) {xs ys : List α}
    {us vs : List β} (hxs : List.Forall₂ stands xs us) (hys : List.Forall₂ stands ys vs) :
    Interned.agree same xs ys = true ↔ us = vs := by
  induction hxs generalizing ys vs with
  | nil => cases hys <;> simp [Interned.agree]
  | cons hx _ ih =>
    cases hys with
    | nil => simp [Interned.agree]
    | cons hy hys =>
      have hrest := ih hys
      simp only [Interned.agree, Bool.and_eq_true, beq_iff_eq] at hrest
      simp only [Interned.agree, List.length_cons, List.zip_cons_cons, List.all_cons,
        Bool.and_eq_true, beq_iff_eq, Nat.add_right_cancel_iff, List.cons.injEq, h _ _ _ _ hx hy, ← hrest]
      exact and_left_comm

theorem Coherent.equal_iff (h : t.Coherent) (hsize : t.size ≤ UInt32.size) (ha : t.Spells a n)
    (hb : t.Spells b m) : a.equal b = true ↔ n = m := by
  refine (agree_iff (fun x y u v hx hy => ?_) ha hb).trans ?_
  · rw [beq_iff_eq]
    exact h.eq_iff hsize hx hy
  · cases n
    cases m
    simp

/-- A name in symbols that a run makes of a name; the empty name needs no call. -/
def Made (calls : List Call) (a : Interned.Name) (n : Name) : Prop :=
  (a = {} ∧ n = {}) ∨ ∃ i : Nat, calls[i]? = some (.name n) ∧ answer? calls i = some (.name a)

/-- A path of names that a run makes of the names of a path. -/
def PathMade (calls : List Call) (p : Interned.Path) (q : Path) : Prop :=
  List.Forall₂ (Made calls) p.names q.names

/-- A qualified name whose parts a run makes of those of a qualified name. -/
structure FQNameMade (calls : List Call) (f : Interned.FQName) (g : FQName) : Prop where
  packagePath : PathMade calls f.packagePath g.packagePath
  modulePath : PathMade calls f.modulePath g.modulePath
  localName : Made calls f.localName g.localName

theorem spells_after_take (h : calls[i]? = some (.name n)) (hij : i < j) :
    (after {} (calls.take j)).Spells ((after {} (calls.take i)).name n).1 n :=
  (forall₂_internAll (after {} (calls.take i)) n.words).imp fun _ _ hx => symbol?_after_take h hij hx

/-- The names of a run have the symbols of their words in the table at its end. -/
theorem Made.spells (h : Made calls a n) : (after {} calls).Spells a n := by
  rcases h with ⟨rfl, rfl⟩ | ⟨i, hi, ha⟩
  · exact .nil
  · rw [answer?_eq hi] at ha
    cases ha
    have hend := spells_after_take hi (lt_length hi)
    rwa [List.take_length] at hend

theorem Coherent.words_eq (h : t.Coherent) (hsize : t.size ≤ UInt32.size) (ha : t.Spells a n) :
    a.words t = n.words := by
  rw [Interned.Name.words]
  refine List.forall₂_eq_eq_eq ▸ (List.forall₂_map_left_iff.2 (ha.imp fun x w hx => ?_))
  rw [(h.symbol?_eq_some_iff_resolve? hsize).1 hx, Option.getD_some]

section Compared

variable (h : distinct calls ≤ UInt32.size)

include h

theorem Made.equal_iff (ha : Made calls a n) (hb : Made calls b m) : a.equal b = true ↔ n = m :=
  (coherent_after calls).equal_iff (size_after calls ▸ h) ha.spells hb.spells

theorem PathMade.equal_iff {p p' : Interned.Path} {q q' : Path} (hp : PathMade calls p q)
    (hp' : PathMade calls p' q') : p.equal p' = true ↔ q = q' := by
  refine (agree_iff ?_ hp hp').trans ?_
  · exact fun _ _ _ _ ha hb => ha.equal_iff h hb
  · cases q
    cases q'
    simp

theorem FQNameMade.equal_iff {f f' : Interned.FQName} {g g' : FQName} (hf : FQNameMade calls f g)
    (hf' : FQNameMade calls f' g') : f.equal f' = true ↔ g = g' := by
  rw [Interned.FQName.equal, Bool.and_eq_true, Bool.and_eq_true,
    hf.packagePath.equal_iff h hf'.packagePath, hf.modulePath.equal_iff h hf'.modulePath,
    hf.localName.equal_iff h hf'.localName]
  cases g
  cases g'
  simp [and_assoc]

end Compared

end Names

/-- What a run of calls to an empty table makes sure of. -/
structure Faithful (calls : List Call) : Prop where
  /-- A text that is put in gets a symbol. -/
  symbol : ∀ i s, calls[i]? = some (.intern s) → ∃ x, answer? calls i = some (.symbol x)
  /-- Two texts get one symbol exactly if they are equal. -/
  symbol_eq_iff : ∀ i j s s', calls[i]? = some (.intern s) → calls[j]? = some (.intern s') →
    (answer? calls i = answer? calls j ↔ s = s')
  /-- A symbol is resolved, at any later point, to the text that it was given out for. -/
  resolve_symbol : ∀ i j s x, i < j → calls[i]? = some (.intern s) →
    answer? calls i = some (.symbol x) → calls[j]? = some (.resolve x) →
    answer? calls j = some (.text (some s))
  /-- The numbers that are resolved are those below the number of texts. -/
  resolve_iff : ∀ i k, calls[i]? = some (.resolve k) →
    ∃ r, answer? calls i = some (.text r) ∧ (r.isSome ↔ k < distinct (calls.take i))
  /-- The size is the number of different texts so far. -/
  size : ∀ i, calls[i]? = some .size → answer? calls i = some (.size (distinct (calls.take i)))
  /-- A name that is made keeps its words. -/
  name : ∀ i n, calls[i]? = some (.name n) →
    ∃ a, answer? calls i = some (.name a) ∧ a.words (after {} calls) = n.words
  /-- Names are compared by their words, and so are paths and qualified names of them. -/
  name_equal_iff : ∀ a b n m, Made calls a n → Made calls b m → (a.equal b = true ↔ n = m)
  path_equal_iff : ∀ p p' q q', PathMade calls p q → PathMade calls p' q' →
    (p.equal p' = true ↔ q = q')
  fqname_equal_iff : ∀ f f' g g', FQNameMade calls f g → FQNameMade calls f' g' →
    (f.equal f' = true ↔ g = g')

/-- A run that puts no more different texts into the table than there are symbols is faithful. -/
theorem symbols_stand_for_texts (calls : List Call) (h : distinct calls ≤ UInt32.size) :
    Faithful calls where
  symbol i s hi := ⟨_, answer?_eq hi⟩
  symbol_eq_iff i j s s' hi hj := by
    -- Whatever is interned later, a text keeps the symbol it was given at first.
    have hknown {k : Nat} {u : String} (hk : calls[k]? = some (.intern u)) :
        (after {} calls).symbol? u = some ((after {} (calls.take k)).intern u).1 := by
      have hend := symbol?_after_take hk (lt_length hk) (symbol?_intern _ u)
      rwa [List.take_length] at hend
    rw [answer?_eq hi, answer?_eq hj, Option.some_inj, step, step, Answer.symbol.injEq]
    exact (coherent_after calls).eq_iff (size_after calls ▸ h) (hknown hi) (hknown hj)
  resolve_symbol i j s x hij hi hx hj := by
    rw [answer?_eq hi] at hx
    cases hx
    have hknown := symbol?_after_take hi hij (symbol?_intern _ s)
    rw [(coherent_after _).symbol?_eq_some_iff_resolve? (size_after_take_le h j)] at hknown
    rw [answer?_eq hj, step, hknown]
  resolve_iff i k hi := ⟨_, answer?_eq hi, by rw [isSome_resolve?, size_after]⟩
  size i hi := by rw [answer?_eq hi, step, size_after]
  name i n hi :=
    ⟨_, answer?_eq hi, (coherent_after calls).words_eq (size_after calls ▸ h)
      (Made.spells (.inr ⟨i, hi, answer?_eq hi⟩))⟩
  name_equal_iff _ _ _ _ := Made.equal_iff h
  path_equal_iff _ _ _ _ := PathMade.equal_iff h
  fqname_equal_iff _ _ _ _ := FQNameMade.equal_iff h

/-- Texts and names in turn, some of them again. -/
def mixedCalls : List Call :=
  [.intern "beta", .name ⟨["alpha", "beta"]⟩, .resolve 0, .size, .intern "beta", .resolve 2,
    .name ⟨["beta", "alpha"]⟩, .name ⟨["alpha", "beta"]⟩, .intern "gamma", .resolve 2, .size]

theorem mixedCalls_answers :
    distinct mixedCalls ≤ UInt32.size ∧ Faithful mixedCalls ∧
      (List.range mixedCalls.length).map (answer? mixedCalls) =
        [some (.symbol 0), some (.name ⟨[1, 0]⟩), some (.text (some "beta")), some (.size 2),
          some (.symbol 0), some (.text none), some (.name ⟨[0, 1]⟩), some (.name ⟨[1, 0]⟩),
          some (.symbol 2), some (.text (some "gamma")), some (.size 3)] :=
  ⟨by decide, symbols_stand_for_texts mixedCalls (by decide), by decide⟩

end Interner

end IrDialects
