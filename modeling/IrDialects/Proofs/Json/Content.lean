import IrDialects.Json.Writer
import Mathlib.Data.List.Basic
import Mathlib.Data.List.Nodup
import Mathlib.Order.Lattice

/-!
# What a value contains

A value is looked through for its numbers and for the keys of its objects: `All num keys` says that
every number spelling in it satisfies `num` and the list of keys of every object in it satisfies
`keys`. A value without repeated keys is left alone when it is settled, and one whose numbers can be
written has no fault.
-/

namespace IrDialects.Json

/-- Every number of a value satisfies `num`, and the keys of every object satisfy `keys`. -/
inductive All (num : String → Prop) (keys : List String → Prop) : Json → Prop
  | null : All num keys .null
  | bool (b : Bool) : All num keys (.bool b)
  | number {s : String} : num s → All num keys (.number s)
  | string (s : String) : All num keys (.string s)
  | array {vs : List Json} : (∀ v ∈ vs, All num keys v) → All num keys (.array vs)
  | object {ms : Members} :
      keys (Json.keys ms) → (∀ m ∈ ms, All num keys m.2) → All num keys (.object ms)

section All

variable {num num' : String → Prop} {keys keys' : List String → Prop}

@[simp] theorem all_null : All num keys .null := .null

@[simp] theorem all_bool (b : Bool) : All num keys (.bool b) := .bool b

@[simp] theorem all_string (s : String) : All num keys (.string s) := .string s

@[simp] theorem all_number {s : String} : All num keys (.number s) ↔ num s :=
  ⟨fun h => by cases h; assumption, .number⟩

@[simp] theorem all_array {vs : List Json} :
    All num keys (.array vs) ↔ ∀ v ∈ vs, All num keys v :=
  ⟨fun h => by cases h; assumption, .array⟩

@[simp high] theorem all_array_map {α : Type} {f : α → Json} {xs : List α} :
    All num keys (.array (xs.map f)) ↔ ∀ x ∈ xs, All num keys (f x) := by
  rw [all_array, List.forall_mem_map]

@[simp] theorem all_object {ms : Members} :
    All num keys (.object ms) ↔ keys (Json.keys ms) ∧ ∀ m ∈ ms, All num keys m.2 :=
  ⟨fun h => by cases h; exact ⟨‹_›, ‹_›⟩, fun h => .object h.1 h.2⟩

theorem All.imp (hn : ∀ s, num s → num' s) (hk : ∀ ks, keys ks → keys' ks) {v : Json}
    (h : All num keys v) : All num' keys' v := by
  induction h with
  | null => exact .null
  | bool b => exact .bool b
  | number h => exact .number (hn _ h)
  | string s => exact .string s
  | array _ ih => exact .array ih
  | object h _ ih => exact .object (hk _ h) ih

/-- The keys stand in the order of their ranks. -/
def Ranked (rank : String → Nat) (ks : List String) : Prop := ks.Pairwise fun k l => rank k < rank l

instance (rank : String → Nat) : DecidablePred (Ranked rank) := fun ks =>
  inferInstanceAs (Decidable (ks.Pairwise fun k l => rank k < rank l))

theorem Ranked.nodup {rank : String → Nat} {ks : List String} (h : Ranked rank ks) : ks.Nodup := by
  refine List.Pairwise.imp ?_ h
  rintro k _ hlt rfl
  exact Nat.lt_irrefl _ hlt

@[simp] theorem get?_nil (k : String) : get? [] k = none := rfl

@[simp] theorem get?_cons (k l : String) (v : Json) (ms : Members) :
    get? ((l, v) :: ms) k = if k = l then some v else get? ms k := by
  by_cases h : k = l
  · simp [get?, h]
  · have hb : (k == l) = false := by simp [h]
    simp [get?, List.lookup_cons, hb, h]

/-- A member that is looked up is one of the members. -/
theorem mem_of_get? {ms : Members} {k : String} {v : Json} (h : get? ms k = some v) :
    (k, v) ∈ ms := by
  obtain ⟨before, after, rfl, -⟩ := List.lookup_eq_some_iff.1 h
  simp

theorem All.get? {ms : Members} (h : ∀ m ∈ ms, All num keys m.2) {k : String} {v : Json}
    (hv : Json.get? ms k = some v) : All num keys v :=
  h (k, v) (mem_of_get? hv)

end All

/-- Induction over the items of arrays and the values of members. -/
theorem induct {motive : Json → Prop} (null : motive .null) (bool : ∀ b, motive (.bool b))
    (number : ∀ s, motive (.number s)) (string : ∀ s, motive (.string s))
    (array : ∀ vs, (∀ v ∈ vs, motive v) → motive (.array vs))
    (object : ∀ ms : Members, (∀ m ∈ ms, motive m.2) → motive (.object ms)) (v : Json) :
    motive v := by
  apply @Json.rec motive (fun vs => ∀ v ∈ vs, motive v) (fun ms => ∀ m ∈ ms, motive m.2)
    (fun m => motive m.2)
  · exact null
  · exact bool
  · exact number
  · exact string
  · exact fun vs ih => array vs ih
  · exact fun ms ih => object ms ih
  · simp
  · exact fun v vs hv hvs => by simpa using ⟨hv, hvs⟩
  · simp
  · exact fun m ms hm hms => by simpa using ⟨hm, fun k v hkv => hms (k, v) hkv⟩
  · exact fun _ _ hv => hv

section Equality

private theorem beqItems_iff {vs ws : List Json} (h : ∀ v ∈ vs, ∀ w, beq v w = true ↔ v = w) :
    beqItems vs ws = true ↔ vs = ws := by
  induction vs generalizing ws with
  | nil => cases ws <;> simp [beqItems]
  | cons v vs ih =>
    rw [List.forall_mem_cons] at h
    cases ws with
    | nil => simp [beqItems]
    | cons w ws => simp [beqItems, h.1 w, ih h.2]

private theorem beqMembers_iff {ms ns : Members} (h : ∀ m ∈ ms, ∀ w, beq m.2 w = true ↔ m.2 = w) :
    beqMembers ms ns = true ↔ ms = ns := by
  induction ms generalizing ns with
  | nil => cases ns <;> simp [beqMembers]
  | cons m ms ih =>
    rw [List.forall_mem_cons] at h
    cases ns with
    | nil => simp [beqMembers]
    | cons n ns => simp [beqMembers, h.1 n.2, ih h.2, Prod.ext_iff]

theorem beq_eq_true_iff {v w : Json} : beq v w = true ↔ v = w := by
  induction v using induct generalizing w with
  | null | bool | number | string => cases w <;> simp [beq]
  | array vs ih =>
    cases w with
    | array ws => simp [beq, beqItems_iff fun v hv w => ih v hv]
    | _ => simp [beq]
  | object ms ih =>
    cases w with
    | object ns => simp [beq, beqMembers_iff fun m hm w => ih m hm]
    | _ => simp [beq]

instance : DecidableEq Json := fun _ _ => decidable_of_iff _ beq_eq_true_iff

end Equality

section Depth

theorem depthItems_le {vs : List Json} {n : Nat} :
    depthItems vs ≤ n ↔ ∀ v ∈ vs, v.depth ≤ n := by
  induction vs with
  | nil => simp [depthItems]
  | cons v vs ih => simp [depthItems, ih]

theorem depthMembers_le {ms : Members} {n : Nat} :
    depthMembers ms ≤ n ↔ ∀ m ∈ ms, m.2.depth ≤ n := by
  induction ms with
  | nil => simp [depthMembers]
  | cons m ms ih => simp [depthMembers, ih]

theorem depth_lt_of_mem_array {vs : List Json} {v : Json} (h : v ∈ vs) :
    v.depth < (Json.array vs).depth :=
  Nat.lt_succ_of_le (depthItems_le.1 le_rfl v h)

theorem depth_lt_of_mem_object {ms : Members} {m : String × Json} (h : m ∈ ms) :
    m.2.depth < (Json.object ms).depth :=
  Nat.lt_succ_of_le (depthMembers_le.1 le_rfl m h)

end Depth

section RepeatedKeys

private theorem repeatedInItems?_eq_none {vs : List Json} :
    repeatedInItems? vs = none ↔ ∀ v ∈ vs, repeatedKey? v = none := by
  induction vs with
  | nil => simp [repeatedInItems?]
  | cons v vs ih => simp [repeatedInItems?, ih]

private theorem repeatedInMembers?_eq_none {seen : List String} {ms : Members} :
    repeatedInMembers? seen ms = none ↔
      (keys ms).Nodup ∧ (∀ k ∈ keys ms, k ∉ seen) ∧ ∀ m ∈ ms, repeatedKey? m.2 = none := by
  induction ms generalizing seen with
  | nil => simp [repeatedInMembers?, keys]
  | cons m ms ih =>
    obtain ⟨k, v⟩ := m
    by_cases hk : k ∈ seen
    · simp [repeatedInMembers?, keys, hk]
    · simp only [repeatedInMembers?, List.contains_eq_mem, hk, decide_false, Bool.false_eq_true,
        if_false, Option.or_eq_none_iff, ih, keys, List.map_cons, List.nodup_cons, List.mem_cons,
        not_or, forall_eq_or_imp, not_false_eq_true, true_and]
      constructor
      · rintro ⟨hv, hnd, hseen, hms⟩
        exact ⟨⟨fun hm => (hseen k hm).1 rfl, hnd⟩, fun j hj => (hseen j hj).2, hv, hms⟩
      · rintro ⟨⟨hkm, hnd⟩, hseen, hv, hms⟩
        exact ⟨hv, hnd, fun j hj => ⟨fun e => hkm (e ▸ hj), hseen j hj⟩, hms⟩

/-- No key is repeated anywhere exactly if the keys of every object are distinct. -/
theorem repeatedKey?_eq_none {v : Json} :
    v.repeatedKey? = none ↔ v.All (fun _ => True) List.Nodup := by
  induction v using induct with
  | null | bool | string => simp [repeatedKey?]
  | number s => simp [repeatedKey?]
  | array vs ih => simpa [repeatedKey?, repeatedInItems?_eq_none] using forall₂_congr ih
  | object ms ih =>
    simp only [repeatedKey?, repeatedInMembers?_eq_none, List.not_mem_nil, not_false_eq_true,
      implies_true, true_and, all_object]
    exact and_congr_right fun _ => forall₂_congr ih

end RepeatedKeys

theorem get?_eq_some_of_mem {ms : Members} (h : (keys ms).Nodup) {m : String × Json} (hm : m ∈ ms) :
    get? ms m.1 = some m.2 := by
  obtain ⟨before, after, rfl⟩ := List.append_of_mem hm
  refine List.lookup_eq_some_iff.2 ⟨before, after, rfl, fun p hp => ?_⟩
  rw [keys, List.map_append, List.nodup_append] at h
  simpa using (h.2.2 p.1 (List.mem_map_of_mem hp) m.1 (by simp)).symm

namespace Writer

theorem firstValues_eq_self {ms : Members} (h : (keys ms).Nodup) : firstValues ms = ms := by
  calc firstValues ms = ms.map id := by
        refine List.map_congr_left fun (k, v) hm => ?_
        simp [get?_eq_some_of_mem h hm]
    _ = ms := List.map_id ms

theorem settleItems_eq_map (vs : List Json) : settleItems vs = vs.map settle := by
  induction vs with
  | nil => rfl
  | cons v vs ih => rw [settleItems, ih, List.map_cons]

theorem settleMembers_eq_map (ms : Members) :
    settleMembers ms = ms.map fun m => (m.1, settle m.2) := by
  induction ms with
  | nil => rfl
  | cons m ms ih => rw [settleMembers, ih, List.map_cons]

/-- A value without repeated keys is settled already. -/
theorem settle_eq_self {num : String → Prop} {v : Json} (h : v.All num List.Nodup) :
    settle v = v := by
  induction h with
  | null | bool | string | number => rfl
  | array _ ih => rw [settle, settleItems_eq_map, List.map_congr_left ih, List.map_id']
  | @object ms hk _ ih =>
    have hms : settleMembers ms = ms := by
      rw [settleMembers_eq_map]
      calc ms.map (fun m => (m.1, settle m.2)) = ms.map id :=
            List.map_congr_left fun m hm => by rw [ih m hm]; rfl
        _ = ms := List.map_id ms
    rw [settle, hms, firstValues_eq_self hk]

theorem keys_firstValues (ms : Members) : keys (firstValues ms) = keys ms := by
  simp [firstValues, keys]

/-- Settling a value hides no repeated key: where an object repeats one, the keys stay. -/
theorem all_of_all_settle {num : String → Prop} {v : Json} (h : (settle v).All num List.Nodup) :
    v.All num List.Nodup := by
  induction v using induct with
  | null | bool | number | string => exact h
  | array vs ih =>
    rw [settle, settleItems_eq_map, all_array_map] at h
    exact .array fun v hv => ih v hv (h v hv)
  | object ms ih =>
    rw [settle, all_object, keys_firstValues] at h
    obtain ⟨hkeys, hms⟩ := h
    rw [firstValues_eq_self hkeys, settleMembers_eq_map] at hms
    rw [settleMembers_eq_map] at hkeys
    refine .object (by simpa [keys, Function.comp_def] using hkeys) fun m hm => ih m hm ?_
    exact hms _ (List.mem_map_of_mem hm)

/-- Settling a value makes up no number. -/
theorem all_settle {num : String → Prop} {keys : List String → Prop} {v : Json}
    (h : v.All num keys) : (settle v).All num (fun _ => True) := by
  induction h with
  | null => exact .null
  | bool b => exact .bool b
  | number h => exact .number h
  | string s => exact .string s
  | array _ ih =>
    rw [settle, settleItems_eq_map, all_array]
    simpa using ih
  | @object ms _ _ ih =>
    have hms : ∀ m ∈ settleMembers ms, m.2.All num (fun _ => True) := by
      rw [settleMembers_eq_map]
      exact List.forall_mem_map.2 ih
    refine .object trivial (List.forall_mem_map.2 fun m hm => ?_)
    cases hget : Json.get? (settleMembers ms) m.1 with
    | none => simpa [hget] using hms m hm
    | some v => simpa [hget] using All.get? hms hget

theorem sortItems_eq_map (vs : List Json) : sortItems vs = vs.map sort := by
  induction vs with
  | nil => rfl
  | cons v vs ih => rw [sortItems, ih, List.map_cons]

theorem sortEach_eq_map (ms : Members) : sortEach ms = ms.map fun m => (m.1, sort m.2) := by
  induction ms with
  | nil => rfl
  | cons m ms ih => rw [sortEach, ih, List.map_cons]

theorem keys_sortEach (ms : Members) : keys (sortEach ms) = keys ms := by
  simp [sortEach_eq_map, keys]

/-- Sorting members changes no number. -/
theorem all_sort {num : String → Prop} {keys : List String → Prop} {v : Json}
    (h : v.All num keys) : (sort v).All num (fun _ => True) := by
  induction h with
  | null => exact .null
  | bool b => exact .bool b
  | number h => exact .number h
  | string s => exact .string s
  | array _ ih =>
    rw [sort, sortItems_eq_map, all_array]
    simpa using ih
  | object _ _ ih =>
    rw [sort, sortEach_eq_map, all_object]
    refine ⟨trivial, fun m hm => ?_⟩
    obtain ⟨m', hm', rfl⟩ := List.mem_map.1 (List.mem_mergeSort.1 hm)
    exact ih m' hm'

private theorem faultInItems?_eq_none {i : Nat} {vs : List Json} :
    faultInItems? i vs = none ↔ ∀ v ∈ vs, fault? v = none := by
  induction vs generalizing i with
  | nil => simp [faultInItems?]
  | cons v vs ih => simp [faultInItems?, ih]

private theorem faultInMembers?_eq_none {ms : Members} :
    faultInMembers? ms = none ↔ ∀ m ∈ ms, fault? m.2 = none := by
  induction ms with
  | nil => simp [faultInMembers?]
  | cons m ms ih => simp [faultInMembers?, ih]

/-- A value can be written exactly if each of its numbers can. -/
theorem fault?_eq_none {v : Json} :
    fault? v = none ↔ v.All (fun s => Reader.isStrictText s) (fun _ => True) := by
  induction v using induct with
  | null | bool | string => simp [fault?]
  | number s => simp [fault?]
  | array vs ih => simpa [fault?, faultInItems?_eq_none] using forall₂_congr ih
  | object ms ih => simpa [fault?, faultInMembers?_eq_none] using forall₂_congr ih

/-- The text of a value whose numbers can all be written. -/
theorem text_eq_ok {st : Style} {v : Json} (h : fault? v = none) :
    text st v = .ok (String.ofList (value st v [])) := by
  rw [text, h]

end Writer

end IrDialects.Json
