import IrDialects.Proofs.Json.Content
import IrDialects.Proofs.Text.Units
import Mathlib.Logic.Relation

/-!
# Values up to the order of members

One object of a value, at any depth, gets its members in another order: `Permutes` is one such step,
and `Rearranged` is a run of them. Sorting is a run of steps, and no step changes the sorted form of
a value that repeats no key. So the sorted form is what the values of a run have in common.
-/

namespace IrDialects.Json

open Text.Units (textLe)

/-- One object somewhere in a value gets its members in another order. -/
inductive Permutes : Json → Json → Prop
  | here {ms ns : Members} : ms.Perm ns → Permutes (.object ms) (.object ns)
  | item (before after : List Json) {v w : Json} :
      Permutes v w → Permutes (.array (before ++ v :: after)) (.array (before ++ w :: after))
  | member (before after : Members) (k : String) {v w : Json} :
      Permutes v w →
        Permutes (.object (before ++ (k, v) :: after)) (.object (before ++ (k, w) :: after))

/-- Equality up to the order of the members of objects at any depth. -/
def Rearranged : Json → Json → Prop := Relation.ReflTransGen Permutes

theorem Permutes.symm {v w : Json} (h : Permutes v w) : Permutes w v := by
  induction h with
  | here hperm => exact .here hperm.symm
  | item before after _ ih => exact .item before after ih
  | member before after k _ ih => exact .member before after k ih

namespace Rearranged

theorem trans {u v w : Json} (huv : Rearranged u v) (hvw : Rearranged v w) : Rearranged u w :=
  Relation.ReflTransGen.trans huv hvw

theorem symm {v w : Json} (h : Rearranged v w) : Rearranged w v := by
  induction h with
  | refl => exact .refl
  | tail _ hstep ih => exact ih.head hstep.symm

theorem item (before after : List Json) {v w : Json} (h : Rearranged v w) :
    Rearranged (.array (before ++ v :: after)) (.array (before ++ w :: after)) := by
  induction h with
  | refl => exact .refl
  | tail _ hstep ih => exact ih.tail (.item before after hstep)

theorem member (before after : Members) (k : String) {v w : Json} (h : Rearranged v w) :
    Rearranged (.object (before ++ (k, v) :: after)) (.object (before ++ (k, w) :: after)) := by
  induction h with
  | refl => exact .refl
  | tail _ hstep ih => exact ih.tail (.member before after k hstep)

variable {f : Json → Json}

/-- Items are rearranged one after the other. -/
theorem items (before : List Json) {vs : List Json} (h : ∀ v ∈ vs, Rearranged v (f v)) :
    Rearranged (.array (before ++ vs)) (.array (before ++ vs.map f)) := by
  induction vs generalizing before with
  | nil => exact .refl
  | cons v vs ih =>
    have hfirst := item before vs (h v (by simp))
    have hrest := ih (before ++ [f v]) fun w hw => h w (by simp [hw])
    refine hfirst.trans ?_
    simpa using hrest

/-- The values of members are rearranged one after the other. -/
theorem members (before : Members) {ms : Members} (h : ∀ m ∈ ms, Rearranged m.2 (f m.2)) :
    Rearranged (.object (before ++ ms)) (.object (before ++ ms.map fun m => (m.1, f m.2))) := by
  induction ms generalizing before with
  | nil => exact .refl
  | cons m ms ih =>
    have hfirst := member before ms m.1 (h m (by simp))
    have hrest := ih (before ++ [(m.1, f m.2)]) fun n hn => h n (by simp [hn])
    refine hfirst.trans ?_
    simpa using hrest

end Rearranged

/-- A step keeps the numbers of a value and whatever does not depend on the order of keys. -/
theorem Permutes.all {num : String → Prop} {keys : List String → Prop}
    (hkeys : ∀ ks ls : List String, ks.Perm ls → keys ks → keys ls) {v w : Json}
    (h : Permutes v w) (hv : v.All num keys) : w.All num keys := by
  induction h with
  | here hperm =>
    rw [all_object] at hv ⊢
    exact ⟨hkeys _ _ (hperm.map Prod.fst) hv.1, fun m hm => hv.2 m (hperm.mem_iff.2 hm)⟩
  | item before after _ ih =>
    rw [all_array] at hv ⊢
    intro u hu
    rcases List.mem_append.1 hu with hu | hu
    · exact hv u (by simp [hu])
    · rcases List.mem_cons.1 hu with rfl | hu
      · exact ih (hv _ (by simp))
      · exact hv u (by simp [hu])
  | member before after k _ ih =>
    rw [all_object] at hv ⊢
    refine ⟨by simpa [Json.keys] using hv.1, ?_⟩
    intro m hm
    rcases List.mem_append.1 hm with hm | hm
    · exact hv.2 m (by simp [hm])
    · rcases List.mem_cons.1 hm with rfl | hm
      · exact ih (hv.2 (k, _) (by simp))
      · exact hv.2 m (by simp [hm])

theorem Rearranged.all {num : String → Prop} {v w : Json} (h : Rearranged v w)
    (hv : v.All num List.Nodup) : w.All num List.Nodup := by
  induction h with
  | refl => exact hv
  | tail _ hstep ih => exact hstep.all (fun _ _ hperm hks => hperm.nodup_iff.1 hks) ih

theorem depthItems_append (vs ws : List Json) :
    depthItems (vs ++ ws) = max (depthItems vs) (depthItems ws) := by
  induction vs with
  | nil => simp [depthItems]
  | cons v vs ih => simp [depthItems, ih, max_assoc]

theorem depthMembers_append (ms ns : Members) :
    depthMembers (ms ++ ns) = max (depthMembers ms) (depthMembers ns) := by
  induction ms with
  | nil => simp [depthMembers]
  | cons m ms ih => simp [depthMembers, ih, max_assoc]

/-- The depth of a value does not depend on the order of members. -/
theorem Permutes.depth_eq {v w : Json} (h : Permutes v w) : w.depth = v.depth := by
  induction h with
  | @here ms ns hperm =>
    have hle {ms ns : Members} (hperm : ms.Perm ns) : depthMembers ms ≤ depthMembers ns := by
      rw [depthMembers_le]
      intro m hm
      exact depthMembers_le.1 le_rfl m (hperm.mem_iff.1 hm)
    simp only [depth, Nat.add_right_cancel_iff]
    exact le_antisymm (hle hperm.symm) (hle hperm)
  | item before after _ ih =>
    rw [depth, depth, depthItems_append, depthItems_append, depthItems, depthItems, ih]
  | member before after k _ ih =>
    rw [depth, depth, depthMembers_append, depthMembers_append, depthMembers, depthMembers, ih]

theorem Rearranged.depth_eq {v w : Json} (h : Rearranged v w) : w.depth = v.depth := by
  induction h with
  | refl => rfl
  | tail _ hstep ih => rw [hstep.depth_eq, ih]

namespace Writer

theorem sortMembers_perm (ms : Members) : (sortMembers ms).Perm ms := List.mergeSort_perm ms _

theorem sortMembers_pairwise (ms : Members) :
    (sortMembers ms).Pairwise fun a b => textLe a.1 b.1 := by
  have htrans (a b c : String × Json) : textLe a.1 b.1 → textLe b.1 c.1 → textLe a.1 c.1 :=
    Text.Units.textLe_trans a.1 b.1 c.1
  have htotal (a b : String × Json) : textLe a.1 b.1 || textLe b.1 a.1 :=
    Text.Units.textLe_total a.1 b.1
  exact List.pairwise_mergeSort htrans htotal ms

/-- Sorted members do not depend on the order they had, if no key is repeated. -/
theorem sortMembers_eq_of_perm {ms ns : Members} (hperm : ms.Perm ns) (hms : (keys ms).Nodup) :
    sortMembers ms = sortMembers ns := by
  have hsorted : (sortMembers ms).Perm (sortMembers ns) :=
    (sortMembers_perm ms).trans (hperm.trans (sortMembers_perm ns).symm)
  refine List.Perm.eq_of_pairwise ?_ (sortMembers_pairwise ms) (sortMembers_pairwise ns) hsorted
  intro a b ha hb hab hba
  have hkey : a.1 = b.1 := Text.Units.textLe_antisymm hab hba
  have ha' : a ∈ ms := (sortMembers_perm ms).mem_iff.1 ha
  have hb' : b ∈ ms := hperm.mem_iff.2 ((sortMembers_perm ns).mem_iff.1 hb)
  -- Both are the member with their key.
  have hget := get?_eq_some_of_mem hms ha'
  rw [hkey, get?_eq_some_of_mem hms hb', Option.some.injEq] at hget
  exact Prod.ext hkey hget.symm

/-- A step does not change the sorted form. -/
theorem sort_eq_of_permutes {num : String → Prop} {v w : Json} (h : Permutes v w)
    (hv : v.All num List.Nodup) : sort v = sort w := by
  induction h with
  | @here ms ns hperm =>
    have hnodup : (keys (sortEach ms)).Nodup := by
      rw [keys_sortEach]
      exact (all_object.1 hv).1
    have heach : (sortEach ms).Perm (sortEach ns) := by
      rw [sortEach_eq_map, sortEach_eq_map]
      exact hperm.map _
    rw [sort, sort, sortMembers_eq_of_perm heach hnodup]
  | item before after _ ih =>
    have hvw := ih (all_array.1 hv _ (by simp))
    simp [sort, sortItems_eq_map, hvw]
  | member before after k _ ih =>
    have hvw := ih ((all_object.1 hv).2 (k, _) (by simp))
    simp [sort, sortEach_eq_map, hvw]

/-- Sorting is a rearrangement. -/
theorem rearranged_sort (v : Json) : Rearranged v (sort v) := by
  induction v using induct with
  | null | bool | number | string => exact .refl
  | array vs ih =>
    rw [sort, sortItems_eq_map]
    exact Rearranged.items [] ih
  | object ms ih =>
    rw [sort, sortEach_eq_map]
    exact (Rearranged.members [] ih).tail (.here (sortMembers_perm _).symm)

/-- Two values have one sorted form exactly if they differ in the order of members only. -/
theorem sort_eq_iff {num : String → Prop} {v w : Json} (hv : v.All num List.Nodup) :
    sort v = sort w ↔ Rearranged v w := by
  constructor
  · intro h
    have hsorted := rearranged_sort v
    rw [h] at hsorted
    exact hsorted.trans (rearranged_sort w).symm
  · intro h
    induction h with
    | refl => rfl
    | tail hrun hstep ih => rw [ih, sort_eq_of_permutes hstep (Rearranged.all hrun hv)]

/-- In a sorted value the keys of every object stand in the order of their code units. -/
theorem sorted_sort {num : String → Prop} {keys : List String → Prop} {v : Json}
    (h : v.All num keys) : (sort v).All num (List.Pairwise fun k l => textLe k l) := by
  induction h with
  | null => exact .null
  | bool b => exact .bool b
  | number h => exact .number h
  | string s => exact .string s
  | array _ ih =>
    rw [sort, sortItems_eq_map, all_array]
    simpa using ih
  | @object ms _ _ ih =>
    rw [sort, all_object]
    refine ⟨List.pairwise_map.2 (sortMembers_pairwise _), fun m hm => ?_⟩
    rw [sortEach_eq_map] at hm
    obtain ⟨m', hm', rfl⟩ := List.mem_map.1 ((sortMembers_perm _).mem_iff.1 hm)
    exact ih m' hm'

end Writer

end IrDialects.Json
