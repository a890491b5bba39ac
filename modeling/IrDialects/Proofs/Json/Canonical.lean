import IrDialects.Json.Digest
import IrDialects.Proofs.Json.Image
import IrDialects.Proofs.Json.RoundTrip

/-!
# What canonical texts and digests tell apart

A text is read back as the value that it spells, so texts of different values differ. The canonical
text forgets the order of members; values whose objects all have their keys in one given order are
told apart by it nevertheless, and so are the bytes that a digest covers.
-/

namespace IrDialects.Json

open Reader (IsNumber IsTokenOf)

/-- Values with the same text are the same. -/
theorem eq_of_value_eq {g : Grammar} {st : Writer.Style} {keys keys' : List String → Prop}
    {v w : Json} (hv : v.All (IsTokenOf g) keys) (hw : w.All (IsTokenOf g) keys')
    (h : Writer.value st v [] = Writer.value st w []) : v = w := by
  have hends : Reader.Ends [] := by simp [Reader.Ends]
  have hbackv : Reader.ReadsBack g st v := Reader.readsBack_value hv
  have hbackw : Reader.ReadsBack g st w := Reader.readsBack_value hw
  have hreadv := hbackv.read (Writer.value st v []).length (max v.depth w.depth) [] le_rfl hends
  have hreadw := hbackw.read (Writer.value st w []).length (max v.depth w.depth) [] le_rfl hends
  rw [if_pos (le_max_left ..)] at hreadv
  rw [if_pos (le_max_right ..), ← h, hreadv] at hreadw
  cases hreadw
  rfl

/-- A function that tells the items of two lists apart tells the lists apart. -/
private theorem eq_of_map_eq {α β : Type} {f : α → β} {xs ys : List α} (h : xs.map f = ys.map f)
    (hf : ∀ x ∈ xs, ∀ y ∈ ys, f x = f y → x = y) : xs = ys := by
  induction xs generalizing ys with
  | nil => simpa using h
  | cons x xs ih =>
    cases ys with
    | nil => simp at h
    | cons y ys =>
      rw [List.map_cons, List.map_cons, List.cons.injEq] at h
      rw [hf x (by simp) y (by simp) h.1,
        ih h.2 fun a ha b hb => hf a (List.mem_cons_of_mem x ha) b (List.mem_cons_of_mem y hb)]

namespace Writer

variable {rank : String → Nat} {num num' : String → Prop}

/-- Sorted members come from members in one order only. -/
theorem eq_of_sortMembers_eq {ms ns : Members} (hm : Ranked rank (keys ms))
    (hn : Ranked rank (keys ns)) (h : sortMembers ms = sortMembers ns) : ms = ns := by
  have hperm : ms.Perm ns := by
    have hsorted : (sortMembers ms).Perm ns := h ▸ List.mergeSort_perm ns _
    exact (List.mergeSort_perm ms _).symm.trans hsorted
  have hms : ms.Pairwise fun a b => rank a.1 < rank b.1 := by
    simpa [Ranked, keys, List.pairwise_map] using hm
  have hns : ns.Pairwise fun a b => rank a.1 < rank b.1 := by
    simpa [Ranked, keys, List.pairwise_map] using hn
  exact List.Perm.eq_of_pairwise (fun _ _ _ _ hab hba => absurd hab (Nat.lt_asymm hba)) hms hns hperm

/-- A sorted value comes from one value with its keys in order. -/
theorem eq_of_sort_eq {v w : Json} (hv : v.All num (Ranked rank)) (hw : w.All num' (Ranked rank))
    (h : sort v = sort w) : v = w := by
  induction hv generalizing w with
  | null | bool | number | string =>
    cases hw <;> simp_all [sort]
  | @array vs _ ih =>
    cases hw with
    | @array ws hws =>
      simp only [sort, sortItems_eq_map, Json.array.injEq] at h
      exact congrArg Json.array (eq_of_map_eq h fun v hv w hw => ih v hv (hws w hw))
    | _ => simp [sort] at h
  | @object ms hks _ ih =>
    cases hw with
    | @object ns hls hns =>
      simp only [sort, Json.object.injEq] at h
      have heach : sortEach ms = sortEach ns :=
        eq_of_sortMembers_eq (by rwa [keys_sortEach]) (by rwa [keys_sortEach]) h
      rw [sortEach_eq_map, sortEach_eq_map] at heach
      refine congrArg Json.object (eq_of_map_eq heach ?_)
      rintro ⟨k, v⟩ hv ⟨l, w⟩ hw hvw
      rw [Prod.mk.injEq] at hvw
      exact Prod.ext hvw.1 (ih _ hv (hns _ hw) hvw.2)
    | _ => simp [sort] at h

end Writer

section Ranked

variable {rank : String → Nat} {v w : Json}

/-- The canonical text of a value without repeated keys. -/
theorem canonical_of_ranked (hv : v.All IsNumber (Ranked rank)) :
    canonical v = .ok (String.ofList (Writer.value ⟨false⟩ (Writer.sort v) [])) := by
  have hclean : v.Clean := hv.imp (fun _ hs => hs) fun _ hks => hks.nodup
  rw [canonical, Writer.settle_eq_self hclean,
    Writer.text_eq_ok (fault?_eq_none_of_isNumber (Writer.all_sort hv))]

/-- Values with their keys in order are told apart by their canonical texts. -/
theorem canonical_inj (hv : v.All IsNumber (Ranked rank)) (hw : w.All IsNumber (Ranked rank)) :
    canonical v = canonical w ↔ v = w := by
  refine ⟨fun h => ?_, congrArg canonical⟩
  have htoken {u : Json} (hu : u.All IsNumber (Ranked rank)) :
      (Writer.sort u).All (IsTokenOf Reader.strict) fun _ => True :=
    (Writer.all_sort hu).imp (fun _ hs => Reader.isTokenOf_strict hs.1) fun _ hks => hks
  rw [canonical_of_ranked hv, canonical_of_ranked hw, Except.ok.injEq, String.ofList_inj] at h
  exact Writer.eq_of_sort_eq hv hw (eq_of_value_eq (htoken hv) (htoken hw) h)

/-- The bytes that a digest covers exist, and those of different values differ. -/
theorem digestInput_inj (domain : String) (hv : v.All IsNumber (Ranked rank))
    (hw : w.All IsNumber (Ranked rank)) : ∃ xs ys, digestInput domain v = .ok xs ∧
      digestInput domain w = .ok ys ∧ (xs = ys ↔ v = w) := by
  have hinj := canonical_inj hv hw
  rw [canonical_of_ranked hv, canonical_of_ranked hw, Except.ok.injEq] at hinj
  refine ⟨_, _, by rw [digestInput, canonical_of_ranked hv]; rfl,
    by rw [digestInput, canonical_of_ranked hw]; rfl, ?_⟩
  rw [List.append_cancel_left_eq, List.cons.injEq, and_iff_right rfl, ← hinj]
  exact Text.Bytes.encode_inj

end Ranked

end IrDialects.Json
