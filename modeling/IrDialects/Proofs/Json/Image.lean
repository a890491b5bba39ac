import IrDialects.Proofs.Json.Content
import IrDialects.Proofs.Json.NumberText

/-!
# Values that are read

Every number of a value that was read from a text is spelt as it stood there, no object of a
document repeats a key, and its containers are not nested too deeply.
-/

namespace IrDialects.Json

namespace Reader

/-- The numbers of a value are tokens, and it has at most `room` nested containers. -/
def Fits (room : Nat) (v : Json) : Prop := v.All IsToken (fun _ => True) ∧ v.depth ≤ room

theorem fits_array {room : Nat} {vs : List Json} (h : ∀ v ∈ vs, Fits room v) :
    Fits (room + 1) (.array vs) := by
  refine ⟨.array fun v hv => (h v hv).1, Nat.succ_le_succ ?_⟩
  exact depthItems_le.2 fun v hv => (h v hv).2

theorem fits_object {room : Nat} {ms : Members} (h : ∀ m ∈ ms, Fits room m.2) :
    Fits (room + 1) (.object ms) := by
  refine ⟨.object trivial fun m hm => (h m hm).1, Nat.succ_le_succ ?_⟩
  exact depthMembers_le.2 fun m hm => (h m hm).2

theorem number?_eq_some {room : Nat} {c : Char} {cs rest : List Char} {v : Json}
    (hc : (c.isDigit || c == '-') = true) (h : number? lenient (c :: cs) = some (v, rest)) :
    Fits room v := by
  simp only [number?] at h
  split at h
  · rename_i hnum
    cases h
    have hnc : isNumberChar c := by
      rcases Bool.or_eq_true_iff.1 hc with hd | hm
      · exact isNumberChar_of_isDigit hd
      · simp [isNumberChar, hm]
    refine ⟨.number ⟨?_, ?_, ?_⟩, Nat.zero_le _⟩
    · rw [String.toList_ofList, List.takeWhile_cons_of_pos hnc]
      simpa using hc
    · rw [String.toList_ofList]
      exact List.all_eq_true.1 List.all_takeWhile
    · rw [isNumber_lenient] at hnum
      rw [String.toList_ofList]
      exact hnum
  · cases h

/-- The values that the three mutual readers give with some fuel. -/
structure ImageAt (fuel : Nat) : Prop where
  value : ∀ {room cs v rest}, value? lenient fuel room cs = some (v, rest) → Fits room v
  items : ∀ {room cs vs rest}, items? lenient fuel room cs = some (vs, rest) →
    ∀ v ∈ vs, Fits room v
  members : ∀ {room cs ms rest}, members? lenient fuel room cs = some (ms, rest) →
    ∀ m ∈ ms, Fits room m.2

variable {fuel : Nat}

private theorem value_of_imageAt (ih : ImageAt fuel) {room : Nat} {cs rest : List Char} {v : Json}
    (h : value? lenient (fuel + 1) room cs = some (v, rest)) : Fits room v := by
  rw [value?] at h
  split at h
  · cases h
  · cases h
    exact ⟨.null, Nat.zero_le _⟩
  · cases h
    exact ⟨.bool true, Nat.zero_le _⟩
  · cases h
    exact ⟨.bool false, Nat.zero_le _⟩
  · obtain ⟨⟨s, rest'⟩, -, h⟩ := Option.map_eq_some_iff.1 h
    cases h
    exact ⟨.string s, Nat.zero_le _⟩
  · split at h
    · cases h
    · cases h
      exact fits_array (by simp)
    · obtain ⟨⟨vs, rest'⟩, hvs, h⟩ := Option.map_eq_some_iff.1 h
      cases h
      exact fits_array (ih.items hvs)
  · split at h
    · cases h
    · cases h
      exact fits_object (by simp)
    · obtain ⟨⟨ms, rest'⟩, hms, h⟩ := Option.map_eq_some_iff.1 h
      cases h
      exact fits_object (ih.members hms)
  · split at h
    · rename_i hc
      exact number?_eq_some hc h
    · cases h

private theorem items_of_imageAt (ih : ImageAt fuel) {room : Nat} {cs rest : List Char}
    {vs : List Json} (h : items? lenient (fuel + 1) room cs = some (vs, rest)) :
    ∀ v ∈ vs, Fits room v := by
  rw [items?] at h
  obtain ⟨⟨v, rest'⟩, hv, h⟩ := Option.bind_eq_some_iff.1 h
  dsimp only at h
  split at h
  · obtain ⟨⟨ws, rest''⟩, hws, h⟩ := Option.bind_eq_some_iff.1 h
    cases h
    simpa using ⟨ih.value hv, ih.items hws⟩
  · cases h
    simpa using ih.value hv
  · cases h

private theorem members_of_imageAt (ih : ImageAt fuel) {room : Nat} {cs rest : List Char}
    {ms : Members} (h : members? lenient (fuel + 1) room cs = some (ms, rest)) :
    ∀ m ∈ ms, Fits room m.2 := by
  rw [members?] at h
  split at h
  · obtain ⟨⟨k, rest'⟩, -, h⟩ := Option.bind_eq_some_iff.1 h
    dsimp only at h
    split at h
    · obtain ⟨⟨v, rest''⟩, hv, h⟩ := Option.bind_eq_some_iff.1 h
      dsimp only at h
      split at h
      · obtain ⟨⟨ws, rest'''⟩, hws, h⟩ := Option.bind_eq_some_iff.1 h
        cases h
        simpa using ⟨ih.value hv, fun k w hw => ih.members hws (k, w) hw⟩
      · cases h
        simpa using ih.value hv
      · cases h
    · cases h
  · cases h

theorem imageAt (fuel : Nat) : ImageAt fuel := by
  induction fuel with
  | zero => exact ⟨by simp [value?], by simp [items?], by simp [members?]⟩
  | succ fuel ih =>
    exact ⟨value_of_imageAt ih, items_of_imageAt ih, members_of_imageAt ih⟩

end Reader

theorem All.and {num num' : String → Prop} {keys keys' : List String → Prop} {v : Json}
    (h : v.All num keys) (h' : v.All num' keys') :
    v.All (fun s => num s ∧ num' s) fun ks => keys ks ∧ keys' ks := by
  induction h with
  | null => exact .null
  | bool b => exact .bool b
  | number h => exact .number ⟨h, all_number.1 h'⟩
  | string s => exact .string s
  | array _ ih => exact .array fun v hv => ih v hv (all_array.1 h' v hv)
  | object hk _ ih =>
    have h'' := all_object.1 h'
    exact .object ⟨hk, h''.1⟩ fun m hm => ih m hm (h''.2 m hm)

/-- A value as a document can have it: its numbers are tokens, and its objects repeat no key. -/
abbrev Orderly (v : Json) : Prop := v.All Reader.IsToken List.Nodup

/-- The items of an array that follow the first one. -/
theorem Orderly.fields {v : Json} {fs : List Json} (h : (Json.array (v :: fs)).Orderly) :
    fs.Forall Orderly :=
  List.forall_iff_forall_mem.2 fun w hw => all_array.1 h w (List.mem_cons_of_mem v hw)

/-- A value that can be written: its numbers are spelt as JSON has it, and its objects repeat no
key. -/
abbrev Clean (v : Json) : Prop := v.All Reader.IsNumber List.Nodup

theorem Clean.orderly {v : Json} (h : v.Clean) : v.Orderly :=
  h.imp (fun _ hs => hs.isToken) fun _ hk => hk

section Writing

variable {keys : List String → Prop} {v : Json}

theorem fault?_eq_none_of_isNumber (h : v.All Reader.IsNumber keys) : Writer.fault? v = none :=
  Writer.fault?_eq_none.2 (h.imp (fun _ hs => hs.isStrictText) fun _ _ => trivial)

/-- A value whose numbers are spelt as JSON has it can be written, even if it repeats keys. -/
theorem exists_marshal (h : v.All Reader.IsNumber keys) : ∃ text, marshal v = .ok text :=
  ⟨_, Writer.text_eq_ok (fault?_eq_none_of_isNumber (Writer.all_settle h))⟩

theorem exists_canonical (h : v.All Reader.IsNumber keys) : ∃ text, canonical v = .ok text :=
  ⟨_, Writer.text_eq_ok (fault?_eq_none_of_isNumber (Writer.all_sort (Writer.all_settle h)))⟩

end Writing

/-- A value that was read is not nested too deeply, its numbers are tokens, and it repeats no key. -/
theorem orderly_and_depth_le_of_parseBytes {bytes : List UInt8} {v : Json}
    (h : parseBytes bytes = .ok v) : v.Orderly ∧ v.depth ≤ Reader.depthLimit := by
  rw [parseBytes, parseChars] at h
  split at h
  · cases h
  · rename_i w rest hread
    dsimp only at h
    split at h
    · cases h
    · split at h
      · cases h
      · rename_i hkeys
        split at h
        · cases h
        · cases h
          obtain ⟨htokens, hdepth⟩ := (Reader.imageAt _).value hread
          have hall := htokens.and (repeatedKey?_eq_none.1 hkeys)
          exact ⟨hall.imp (fun _ h => h.1) fun _ h => h.2, hdepth⟩

theorem orderly_of_parseBytes {bytes : List UInt8} {v : Json} (h : parseBytes bytes = .ok v) :
    v.Orderly :=
  (orderly_and_depth_le_of_parseBytes h).1

end IrDialects.Json
