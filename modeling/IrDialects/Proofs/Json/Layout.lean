import IrDialects.Proofs.Json.Image
import IrDialects.Proofs.Json.Indentation

/-!
# Written JSON can be laid out

The compact text of a value whose numbers are tokens can be laid out over several lines, however deeply
the value is nested and whether or not it repeats a key.
-/

namespace IrDialects.Json

open Reader (Ends IsToken skipBlanks skipBlanks_cons skipBlanks_of_isStart ends_cons
  exists_succ_of_isText)
open Writer (Style IsText isStart isText_value escapeChar)

namespace Layout

variable {st : Style} {fuel : Nat} {tail rest : List Char}

/-- The text ends a string, and something follows it. -/
def Closes (tail rest : List Char) : Prop := ∃ s, closeString tail = .ok (s, rest)

theorem Closes.plain {c : Char} (hq : c ≠ '"') (hb : c ≠ '\\') (h : Closes tail rest) :
    Closes (c :: tail) rest := by
  obtain ⟨s, h⟩ := h
  refine ⟨c :: s, ?_⟩
  rw [closeString, h]
  · rfl
  · exact hq
  · exact fun _ _ hc _ => hb hc

theorem Closes.escaped (e : Char) (h : Closes tail rest) : Closes ('\\' :: e :: tail) rest := by
  obtain ⟨s, h⟩ := h
  refine ⟨'\\' :: e :: s, ?_⟩
  rw [closeString, h]
  rfl

theorem Closes.hex (h : Closes tail rest) (width n : Nat) :
    Closes (Text.Quoted.hex width n ++ tail) rest := by
  have hdigit : ∀ m < 16, Nat.digitChar m ≠ '"' ∧ Nat.digitChar m ≠ '\\' := by decide
  induction width generalizing n tail with
  | zero => exact h
  | succ width ih =>
    obtain ⟨hq, hb⟩ := hdigit _ (Nat.mod_lt n (by omega))
    rw [Text.Quoted.hex, List.append_assoc]
    exact ih (h.plain hq hb) _

theorem Closes.escapeChar (h : Closes tail rest) (c : Char) :
    Closes (escapeChar st c ++ tail) rest := by
  rw [Writer.escapeChar]
  split_ifs with hq hb
  iterate 7 exact h.escaped _
  · exact (h.hex 4 c.toNat).escaped 'u'
  · exact h.plain hq hb

/-- A written string is a string to the layout, whatever follows. -/
theorem exists_string (st : Style) (s : String) (rest : List Char) :
    ∃ k, string (Writer.string st s rest) = .ok (k, rest) := by
  have hclose (cs : List Char) : Closes (cs.flatMap (Writer.escapeChar st) ++ '"' :: rest) rest := by
    induction cs with
    | nil => exact ⟨_, rfl⟩
    | cons c cs ih =>
      rw [List.flatMap_cons, List.append_assoc]
      exact ih.escapeChar c
  obtain ⟨k, hk⟩ := hclose s.toList
  refine ⟨'"' :: k, ?_⟩
  rw [Writer.string, string, hk]
  rfl

/-- A token is a number to the layout, whatever follows that cannot belong to it. -/
theorem number_token {s : String} (hs : IsToken s) (hrest : Ends rest) :
    number (s.toList ++ rest) = .ok (.scalar s.toList, rest) := by
  obtain ⟨htake, hdrop⟩ := Reader.takeWhile_append_of_ends hs.chars hrest
  have hnum := hs.numeral
  rw [Reader.isNumeral, String.ofList_toList] at hnum
  rw [number, htake, hdrop, String.ofList_toList]
  cases hread : Number.Numeral.read s with
  | value x => rfl
  | malformed => simp [hread] at hnum
  | overflow n => simp [hread] at hnum

/-- A number is told by its first character. -/
theorem value_eq_number {c : Char} (h : (c.isDigit || c == '-') = true) (fuel : Nat) (cs : List Char) :
    value (fuel + 1) (c :: cs) = number (c :: cs) := by
  have hne {d : Char} (hd : (d.isDigit || d == '-') = false) : c ≠ d := by
    rintro rfl
    rw [h] at hd
    cases hd
  rw [value.eq_def]
  dsimp only
  rw [skipBlanks_of_isStart (Writer.isStart_of_number h)]
  -- Every other first character is excluded, since it is neither a digit nor a minus sign.
  split
  case h_8 heq =>
    cases heq
    rw [if_pos h]
  all_goals
    rename_i heq
    cases heq
  all_goals exact absurd rfl (hne (by decide))

theorem value_quote (fuel : Nat) (cs : List Char) :
    value (fuel + 1) ('"' :: cs) = (string ('"' :: cs)).map fun r => (.scalar r.1, r.2) := by
  rw [value, skipBlanks_cons (by decide)]
  rfl

theorem value_bracket (fuel : Nat) (cs : List Char) :
    value (fuel + 1) ('[' :: cs) = match skipBlanks cs with
      | ']' :: rest => .ok (.array [], rest)
      | rest => (items fuel rest).map fun r => (.array r.1, r.2) := by
  rw [value, skipBlanks_cons (by decide)]
  rfl

theorem value_bracket_start {cs : List Char} (h : cs.head?.any isStart) (fuel : Nat) :
    value (fuel + 1) ('[' :: cs) = (items fuel cs).map fun r => (.array r.1, r.2) := by
  cases cs with
  | nil => simp at h
  | cons c cs =>
    have hc : isStart c := by simpa using h
    rw [value_bracket, skipBlanks_of_isStart hc]
    split
    · rename_i heq
      cases heq
      exact absurd hc (by decide)
    · rfl

theorem value_brace (fuel : Nat) (cs : List Char) :
    value (fuel + 1) ('\x7b' :: cs) = match skipBlanks cs with
      | '\x7d' :: rest => .ok (.object [], rest)
      | rest => (members fuel rest).map fun r => (.object r.1, r.2) := by
  rw [value, skipBlanks_cons (by decide)]
  rfl

theorem value_brace_quote (fuel : Nat) (cs : List Char) :
    value (fuel + 1) ('\x7b' :: '"' :: cs) =
      (members fuel ('"' :: cs)).map fun r => (.object r.1, r.2) := by
  rw [value_brace, skipBlanks_cons (by decide)]
  rfl

section Entries

variable {cs : List Char} {o : Outline}

theorem items_last (h : value fuel cs = .ok (o, ']' :: rest)) :
    items (fuel + 1) cs = .ok ([o], rest) := by
  rw [items, h]
  rfl

theorem items_more {os : List Outline} (h : value fuel cs = .ok (o, ',' :: tail))
    (hs : items fuel tail = .ok (os, rest)) : items (fuel + 1) cs = .ok (o :: os, rest) := by
  rw [items, h]
  show (items fuel tail >>= fun r => pure (o :: r.1, r.2)) = _
  rw [hs]
  rfl

variable {k : String} {after : List Char}

theorem exists_members_last (h : value fuel after = .ok (o, '\x7d' :: rest)) :
    ∃ os, members (fuel + 1) (Writer.string st k (':' :: after)) = .ok (os, rest) := by
  obtain ⟨key, hkey⟩ := exists_string st k (':' :: after)
  refine ⟨[(key, o)], ?_⟩
  have hskip : skipBlanks (Writer.string st k (':' :: after)) = Writer.string st k (':' :: after) :=
    skipBlanks_cons (by decide)
  rw [members, hskip, hkey]
  show (value fuel after >>= _) = _
  rw [h]
  rfl

theorem exists_members_more {os : List (List Char × Outline)}
    (h : value fuel after = .ok (o, ',' :: tail)) (hs : members fuel tail = .ok (os, rest)) :
    ∃ os, members (fuel + 1) (Writer.string st k (':' :: after)) = .ok (os, rest) := by
  obtain ⟨key, hkey⟩ := exists_string st k (':' :: after)
  refine ⟨(key, o) :: os, ?_⟩
  have hskip : skipBlanks (Writer.string st k (':' :: after)) = Writer.string st k (':' :: after) :=
    skipBlanks_cons (by decide)
  rw [members, hskip, hkey]
  show (value fuel after >>= _) = _
  rw [h]
  show (members fuel tail >>= fun r => pure ((key, o) :: r.1, r.2)) = _
  rw [hs]
  rfl

end Entries

/-- The text of a value has an outline, whatever follows. -/
structure Outlined (st : Style) (v : Json) : Prop where
  text : IsText (Writer.value st v)
  exists_outline : ∀ fuel rest, (Writer.value st v []).length ≤ fuel → Ends rest →
    ∃ o, value fuel (Writer.value st v rest) = .ok (o, rest)

theorem exists_items {v : Json} {vs : List Json} (hv : Outlined st v) (hvs : ∀ v ∈ vs, Outlined st v)
    (rest : List Char) (fuel : Nat)
    (hf : (Writer.value st v []).length + (Writer.items st vs []).length + 1 ≤ fuel) :
    ∃ os, items fuel (Writer.value st v (Writer.items st vs (']' :: rest))) = .ok (os, rest) := by
  induction vs generalizing v fuel with
  | nil =>
    obtain ⟨fuel, rfl⟩ : ∃ n, fuel = n + 1 := ⟨fuel - 1, by omega⟩
    obtain ⟨o, ho⟩ := hv.exists_outline fuel (']' :: rest) (by omega) (ends_cons rfl rest)
    exact ⟨_, items_last ho⟩
  | cons w vs ih =>
    obtain ⟨fuel, rfl⟩ : ∃ n, fuel = n + 1 := ⟨fuel - 1, by omega⟩
    have hw := hvs w (by simp)
    have hlen := Writer.length_items_cons hw.text vs
    have hpos := hv.text.length_pos
    obtain ⟨o, ho⟩ := hv.exists_outline fuel (Writer.items st (w :: vs) (']' :: rest)) (by omega)
      (ends_cons rfl _)
    obtain ⟨os, hos⟩ := ih hw (fun x hx => hvs x (by simp [hx])) fuel (by omega)
    exact ⟨_, items_more ho hos⟩

theorem exists_members {v : Json} {ms : Members} (hv : Outlined st v)
    (hms : ∀ m ∈ ms, Outlined st m.2) (k : String) (rest : List Char) (fuel : Nat)
    (hf : (Writer.value st v []).length + (Writer.members st ms []).length + 1 ≤ fuel) :
    ∃ os, members fuel
      (Writer.string st k (':' :: Writer.value st v (Writer.members st ms ('\x7d' :: rest)))) =
        .ok (os, rest) := by
  induction ms generalizing k v fuel with
  | nil =>
    obtain ⟨fuel, rfl⟩ : ∃ n, fuel = n + 1 := ⟨fuel - 1, by omega⟩
    obtain ⟨o, ho⟩ := hv.exists_outline fuel ('\x7d' :: rest) (by omega) (ends_cons rfl rest)
    exact exists_members_last ho
  | cons m ms ih =>
    obtain ⟨l, w⟩ := m
    obtain ⟨fuel, rfl⟩ : ∃ n, fuel = n + 1 := ⟨fuel - 1, by omega⟩
    have hw : Outlined st w := hms (l, w) (by simp)
    have hlen := Writer.length_members_cons hw.text l ms
    have hpos := hv.text.length_pos
    obtain ⟨o, ho⟩ := hv.exists_outline fuel (Writer.members st ((l, w) :: ms) ('\x7d' :: rest))
      (by omega) (ends_cons rfl _)
    obtain ⟨os, hos⟩ := ih hw (fun x hx => hms x (by simp [hx])) l fuel (by omega)
    exact exists_members_more ho hos

/-- The text of a value whose numbers are tokens has an outline. -/
theorem outlined_value {keys : List String → Prop} {v : Json} (h : v.All IsToken keys) :
    Outlined st v := by
  have htext {w : Json} (hw : w.All IsToken keys) : IsText (Writer.value st w) :=
    isText_value (hw.imp (fun _ => IsToken.isTokenOf) fun _ hks => hks)
  refine ⟨htext h, fun fuel rest hf hrest => ?_⟩
  -- As for the reader, but a layout has no limit of depth, so there is always one.
  induction h generalizing fuel rest with
  | null =>
    obtain ⟨fuel, rfl⟩ := exists_succ_of_isText (htext .null) hf
    rw [Writer.value, value, skipBlanks_cons (by decide)]
    exact ⟨_, rfl⟩
  | bool b =>
    obtain ⟨fuel, rfl⟩ := exists_succ_of_isText (htext (.bool b)) hf
    cases b <;> rw [Writer.value, value, skipBlanks_cons (by decide)] <;> exact ⟨_, rfl⟩
  | @number s h =>
    obtain ⟨fuel, rfl⟩ := exists_succ_of_isText (htext (.number h)) hf
    refine ⟨.scalar s.toList, ?_⟩
    rw [Writer.value, ← number_token h hrest]
    have hhead := h.head
    cases hcs : s.toList with
    | nil => simp [hcs] at hhead
    | cons c cs =>
      rw [hcs] at hhead
      exact value_eq_number (by simpa using hhead) fuel (cs ++ rest)
  | string s =>
    obtain ⟨fuel, rfl⟩ := exists_succ_of_isText (htext (.string s)) hf
    obtain ⟨k, hk⟩ := exists_string st s rest
    rw [Writer.string] at hk
    rw [Writer.value, Writer.string, value_quote, hk]
    exact ⟨_, rfl⟩
  | @array vs hvs ih =>
    obtain ⟨fuel, rfl⟩ := exists_succ_of_isText (htext (.array hvs)) hf
    cases vs with
    | nil =>
      rw [Writer.value, value_bracket]
      exact ⟨_, rfl⟩
    | cons v vs =>
      have hread : ∀ w ∈ v :: vs, Outlined st w := fun w hw =>
        ⟨htext (hvs w hw), fun fuel rest => ih w hw fuel rest⟩
      have hv := hread v (by simp)
      have hvs' : ∀ w ∈ vs, Outlined st w := fun w hw => hread w (by simp [hw])
      have hlen := Writer.length_array_cons hv.text fun w hw => (hvs' w hw).text
      obtain ⟨c, cs, hcs, hc⟩ := hv.text.exists_cons (Writer.items st vs (']' :: rest))
      obtain ⟨os, hos⟩ := exists_items hv hvs' rest fuel (by omega)
      rw [Writer.value, value_bracket_start (by rw [hcs]; simpa using hc), hos]
      exact ⟨_, rfl⟩
  | @object ms hk hms ih =>
    obtain ⟨fuel, rfl⟩ := exists_succ_of_isText (htext (.object hk hms)) hf
    cases ms with
    | nil =>
      rw [Writer.value, value_brace]
      exact ⟨_, rfl⟩
    | cons m ms =>
      obtain ⟨k, v⟩ := m
      have hread : ∀ m ∈ (k, v) :: ms, Outlined st m.2 := fun m hm =>
        ⟨htext (hms m hm), fun fuel rest => ih m hm fuel rest⟩
      have hv : Outlined st v := hread (k, v) (by simp)
      have hms' : ∀ m ∈ ms, Outlined st m.2 := fun m hm => hread m (by simp [hm])
      have hlen := Writer.length_object_cons hv.text (fun m hm => (hms' m hm).text) k
      obtain ⟨os, hos⟩ := exists_members hv hms' k rest fuel (by omega)
      rw [Writer.string] at hos
      rw [Writer.value, Writer.string, value_brace_quote, hos]
      exact ⟨_, rfl⟩

end Layout

/-- The compact text of a value whose numbers are tokens can be laid out. -/
theorem exists_indent {keys : List String → Prop} {v : Json} {text : String}
    (h : v.All IsToken keys) (ht : marshal v = .ok text) :
    ∃ laid, indent text = .ok laid ∧ LaidOut text laid := by
  obtain rfl : text = String.ofList (Writer.value ⟨true⟩ (Writer.settle v) []) := by
    rw [marshal, Writer.text] at ht
    split at ht
    · cases ht
    · cases ht
      rfl
  have hout : Layout.Outlined ⟨true⟩ (Writer.settle v) := Layout.outlined_value (Writer.all_settle h)
  have hends : Ends [] := by simp [Ends]
  have hpos := hout.text.length_pos
  obtain ⟨o, ho⟩ := hout.exists_outline
    (2 * (Writer.value ⟨true⟩ (Writer.settle v) []).length + 2) [] (by omega) hends
  have hne : (Writer.value ⟨true⟩ (Writer.settle v) []).isEmpty = false := by
    rw [List.isEmpty_eq_false_iff, ← List.length_pos_iff]
    exact hpos
  have hlaid : indent (String.ofList (Writer.value ⟨true⟩ (Writer.settle v) [])) =
      .ok (Layout.render 0 o) := by
    rw [indent, String.toList_ofList, Layout.outline, hne, Reader.upToNul_eq_self hout.text.nul, ho]
    rfl
  exact ⟨_, hlaid, laidOut_of_indent hlaid (by rw [String.toList_ofList]; exact hout.text.nul)⟩

end IrDialects.Json
