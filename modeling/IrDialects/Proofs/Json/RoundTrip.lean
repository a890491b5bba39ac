import IrDialects.Proofs.Json.Content
import IrDialects.Proofs.Json.NumberText
import IrDialects.Proofs.Json.StringText
import IrDialects.Proofs.Text.Utf8
import Mathlib.Data.List.TakeWhile

/-!
# Texts of values read back

The compact text of a value whose numbers are spelt as they are read: reading it gives the value
back, if the value is not nested too deeply and repeats no key.
-/

namespace IrDialects.Json

open Reader

namespace Writer

variable {st : Style}

/-- A character with which the text of a value can begin. -/
def isStart (c : Char) : Bool := !isBlank c && c != ',' && c != ':' && c != ']' && c != '\x7d'

theorem isStart_of_number {c : Char} (h : (c.isDigit || c == '-') = true) : isStart c := by
  have hne {d : Char} (hd : (d.isDigit || d == '-') = false) : (c == d) = false := by
    rw [beq_eq_false_iff_ne]
    rintro rfl
    rw [h] at hd
    cases hd
  simp [isStart, isBlank, hne, bne]

theorem nul_notMem_of_number {cs : List Char} (h : ∀ c ∈ cs, isNumberChar c) : '\x00' ∉ cs :=
  fun hm => absurd (h _ hm) (by decide)

theorem nul_notMem_hex (width n : Nat) : '\x00' ∉ Text.Quoted.hex width n := by
  have hdigit : ∀ m < 16, '\x00' ≠ Nat.digitChar m := by decide
  induction width generalizing n with
  | zero => simp [Text.Quoted.hex]
  | succ width ih =>
    simp only [Text.Quoted.hex, List.mem_append, List.mem_singleton, not_or]
    exact ⟨ih _, hdigit _ (Nat.mod_lt n (by omega))⟩

theorem nul_notMem_escapeChar (c : Char) : '\x00' ∉ escapeChar st c := by
  rw [escapeChar]
  split_ifs with h1 h2 h3 h4 h5 h6 h7 h8
  iterate 7 decide
  · simpa using nul_notMem_hex 4 c.toNat
  · rw [List.mem_singleton]
    rintro rfl
    exact h8 rfl

theorem nul_notMem_string (s : String) : '\x00' ∉ string st s [] := by
  simp [string, nul_notMem_escapeChar]

theorem string_append (s : String) (rest : List Char) :
    string st s rest = string st s [] ++ rest := by
  simp [string]

/-- A text that stands in front of whatever follows it, begins like a value and holds no NUL. -/
structure IsText (f : List Char → List Char) : Prop where
  append : ∀ rest, f rest = f [] ++ rest
  start : (f []).head?.any isStart
  nul : '\x00' ∉ f []

variable {num : String → Prop} {keys : List String → Prop}

theorem items_append {vs : List Json} (h : ∀ v ∈ vs, IsText (value st v)) :
    (∀ rest, items st vs rest = items st vs [] ++ rest) ∧ '\x00' ∉ items st vs [] := by
  induction vs with
  | nil => exact ⟨fun _ => rfl, by simp [items]⟩
  | cons v vs ih =>
    obtain ⟨happ, hnul⟩ := ih fun w hw => h w (by simp [hw])
    have hv := h v (by simp)
    constructor
    · intro rest
      rw [items, items, hv.append, happ, hv.append (items st vs [])]
      simp
    · rw [items, hv.append]
      simpa using ⟨hv.nul, hnul⟩

theorem members_append {ms : Members} (h : ∀ m ∈ ms, IsText (value st m.2)) :
    (∀ rest, members st ms rest = members st ms [] ++ rest) ∧ '\x00' ∉ members st ms [] := by
  induction ms with
  | nil => exact ⟨fun _ => rfl, by simp [members]⟩
  | cons m ms ih =>
    obtain ⟨k, v⟩ := m
    obtain ⟨happ, hnul⟩ := ih fun w hw => h w (by simp [hw])
    have hv := h (k, v) (by simp)
    constructor
    · intro rest
      rw [members, members, string_append, hv.append, happ, string_append _ (':' :: _),
        hv.append (members st ms [])]
      simp
    · rw [members, string_append, hv.append]
      simpa using ⟨nul_notMem_string k, hv.nul, hnul⟩

theorem isText_value {g : Grammar} {v : Json} (h : v.All (IsTokenOf g) keys) :
    IsText (value st v) := by
  induction h with
  | null => exact ⟨fun _ => rfl, rfl, by simp [value]⟩
  | bool b => cases b <;> exact ⟨fun _ => rfl, rfl, by simp [value]⟩
  | @number s h =>
    refine ⟨fun rest => by simp [value], ?_, ?_⟩
    · cases hs : s.toList with
      | nil => simpa [hs] using h.head
      | cons c cs =>
        have hc := h.head
        rw [hs] at hc
        simpa [value, hs] using isStart_of_number (by simpa using hc)
    · simpa [value] using nul_notMem_of_number h.chars
  | string s => exact ⟨string_append s, rfl, nul_notMem_string s⟩
  | @array vs _ ih =>
    cases vs with
    | nil => exact ⟨fun _ => rfl, rfl, by simp [value]⟩
    | cons v vs =>
      have hv := ih v (by simp)
      obtain ⟨happ, hnul⟩ := items_append fun w (hw : w ∈ vs) => ih w (by simp [hw])
      refine ⟨fun rest => ?_, rfl, ?_⟩
      · rw [value, value, hv.append, happ, hv.append (items st vs _), happ [']']]
        simp
      · rw [value, hv.append, happ]
        simpa using ⟨hv.nul, hnul⟩
  | @object ms _ _ ih =>
    cases ms with
    | nil => exact ⟨fun _ => rfl, rfl, by simp [value]⟩
    | cons m ms =>
      obtain ⟨k, v⟩ := m
      have hv := ih (k, v) (by simp)
      obtain ⟨happ, hnul⟩ := members_append fun w (hw : w ∈ ms) => ih w (by simp [hw])
      refine ⟨fun rest => ?_, rfl, ?_⟩
      · rw [value, value, string_append, hv.append, happ, string_append _ (':' :: _),
          hv.append (members st ms _), happ ['\x7d']]
        simp
      · rw [value, string_append, hv.append, happ]
        simpa using ⟨nul_notMem_string k, hv.nul, hnul⟩

theorem IsText.length_pos {f : List Char → List Char} (h : IsText f) : 0 < (f []).length := by
  have hs := h.start
  cases hf : f [] with
  | nil => simp [hf] at hs
  | cons c cs => simp

theorem IsText.exists_cons {f : List Char → List Char} (h : IsText f) (rest : List Char) :
    ∃ c cs, f rest = c :: cs ∧ isStart c := by
  have hs := h.start
  cases hf : f [] with
  | nil => simp [hf] at hs
  | cons c cs => exact ⟨c, cs ++ rest, by rw [h.append, hf]; rfl, by simpa [hf] using hs⟩

section Length

variable {st : Style} {v : Json}

theorem length_items_cons (hv : IsText (value st v)) (vs : List Json) :
    (items st (v :: vs) []).length = (value st v []).length + (items st vs []).length + 1 := by
  rw [items, hv.append]
  simp

theorem length_members_cons (hv : IsText (value st v)) (k : String) (ms : Members) :
    (value st v []).length + (members st ms []).length + 1 ≤ (members st ((k, v) :: ms) []).length := by
  rw [members, string_append, hv.append (members st ms [])]
  simp only [List.length_cons, List.length_append]
  omega

theorem length_array_cons (hv : IsText (value st v)) {vs : List Json}
    (hvs : ∀ w ∈ vs, IsText (value st w)) :
    (value st (.array (v :: vs)) []).length = (value st v []).length + (items st vs []).length + 2 := by
  obtain ⟨happ, -⟩ := items_append hvs
  rw [value, hv.append, happ]
  simp
  omega

theorem length_object_cons (hv : IsText (value st v)) {ms : Members}
    (hms : ∀ m ∈ ms, IsText (value st m.2)) (k : String) :
    (value st v []).length + (members st ms []).length + 2 ≤
      (value st (.object ((k, v) :: ms)) []).length := by
  obtain ⟨happ, -⟩ := members_append hms
  rw [value, string_append, hv.append (members st ms _), happ ['\x7d']]
  simp
  omega

end Length

end Writer

namespace Reader

open Writer

variable {g : Grammar} {fuel room : Nat}

theorem skipBlanks_cons {c : Char} {cs : List Char} (h : isBlank c = false) :
    skipBlanks (c :: cs) = c :: cs := by
  rw [skipBlanks, h]
  rfl

theorem skipBlanks_of_isStart {c : Char} {cs : List Char} (h : isStart c) :
    skipBlanks (c :: cs) = c :: cs :=
  skipBlanks_cons (by simp [isStart] at h; exact h.1.1.1.1)

theorem value?_null (cs : List Char) :
    value? g (fuel + 1) room ('n' :: 'u' :: 'l' :: 'l' :: cs) = some (.null, cs) := by
  rw [value?, skipBlanks_cons (by decide)]
  rfl

theorem value?_true (cs : List Char) :
    value? g (fuel + 1) room ('t' :: 'r' :: 'u' :: 'e' :: cs) = some (.bool true, cs) := by
  rw [value?, skipBlanks_cons (by decide)]
  rfl

theorem value?_false (cs : List Char) :
    value? g (fuel + 1) room ('f' :: 'a' :: 'l' :: 's' :: 'e' :: cs) = some (.bool false, cs) := by
  rw [value?, skipBlanks_cons (by decide)]
  rfl

theorem value?_quote (cs : List Char) :
    value? g (fuel + 1) room ('"' :: cs) = (string? g cs).map fun r => (.string r.1, r.2) := by
  rw [value?, skipBlanks_cons (by decide)]
  rfl

/-- What follows an opening bracket decides how an array is read. -/
theorem value?_bracket (cs : List Char) :
    value? g (fuel + 1) room ('[' :: cs) = match room, skipBlanks cs with
      | 0, _ => none
      | _ + 1, ']' :: rest => some (.array [], rest)
      | room + 1, rest => (items? g fuel room rest).map fun (vs, rest) => (.array vs, rest) := by
  rw [value?, skipBlanks_cons (by decide)]
  rfl

/-- What follows an opening brace decides how an object is read. -/
theorem value?_brace (cs : List Char) :
    value? g (fuel + 1) room ('\x7b' :: cs) = match room, skipBlanks cs with
      | 0, _ => none
      | _ + 1, '\x7d' :: rest => some (.object [], rest)
      | room + 1, rest => (members? g fuel room rest).map fun (ms, rest) => (.object ms, rest) := by
  rw [value?, skipBlanks_cons (by decide)]
  rfl

theorem value?_bracket_start {cs : List Char} (h : cs.head?.any isStart) :
    value? g (fuel + 1) (room + 1) ('[' :: cs) =
      (items? g fuel room cs).map fun r => (.array r.1, r.2) := by
  cases cs with
  | nil => simp at h
  | cons c cs =>
    have hc : isStart c := by simpa using h
    rw [value?_bracket, skipBlanks_of_isStart hc]
    split
    · contradiction
    · rename_i heq
      cases heq
      exact absurd hc (by decide)
    · rename_i heq _
      cases heq
      rfl

theorem value?_brace_quote (cs : List Char) :
    value? g (fuel + 1) (room + 1) ('\x7b' :: '"' :: cs) =
      (members? g fuel room ('"' :: cs)).map fun r => (.object r.1, r.2) := by
  rw [value?_brace, skipBlanks_cons (by decide)]
  rfl

/-- The text of a value is read back, whatever follows, if the value is not nested too deeply. -/
structure ReadsBack (g : Grammar) (st : Style) (v : Json) : Prop where
  text : IsText (value st v)
  read : ∀ fuel room rest, (value st v []).length ≤ fuel → Ends rest →
    value? g fuel room (value st v rest) = if v.depth ≤ room then some (v, rest) else none

variable {st : Style}

theorem ends_cons {c : Char} (h : isNumberChar c = false) (cs : List Char) : Ends (c :: cs) := by
  rintro _ ⟨⟩
  exact h

theorem items?_items {v : Json} {vs : List Json} (hv : ReadsBack g st v)
    (hvs : ∀ v ∈ vs, ReadsBack g st v) (rest : List Char)
    (hf : (value st v []).length + (items st vs []).length + 1 ≤ fuel) :
    items? g fuel room (value st v (items st vs (']' :: rest))) =
      if depthItems (v :: vs) ≤ room then some (v :: vs, rest) else none := by
  -- On the items behind the first one, which is read by `hv` if there is room for it.
  induction vs generalizing v fuel with
  | nil =>
    obtain ⟨fuel, rfl⟩ : ∃ n, fuel = n + 1 := ⟨fuel - 1, by omega⟩
    have hends : Ends (items st [] (']' :: rest)) := ends_cons rfl rest
    rw [items?, hv.read fuel room _ (by omega) hends]
    by_cases hd : v.depth ≤ room
    · have hdepth : depthItems [v] ≤ room := by simpa [depthItems] using hd
      rw [if_pos hd, if_pos hdepth]
      rfl
    · have hdepth : ¬ depthItems [v] ≤ room := by simpa [depthItems] using hd
      rw [if_neg hd, if_neg hdepth]
      rfl
  | cons w vs ih =>
    obtain ⟨fuel, rfl⟩ : ∃ n, fuel = n + 1 := ⟨fuel - 1, by omega⟩
    have hends : Ends (items st (w :: vs) (']' :: rest)) := ends_cons rfl _
    have hw := hvs w (by simp)
    have hlen := length_items_cons hw.text vs
    have hpos := hv.text.length_pos
    rw [items?, hv.read fuel room _ (by omega) hends]
    by_cases hd : v.depth ≤ room
    · have hrest := ih hw (fun x hx => hvs x (by simp [hx]))
        (show (value st w []).length + (items st vs []).length + 1 ≤ fuel by omega)
      have hdepth : depthItems (v :: w :: vs) ≤ room ↔ depthItems (w :: vs) ≤ room := by
        rw [depthItems]
        omega
      rw [if_pos hd, items]
      simp only [Option.bind_eq_bind, Option.bind_some,
        skipBlanks_cons (show isBlank ',' = false from rfl), hrest, hdepth]
      split <;> rfl
    · have hdepth : ¬ depthItems (v :: w :: vs) ≤ room := by
        rw [depthItems]
        omega
      rw [if_neg hd, if_neg hdepth]
      rfl

theorem members?_last {k : String} {v : Json} (hv : ReadsBack g st v) (rest : List Char)
    (hf : (value st v []).length ≤ fuel) :
    members? g (fuel + 1) room (Writer.string st k (':' :: value st v ('\x7d' :: rest))) =
      if v.depth ≤ room then some ([(k, v)], rest) else none := by
  obtain ⟨cs, hcs, hstring⟩ := string?_string g st k (':' :: value st v ('\x7d' :: rest))
  have hends : Ends ('\x7d' :: rest) := ends_cons rfl rest
  rw [hcs, members?, skipBlanks_cons (by decide)]
  simp only [hstring, Option.bind_eq_bind, Option.bind_some,
    skipBlanks_cons (show isBlank ':' = false from rfl), hv.read fuel room _ hf hends]
  split <;> rfl

theorem members?_more {k : String} {v : Json} (hv : ReadsBack g st v) (rest : List Char)
    (hf : (value st v []).length ≤ fuel) :
    members? g (fuel + 1) room (Writer.string st k (':' :: value st v (',' :: rest))) =
      if v.depth ≤ room then (members? g fuel room rest).map fun r => ((k, v) :: r.1, r.2)
      else none := by
  obtain ⟨cs, hcs, hstring⟩ := string?_string g st k (':' :: value st v (',' :: rest))
  have hends : Ends (',' :: rest) := ends_cons rfl rest
  rw [hcs, members?, skipBlanks_cons (by decide)]
  simp only [hstring, Option.bind_eq_bind, Option.bind_some,
    skipBlanks_cons (show isBlank ':' = false from rfl), hv.read fuel room _ hf hends]
  split
  · simp only [Option.bind_some, skipBlanks_cons (show isBlank ',' = false from rfl)]
    cases members? g fuel room rest <;> rfl
  · rfl

theorem members?_members {k : String} {v : Json} {ms : Members} (hv : ReadsBack g st v)
    (hms : ∀ m ∈ ms, ReadsBack g st m.2) (rest : List Char)
    (hf : (value st v []).length + (members st ms []).length + 1 ≤ fuel) :
    members? g fuel room (Writer.string st k (':' :: value st v (members st ms ('\x7d' :: rest)))) =
      if depthMembers ((k, v) :: ms) ≤ room then some ((k, v) :: ms, rest) else none := by
  induction ms generalizing k v fuel with
  | nil =>
    obtain ⟨fuel, rfl⟩ : ∃ n, fuel = n + 1 := ⟨fuel - 1, by omega⟩
    have hdepth : depthMembers [(k, v)] ≤ room ↔ v.depth ≤ room := by simp [depthMembers]
    rw [members, members?_last hv _ (by omega)]
    simp only [hdepth]
  | cons m ms ih =>
    obtain ⟨l, w⟩ := m
    obtain ⟨fuel, rfl⟩ : ∃ n, fuel = n + 1 := ⟨fuel - 1, by omega⟩
    have hw : ReadsBack g st w := hms (l, w) (by simp)
    have hlen := length_members_cons hw.text l ms
    have hpos := hv.text.length_pos
    have hrest := ih hw (fun x hx => hms x (by simp [hx])) (k := l)
      (show (value st w []).length + (members st ms []).length + 1 ≤ fuel by omega)
    rw [members, members?_more hv _ (by omega), hrest]
    by_cases hd : v.depth ≤ room
    · have hdepth : depthMembers ((k, v) :: (l, w) :: ms) ≤ room ↔
          depthMembers ((l, w) :: ms) ≤ room := by
        rw [depthMembers]
        omega
      rw [if_pos hd]
      simp only [hdepth]
      split <;> rfl
    · have hdepth : ¬ depthMembers ((k, v) :: (l, w) :: ms) ≤ room := by
        rw [depthMembers]
        omega
      rw [if_neg hd, if_neg hdepth]

private theorem depth_zero_le {v : Json} (h : v.depth = 0) {r : Json × List Char} :
    some r = if v.depth ≤ room then some r else none := by
  rw [h, if_pos (Nat.zero_le room)]

theorem exists_succ_of_isText {v : Json} (h : IsText (value st v))
    (hf : (value st v []).length ≤ fuel) : ∃ n, fuel = n + 1 := by
  have hpos := h.length_pos
  exact ⟨fuel - 1, by omega⟩

/-- The text of a value whose numbers are tokens of the grammar is read back. -/
theorem readsBack_value {keys : List String → Prop} {v : Json} (h : v.All (IsTokenOf g) keys) :
    ReadsBack g st v := by
  refine ⟨isText_value h, fun fuel room rest hf hrest => ?_⟩
  -- The fuel covers the length of the text; the room is what the depth is compared with.
  induction h generalizing fuel room rest with
  | null =>
    obtain ⟨fuel, rfl⟩ := exists_succ_of_isText (isText_value (.null : All (IsTokenOf g) keys _)) hf
    rw [value, value?_null]
    exact depth_zero_le rfl
  | bool b =>
    obtain ⟨fuel, rfl⟩ := exists_succ_of_isText (isText_value (.bool b : All (IsTokenOf g) keys _)) hf
    cases b
    · rw [value, value?_false]
      exact depth_zero_le rfl
    · rw [value, value?_true]
      exact depth_zero_le rfl
  | @number s h =>
    obtain ⟨fuel, rfl⟩ := exists_succ_of_isText (isText_value (.number h : All _ keys _)) hf
    rw [value, value?_token h hrest fuel room]
    exact depth_zero_le rfl
  | string s =>
    obtain ⟨fuel, rfl⟩ := exists_succ_of_isText (isText_value (.string s : All (IsTokenOf g) keys _)) hf
    obtain ⟨cs, hcs, hstring⟩ := string?_string g st s rest
    rw [value, hcs, value?_quote, hstring]
    exact depth_zero_le rfl
  | @array vs hvs ih =>
    obtain ⟨fuel, rfl⟩ := exists_succ_of_isText (isText_value (.array hvs)) hf
    cases vs with
    | nil =>
      rw [value, value?_bracket]
      cases room <;> rfl
    | cons v vs =>
      have hread : ∀ w ∈ v :: vs, ReadsBack g st w := fun w hw =>
        ⟨isText_value (hvs w hw), fun fuel room rest => ih w hw fuel room rest⟩
      have hv := hread v (by simp)
      have hvs' : ∀ w ∈ vs, ReadsBack g st w := fun w hw => hread w (by simp [hw])
      have hlen := length_array_cons hv.text fun w hw => (hvs' w hw).text
      rw [value]
      cases room with
      | zero =>
        rw [value?_bracket]
        rfl
      | succ room =>
        obtain ⟨c, cs, hcs, hc⟩ := hv.text.exists_cons (items st vs (']' :: rest))
        rw [value?_bracket_start (by rw [hcs]; simpa using hc),
          items?_items hv hvs' rest (by omega)]
        simp only [depth, Nat.add_le_add_iff_right]
        split <;> rfl
  | @object ms hk hms ih =>
    obtain ⟨fuel, rfl⟩ := exists_succ_of_isText (isText_value (.object hk hms)) hf
    cases ms with
    | nil =>
      rw [value, value?_brace]
      cases room <;> rfl
    | cons m ms =>
      obtain ⟨k, v⟩ := m
      have hread : ∀ m ∈ (k, v) :: ms, ReadsBack g st m.2 := fun m hm =>
        ⟨isText_value (hms m hm), fun fuel room rest => ih m hm fuel room rest⟩
      have hv : ReadsBack g st v := hread (k, v) (by simp)
      have hms' : ∀ m ∈ ms, ReadsBack g st m.2 := fun m hm => hread m (by simp [hm])
      have hlen := length_object_cons hv.text (fun m hm => (hms' m hm).text) k
      rw [value]
      cases room with
      | zero =>
        rw [value?_brace]
        rfl
      | succ room =>
        obtain ⟨cs, hcs, -⟩ :=
          string?_string g st k (':' :: value st v (members st ms ('\x7d' :: rest)))
        rw [hcs, value?_brace_quote, ← hcs, members?_members hv hms' rest (by omega)]
        simp only [depth, Nat.add_le_add_iff_right]
        split <;> rfl

/-- A text without NUL goes on to its end. -/
theorem upToNul_eq_self {cs : List Char} (h : '\x00' ∉ cs) : upToNul cs = cs := by
  rw [upToNul, List.takeWhile_eq_self_iff]
  intro c hc
  rw [bne_iff_ne]
  rintro rfl
  exact h hc

/-- Reading a whole text of a value. The reader finds it nested too deeply first, and then one of its
keys repeated. -/
theorem parseChars_value {keys : List String → Prop} {v : Json} (h : v.All IsToken keys) :
    parseChars (value st v []) = if v.depth ≤ depthLimit
      then v.repeatedKey?.elim (.ok v) fun k => .error (.repeatedKey k) else .error .invalid := by
  have hread : ReadsBack lenient st v :=
    readsBack_value (h.imp (fun _ hs => hs.isTokenOf) fun _ hk => hk)
  obtain ⟨c, cs, hcs, hc⟩ := hread.text.exists_cons []
  have hnul : upToNul (value st v []) = value st v [] := upToNul_eq_self hread.text.nul
  have hsep : skipSeparator (value st v []) = value st v [] := by
    rw [hcs, skipSeparator, skipBlanks_of_isStart hc]
    split
    · rename_i heq
      cases heq
      exact absurd hc (by decide)
    · rename_i heq
      cases heq
      exact absurd hc (by decide)
    · rfl
  have hends : Ends [] := by simp [Ends]
  rw [parseChars, hnul, hsep, read?, hread.read _ depthLimit [] (by omega) hends]
  split
  · rename_i heq
    split at heq
    · cases heq
    · rename_i hd
      rw [if_neg hd]
  · rename_i heq
    split at heq
    · rename_i hd
      cases heq
      cases v.repeatedKey? <;> simp [skipBlanks, hd]
    · cases heq

/-- Reading a whole text of a value without repeated keys. -/
theorem parseChars_orderly {v : Json} (h : v.All IsToken List.Nodup) :
    parseChars (value st v []) = if v.depth ≤ depthLimit then .ok v else .error .invalid := by
  have hkeys : v.repeatedKey? = none :=
    repeatedKey?_eq_none.2 (h.imp (fun _ _ => trivial) fun _ hk => hk)
  rw [parseChars_value h, hkeys]
  rfl

end Reader

/-- The compact text of a value without repeated keys is read back, unless the value is nested too
deeply. -/
theorem parseBytes_marshal {v : Json} (h : v.All IsToken List.Nodup) {text : String}
    (ht : marshal v = .ok text) :
    parseBytes (Text.Bytes.encode text) =
      if v.depth ≤ depthLimit then .ok v else .error .invalid := by
  rw [marshal, Writer.settle_eq_self h, Writer.text] at ht
  split at ht
  · cases ht
  · cases ht
    rw [parseBytes, Text.Bytes.decodeFrom_encode, String.toList_ofList, parseChars_orderly h]

/-- The compact text of a value with a repeated key is refused. -/
theorem exists_parseBytes_marshal_eq_error {keys : List String → Prop} {v : Json}
    (h : v.All IsToken keys) (hkeys : v.repeatedKey? ≠ none) {text : String}
    (ht : marshal v = .ok text) :
    ∃ fault, parseBytes (Text.Bytes.encode text) = .error fault := by
  -- The writer repeats the key as well, though with the first value only.
  have hrepeated : (Writer.settle v).repeatedKey? ≠ none := fun hnone =>
    hkeys (repeatedKey?_eq_none.2 (Writer.all_of_all_settle (repeatedKey?_eq_none.1 hnone)))
  obtain ⟨k, hk⟩ := Option.ne_none_iff_exists'.1 hrepeated
  rw [marshal, Writer.text] at ht
  split at ht
  · cases ht
  · cases ht
    rw [parseBytes, Text.Bytes.decodeFrom_encode, String.toList_ofList,
      parseChars_value (Writer.all_settle h), hk]
    split
    · exact ⟨.repeatedKey k, rfl⟩
    · exact ⟨.invalid, rfl⟩

end IrDialects.Json
