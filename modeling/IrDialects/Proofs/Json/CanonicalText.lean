import IrDialects.Proofs.Json.Canonical
import IrDialects.Proofs.Json.Inverse
import IrDialects.Proofs.Json.Rearrangement

/-!
# The canonical text as an invariant

Values that repeat no key have the same canonical text exactly if they differ in the order of
members only. The canonical text is the compact text of the sorted value after a pass that undoes
the escapes of the line separators; the pass takes escapes in turn, so that a backslash that is
itself escaped never begins one.
-/

namespace IrDialects.Json

open Reader (depthLimit isLiteral)

/-- A text with the escapes of U+2028 and U+2029 undone. -/
def unescapeSeparators : List Char → List Char
  | '\\' :: 'u' :: '2' :: '0' :: '2' :: '8' :: rest => '\u2028' :: unescapeSeparators rest
  | '\\' :: 'u' :: '2' :: '0' :: '2' :: '9' :: rest => '\u2029' :: unescapeSeparators rest
  | '\\' :: c :: rest => '\\' :: c :: unescapeSeparators rest
  | c :: rest => c :: unescapeSeparators rest
  | [] => []

section Pass

theorem unescapeSeparators_cons {c : Char} (h : c ≠ '\\') (rest : List Char) :
    unescapeSeparators (c :: rest) = c :: unescapeSeparators rest := by
  rw [unescapeSeparators] <;> simp [h]

/-- An escape with a letter of its own is left alone. -/
theorem unescapeSeparators_letter {e : Char} (h : e ≠ 'u') (rest : List Char) :
    unescapeSeparators ('\\' :: e :: rest) = '\\' :: e :: unescapeSeparators rest := by
  rw [unescapeSeparators] <;> simp [h]

/-- An escape of a code unit that does not begin with the digit 2 is left alone. -/
theorem unescapeSeparators_unit {d : Char} (h : d ≠ '2') (rest : List Char) :
    unescapeSeparators ('\\' :: 'u' :: d :: rest) = '\\' :: 'u' :: unescapeSeparators (d :: rest) := by
  rw [unescapeSeparators] <;> simp [h]

theorem unescapeSeparators_append {cs : List Char} (h : '\\' ∉ cs) (rest : List Char) :
    unescapeSeparators (cs ++ rest) = cs ++ unescapeSeparators rest := by
  induction cs with
  | nil => rfl
  | cons c cs ih =>
    rw [List.mem_cons, not_or] at h
    rw [List.cons_append, unescapeSeparators_cons (Ne.symm h.1), ih h.2, List.cons_append]

namespace Writer

/-- The pass takes the escape of one character, in either style, to its canonical escape. -/
theorem unescapeSeparators_escapeChar (st : Style) (c : Char) (rest : List Char) :
    unescapeSeparators (escapeChar st c ++ rest) =
      escapeChar ⟨false⟩ c ++ unescapeSeparators rest := by
  have hletter {e : Char} (he : e ≠ 'u') : unescapeSeparators (['\\', e] ++ rest) =
      ['\\', e] ++ unescapeSeparators rest := unescapeSeparators_letter he rest
  rw [escapeChar, escapeChar]
  split_ifs with h1 h2 h3 h4 h5 h6 h7 hst hfalse
  iterate 7 exact hletter (by decide)
  · -- A control character, whose escape begins with the digit 0.
    have hlow : c.toNat < 0x20 := by simpa using hfalse
    have hdigits : ∀ n < 0x20, Text.Quoted.hex 4 n = '0' :: (Text.Quoted.hex 4 n).tail ∧
        '\\' ∉ Text.Quoted.hex 4 n := by decide
    obtain ⟨hhex, hde⟩ := hdigits c.toNat hlow
    rw [hhex] at hde ⊢
    calc unescapeSeparators ('\\' :: 'u' :: ('0' :: (Text.Quoted.hex 4 c.toNat).tail ++ rest))
        = '\\' :: 'u' :: unescapeSeparators ('0' :: (Text.Quoted.hex 4 c.toNat).tail ++ rest) :=
          unescapeSeparators_unit (by decide) _
      _ = _ := by rw [unescapeSeparators_append hde]; rfl
  · -- A separator that the style escapes.
    have hsep : c = '\u2028' ∨ c = '\u2029' := by
      simp only [Bool.or_eq_true, Bool.and_eq_true, decide_eq_true_eq] at hst
      simp only [Bool.false_and, Bool.or_false, decide_eq_true_eq] at hfalse
      rcases hst with hlow | ⟨-, hsep⟩
      · exact absurd hlow hfalse
      · exact hsep
    rcases hsep with rfl | rfl
    · rfl
    · rfl
  · rename_i hfalse
    simp at hst hfalse
    omega
  · exact unescapeSeparators_cons h2 rest

theorem unescapeSeparators_string (st : Style) (s : String) (rest : List Char) :
    unescapeSeparators (string st s rest) = string ⟨false⟩ s (unescapeSeparators rest) := by
  have hchars (cs : List Char) :
      unescapeSeparators (cs.flatMap (escapeChar st) ++ '"' :: rest) =
        cs.flatMap (escapeChar ⟨false⟩) ++ '"' :: unescapeSeparators rest := by
    induction cs with
    | nil => exact unescapeSeparators_cons (by decide) rest
    | cons c cs ih =>
      rw [List.flatMap_cons, List.append_assoc, unescapeSeparators_escapeChar, ih,
        List.flatMap_cons, List.append_assoc]
  rw [string, unescapeSeparators_cons (by decide), hchars, string]

/-- The pass takes the text of `v`, in either style, to its canonical text. -/
def PassesTo (st : Style) (v : Json) : Prop := ∀ rest,
  unescapeSeparators (value st v rest) = value ⟨false⟩ v (unescapeSeparators rest)

theorem unescapeSeparators_items {st : Style} {vs : List Json} (h : ∀ v ∈ vs, PassesTo st v)
    (rest : List Char) :
    unescapeSeparators (items st vs rest) = items ⟨false⟩ vs (unescapeSeparators rest) := by
  induction vs with
  | nil => rfl
  | cons v vs ih =>
    rw [items, unescapeSeparators_cons (by decide), h v (by simp),
      ih fun w hw => h w (by simp [hw]), items]

theorem unescapeSeparators_members {st : Style} {ms : Members} (h : ∀ m ∈ ms, PassesTo st m.2)
    (rest : List Char) :
    unescapeSeparators (members st ms rest) = members ⟨false⟩ ms (unescapeSeparators rest) := by
  induction ms with
  | nil => rfl
  | cons m ms ih =>
    rw [members, unescapeSeparators_cons (by decide), unescapeSeparators_string,
      unescapeSeparators_cons (by decide), h m (by simp), ih fun n hn => h n (by simp [hn]), members]

/-- Outside strings a text has no backslash. -/
theorem passesTo_value {st : Style} {keys : List String → Prop} {v : Json}
    (h : v.All (fun s => '\\' ∉ s.toList) keys) : PassesTo st v := by
  induction h with
  | null => exact @unescapeSeparators_append ['n', 'u', 'l', 'l'] (by decide)
  | bool b =>
    cases b with
    | false => exact @unescapeSeparators_append ['f', 'a', 'l', 's', 'e'] (by decide)
    | true => exact @unescapeSeparators_append ['t', 'r', 'u', 'e'] (by decide)
  | number hs => exact unescapeSeparators_append hs
  | string s => exact unescapeSeparators_string st s
  | @array vs _ ih =>
    intro rest
    cases vs with
    | nil => exact @unescapeSeparators_append ['[', ']'] (by decide) rest
    | cons v vs =>
      rw [value, unescapeSeparators_cons (by decide), ih v (by simp),
        unescapeSeparators_items fun w hw => ih w (by simp [hw]),
        unescapeSeparators_cons (by decide), value]
  | @object ms _ _ ih =>
    intro rest
    cases ms with
    | nil => exact @unescapeSeparators_append ['\x7b', '\x7d'] (by decide) rest
    | cons m ms =>
      rw [value, unescapeSeparators_cons (by decide), unescapeSeparators_string,
        unescapeSeparators_cons (by decide), ih m (by simp),
        unescapeSeparators_members fun n hn => ih n (by simp [hn]),
        unescapeSeparators_cons (by decide), value]

end Writer

end Pass

/-- A value that can be written: its numbers are JSON literals of any magnitude, and its objects
repeat no key. -/
abbrev Writable (v : Json) : Prop := v.All (fun s => isLiteral s.toList) List.Nodup

section Writable

variable {v w : Json}

theorem Writable.sort (hv : v.Writable) : (Writer.sort v).Writable :=
  (Writer.rearranged_sort v).all hv

theorem Writable.tokens (hv : v.Writable) : v.All (Reader.IsTokenOf Reader.strict) List.Nodup :=
  hv.imp (fun _ hs => Reader.isTokenOf_strict hs) fun _ hks => hks

theorem Writable.text_eq (hv : v.Writable) (st : Writer.Style) :
    Writer.text st v = .ok (String.ofList (Writer.value st v [])) := by
  apply Writer.text_eq_ok
  rw [Writer.fault?_eq_none]
  exact hv.imp (fun _ hs => Reader.isStrictText_of_isLiteral hs) fun _ _ => trivial

theorem Writable.marshal_eq (hv : v.Writable) :
    marshal v = .ok (String.ofList (Writer.value ⟨true⟩ v [])) := by
  rw [marshal, Writer.settle_eq_self hv, hv.text_eq]

theorem Writable.canonical_eq (hv : v.Writable) :
    canonical v = .ok (String.ofList (Writer.value ⟨false⟩ (Writer.sort v) [])) := by
  rw [canonical, Writer.settle_eq_self hv, hv.sort.text_eq]

theorem Writable.passesTo (hv : v.Writable) (st : Writer.Style) : Writer.PassesTo st v := by
  refine Writer.passesTo_value (hv.imp (fun s hs => ?_) fun _ hks => hks)
  intro hmem
  exact absurd ((Reader.chars_of_isLiteral hs).2 _ hmem) (by decide)

/-- Reading the canonical text gives the sorted value. -/
theorem parseBytes_canonical (hv : v.Clean) : parseBytes (Text.Bytes.encode
      (String.ofList (Writer.value ⟨false⟩ (Writer.sort v) []))) =
    if v.depth ≤ depthLimit then .ok (Writer.sort v) else .error .invalid := by
  have hsorted : (Writer.sort v).Orderly := (Writer.rearranged_sort v).all hv.orderly
  rw [parseBytes, Text.Bytes.decodeFrom_encode, String.toList_ofList,
    Reader.parseChars_orderly hsorted, (Writer.rearranged_sort v).depth_eq]

/-- Values without repeated keys whose numbers are JSON literals have canonical texts, and the texts
are the same exactly if the values differ in the order of members only. The canonical text of a
value with numbers within the range of floating-point numbers is read as the sorted value, unless
the value is nested too deeply. The text is what the pass makes of the compact text of the sorted
value, and the pass finds no escape of a separator in it. -/
theorem canonical_text_is_invariant (hv : v.Writable) (hw : w.Writable) :
    ∃ s t, canonical v = .ok s ∧ canonical w = .ok t ∧ (s = t ↔ v.Rearranged w) ∧
      (v.Clean → v.depth ≤ depthLimit →
        parseBytes (Text.Bytes.encode s) = .ok (Writer.sort v)) ∧
      (v.Clean → depthLimit < v.depth → parseBytes (Text.Bytes.encode s) = .error .invalid) ∧
      v.Rearranged (Writer.sort v) ∧
      (Writer.sort v).All (fun _ => True) (List.Pairwise fun k l => Text.Units.textLe k l) ∧
      (∃ compact, marshal (Writer.sort v) = .ok compact ∧
        unescapeSeparators compact.toList = s.toList) ∧
      unescapeSeparators s.toList = s.toList := by
  refine ⟨_, _, hv.canonical_eq, hw.canonical_eq, ?_, ?_, ?_, Writer.rearranged_sort v, ?_,
    ⟨_, hv.sort.marshal_eq, ?_⟩, ?_⟩
  · rw [String.ofList_inj, ← Writer.sort_eq_iff hv]
    exact ⟨eq_of_value_eq hv.sort.tokens hw.sort.tokens, fun h => by rw [h]⟩
  · intro hclean hdepth
    rw [parseBytes_canonical hclean, if_pos hdepth]
  · intro hclean hdepth
    rw [parseBytes_canonical hclean, if_neg (Nat.not_le.2 hdepth)]
  · exact (Writer.sorted_sort hv).imp (fun _ _ => trivial) fun _ hks => hks
  · rw [String.toList_ofList, String.toList_ofList, hv.sort.passesTo, unescapeSeparators]
  · rw [String.toList_ofList, hv.sort.passesTo, unescapeSeparators]

end Writable

/-- The object `assorted` with its first two members exchanged. -/
def shuffled : Json :=
  .object [("", .string "\u2028\x00\"\\u2028"), ("z", .array [.number "-0.00", .ofInt 42, .null]),
    ("a", .object [("z", .bool true)])]

theorem rearranged_shuffled : assorted.Rearranged shuffled := .single (.here (.swap ..))

theorem Clean.writable {v : Json} (hv : v.Clean) : v.Writable :=
  hv.imp (fun _ hs => hs.1) fun _ hks => hks

theorem shuffled_has_the_same_text :
    ∃ s, canonical assorted = .ok s ∧ canonical shuffled = .ok s ∧
      parseBytes (Text.Bytes.encode s) = .ok (Writer.sort assorted) := by
  have hclean := clean_assorted
  obtain ⟨s, t, hs, ht, hiff, hread, -⟩ := canonical_text_is_invariant hclean.writable
    (rearranged_shuffled.all hclean.writable)
  have hst : s = t := hiff.2 rearranged_shuffled
  exact ⟨s, hs, by rw [hst, ht], hread hclean (by decide)⟩

theorem deep_canonical_text_is_refused :
    (nestedArrays depthLimit).Clean ∧ ¬ ∃ s, canonical (nestedArrays depthLimit) = .ok s ∧
      parseBytes (Text.Bytes.encode s) = .ok (Writer.sort (nestedArrays depthLimit)) := by
  have hclean := clean_nestedArrays depthLimit
  refine ⟨hclean, ?_⟩
  rintro ⟨s, hs, hread⟩
  rw [hclean.writable.canonical_eq, Except.ok.injEq] at hs
  have hdepth := lt_depth_nestedArrays depthLimit
  rw [← hs, parseBytes_canonical hclean, if_neg (Nat.not_le.2 hdepth)] at hread
  cases hread

end IrDialects.Json
