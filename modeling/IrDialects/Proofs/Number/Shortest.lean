import IrDialects.Number.Shortest
import IrDialects.Proofs.Number.Binary64
import IrDialects.Proofs.Number.Spelling

/-!
# Shortest decimals read back

The digits chosen for a magnitude denote it, wherever the search stops: in the worst case all digits
of the exact expansion are kept.
-/

namespace IrDialects.Number

namespace Shortest

theorem units_lt (m : Magnitude) : m.units < Nat.pow 2 2098 := by
  rcases Nat.eq_zero_or_pos m.units with h | h
  · rw [h]
    exact Nat.pow_pos (by omega)
  · have hlog (k : Nat) : m.units.log2 < k ↔ m.units < Nat.pow 2 k := Nat.log2_lt h.ne'
    rw [← hlog]
    exact m.representable.1

theorem expansion_lt (m : Magnitude) : expansion m < Nat.pow 10 1384 := by
  have h5 : 0 < Nat.pow 5 1074 := Nat.pow_pos (by omega)
  have hpow : Nat.pow 2 2098 * Nat.pow 5 1074 ≤ Nat.pow 10 1384 := by decide +kernel
  have hu := units_lt m
  rw [expansion]
  generalize Nat.pow 5 1074 = five at h5 hpow
  generalize Nat.pow 2 2098 = two at hu hpow
  exact Nat.lt_of_lt_of_le (Nat.mul_lt_mul_of_pos_right hu h5) hpow

theorem le_expansion {m : Magnitude} (hm : m.units ≠ 0) : Nat.pow 10 744 ≤ expansion m := by
  have hpow : Nat.pow 10 744 ≤ Nat.pow 5 1074 := by decide +kernel
  rw [expansion]
  generalize Nat.pow 5 1074 = five at hpow
  exact Nat.le_trans hpow (Nat.le_mul_of_pos_left _ (Nat.pos_of_ne_zero hm))

theorem expansion_ne_zero {m : Magnitude} (hm : m.units ≠ 0) : expansion m ≠ 0 := by
  have hpos : 0 < Nat.pow 10 744 := Nat.pow_pos (by omega)
  exact (Nat.lt_of_lt_of_le hpos (le_expansion hm)).ne'

/-- The first digit of the exact expansion is well within the range of decimals that are read. -/
theorem digitCount_expansion {m : Magnitude} (hm : m.units ≠ 0) :
    744 < Magnitude.digitCount (expansion m) ∧ Magnitude.digitCount (expansion m) ≤ 1384 := by
  have hcount {k : Nat} (hk : 0 < k) :
      Magnitude.digitCount (expansion m) ≤ k ↔ expansion m < Nat.pow 10 k :=
    Nat.length_toDigits_le_iff (by omega) hk
  refine ⟨?_, (hcount (by omega)).2 (expansion_lt m)⟩
  rw [← Nat.not_le, hcount (by omega)]
  exact Nat.not_lt.2 (le_expansion hm)

/-- The exact expansion of a magnitude reads back. -/
theorem readsBack_expansion {m : Magnitude} (hm : m.units ≠ 0) :
    readsBack m (expansion m) 0 = true := by
  obtain ⟨hl, hu⟩ := digitCount_expansion hm
  have hexact : Magnitude.ofDecimal? (expansion m) (-1074) = some m := by
    rw [Magnitude.ofDecimal?, if_neg (expansion_ne_zero hm)]
    simp only [if_neg (show ¬ 310 < (-1074 : Int) + Magnitude.digitCount (expansion m) by omega),
      if_neg (show ¬ (-1074 : Int) + Magnitude.digitCount (expansion m) < -330 by omega),
      if_neg (show ¬ (0 : Int) ≤ -1074 by omega)]
    refine Magnitude.nearest?_eq_some (Nat.pow_pos (by omega)) m.representable ?_
    have h10 (k : Nat) : 10 ^ k = 5 ^ k * 2 ^ k := Nat.mul_pow 5 2 k
    have hexp : (-(-1074 : Int)).toNat = 1074 := rfl
    rw [hexp, expansion, Nat.pow_eq, Nat.pow_eq, h10, Nat.mul_assoc]
  simp only [readsBack, Nat.cast_zero, Int.zero_sub, hexact, beq_self_eq_true]

theorem readsBack_of_candidate? {m : Magnitude} {n drop c : Nat}
    (h : candidate? m n drop = some c) : readsBack m c drop = true := by
  rw [candidate?] at h
  split at h
  · rename_i hb ha
    cases h
    split
    · exact hb
    · exact ha
  · rename_i hb _
    cases h
    exact hb
  · rename_i _ ha
    cases h
    exact ha
  · cases h

/-- Wherever the search stops, what it keeps reads back. -/
theorem readsBack_search {m : Magnitude} {n : Nat} (h0 : readsBack m n 0 = true) (drop : Nat) :
    readsBack m (search m n drop).1 (search m n drop).2 = true := by
  induction drop with
  | zero => exact h0
  | succ drop ih =>
    rw [search]
    split
    · rename_i c hc
      exact readsBack_of_candidate? hc
    · exact ih

theorem head?_toDigits {n : Nat} (hn : 0 < n) : (Nat.toDigits 10 n).head? ≠ some '0' := by
  induction n using Nat.strong_induction_on with
  | _ n ih =>
    rcases Nat.lt_or_ge n 10 with h | h
    · rw [Nat.toDigits_of_lt_base h]
      simpa using hn.ne'
    · rw [Nat.toDigits_of_base_le (by omega) h, List.head?_append_of_ne_nil _ Nat.toDigits_ne_nil]
      exact ih (n / 10) (by omega) (by omega)

theorem exists_trimZeros (ds : List Char) : ∃ k, ds = trimZeros ds ++ List.replicate k '0' := by
  refine ⟨(ds.reverse.takeWhile (· == '0')).length, ?_⟩
  have hz : ds.reverse.takeWhile (· == '0') =
      List.replicate (ds.reverse.takeWhile (· == '0')).length '0' := by
    refine List.eq_replicate_length.2 fun c hc => ?_
    simpa using List.all_eq_true.1 List.all_takeWhile c hc
  have h := congrArg List.reverse (List.takeWhile_append_dropWhile (p := (· == '0')) (l := ds.reverse))
  rw [List.reverse_append, List.reverse_reverse, hz, List.reverse_replicate] at h
  exact h.symm

/-- What the digits of a magnitude other than zero are like. -/
structure Denotes (d : Digits) (m : Magnitude) : Prop where
  digits_ne : d.digits ≠ []
  isDigit : ∀ c ∈ d.digits, c.isDigit
  head_ne : d.digits.head? ≠ some '0'
  point_ge : -330 ≤ d.point
  point_le : d.point ≤ 310
  value : Magnitude.ofDecimal? (Nat.ofDigitChars 10 d.digits 0) (d.point - d.digits.length) = some m

theorem denotes_of_ofDecimal? {m : Magnitude} (hm : m.units ≠ 0) {c : Nat} {drop : Int}
    (h : Magnitude.ofDecimal? c drop = some m) :
    Denotes ⟨trimZeros (Nat.toDigits 10 c), (Nat.toDigits 10 c).length + drop⟩ m := by
  obtain ⟨hne, hge, hle⟩ := Magnitude.place_of_ofDecimal? h hm
  rw [Magnitude.digitCount] at hge hle
  have hhead := head?_toDigits (Nat.pos_of_ne_zero hne)
  have hvalue : Nat.ofDigitChars 10 (Nat.toDigits 10 c) 0 = c := Nat.ofDigitChars_ten_toDigits
  have hdigit : ∀ d ∈ Nat.toDigits 10 c, d.isDigit := fun _ => Whole.isDigit_toDigits
  obtain ⟨k, hk⟩ := exists_trimZeros (Nat.toDigits 10 c)
  generalize trimZeros (Nat.toDigits 10 c) = ds at hk ⊢
  rw [hk] at hge hle hhead hvalue hdigit ⊢
  -- Digits that were all trimmed would be zeros, and the coefficient is none.
  have hds : ds ≠ [] := by
    rintro rfl
    cases k with
    | zero => simp at hvalue; exact hne hvalue.symm
    | succ k => simp [List.replicate_succ] at hhead
  refine ⟨hds, fun d hd => hdigit d (by simp [hd]), ?_, ?_, ?_, ?_⟩
  · rwa [List.head?_append_of_ne_nil _ hds] at hhead
  · rw [Int.add_comm]
    exact hge
  · rw [Int.add_comm]
    exact hle
  · rw [Nat.ofDigitChars_append, Nat.ofDigitChars_replicate_zero, Nat.mul_comm] at hvalue
    rw [← h, ← hvalue, ← Magnitude.ofDecimal?_mul_ten_pow _ k]
    congr 1
    simp only [List.length_append, List.length_replicate]
    push_cast
    ring

/-- The shortest digits of a magnitude denote it. -/
theorem denotes_digits {m : Magnitude} (hm : m.units ≠ 0) : Denotes (digits m) m := by
  have hsearch := readsBack_search (readsBack_expansion hm)
    (Magnitude.digitCount (expansion m) - 1)
  rw [digits, if_neg hm]
  generalize search m (expansion m) (Magnitude.digitCount (expansion m) - 1) = r at hsearch
  have hread : Magnitude.ofDecimal? r.1 (r.2 - 1074 : Int) = some m := by
    simpa only [readsBack, beq_iff_eq] using hsearch
  rw [ofSearch, ofUnits, Int.add_sub_assoc]
  exact denotes_of_ofDecimal? hm hread

end Shortest

namespace Digits

theorem isDigit_zeros {n : Int} {c : Char} (h : c ∈ zeros n) : c.isDigit := by
  rw [List.eq_of_mem_replicate h]
  rfl

theorem length_zeros {n : Int} (h : 0 ≤ n) : ((zeros n).length : Int) = n := by
  rw [zeros, List.length_replicate]
  omega

theorem ofDigitChars_zeros (n : Int) (k : Nat) :
    Nat.ofDigitChars 10 (zeros n) k = 10 ^ n.toNat * k := Nat.ofDigitChars_replicate_zero

variable {d : Digits} {m : Magnitude}

/-- The positional layout of digits spells what they denote. -/
theorem exists_positional (h : Shortest.Denotes d m) :
    ∃ s : Spelling, s.Regular ∧ s.chars = d.positional ∧
      Magnitude.ofDecimal? s.coefficient s.scale = some m := by
  have hv := h.value
  rw [positional]
  split
  -- The point stands before all digits, and zeros fill the gap.
  · rename_i hp
    have hlen := length_zeros (n := -d.point) (by omega)
    refine ⟨⟨['0'], zeros (-d.point) ++ d.digits, none⟩, ?_, ?_, ?_⟩
    · refine Spelling.regular_plain (by simp) (by simp) (by simp) fun c hc => ?_
      rcases List.mem_append.1 hc with hc | hc
      · exact isDigit_zeros hc
      · exact h.isDigit c hc
    · simp [Spelling.chars, Spelling.exponentChars, Spelling.fractionChars_of_ne, h.digits_ne]
    · have hc : Spelling.coefficient ⟨['0'], zeros (-d.point) ++ d.digits, none⟩ =
          Nat.ofDigitChars 10 d.digits 0 := by
        simp [Spelling.coefficient, Nat.ofDigitChars_cons, Nat.ofDigitChars_append,
          ofDigitChars_zeros]
      have hs : Spelling.scale ⟨['0'], zeros (-d.point) ++ d.digits, none⟩ =
          d.point - d.digits.length := by
        simp only [Spelling.scale, Spelling.exponentValue, List.length_append]
        push_cast
        omega
      rw [hc, hs, hv]
  split
  -- The point stands behind all digits: zeros follow them, a factor that the scale makes up for.
  · rename_i hp hlen
    refine ⟨⟨d.digits ++ zeros (d.point - d.digits.length), [], none⟩, ?_, ?_, ?_⟩
    · refine Spelling.regular_plain (by simp [h.digits_ne]) (fun c hc => ?_) (fun hz => ?_) (by simp)
      · rcases List.mem_append.1 hc with hc | hc
        · exact h.isDigit c hc
        · exact isDigit_zeros hc
      · rw [List.head?_append_of_ne_nil _ h.digits_ne] at hz
        exact absurd hz h.head_ne
    · simp [Spelling.chars, Spelling.exponentChars, Spelling.fractionChars]
    · have hk : d.point - d.digits.length = ((d.point - d.digits.length).toNat : Int) := by omega
      rw [← hv, hk, ← Magnitude.ofDecimal?_mul_ten_pow (Nat.ofDigitChars 10 d.digits 0)
        (d.point - d.digits.length).toNat]
      congr 1
      · simp [Spelling.coefficient, Nat.ofDigitChars_append, ofDigitChars_zeros, Nat.mul_comm]
      · simp [Spelling.scale, Spelling.exponentValue]
  -- The point stands between the digits.
  · rename_i hp hlen
    have hpos : d.point.toNat ≠ 0 := by omega
    refine ⟨⟨d.digits.take d.point.toNat, d.digits.drop d.point.toNat, none⟩, ?_, ?_, ?_⟩
    · refine Spelling.regular_plain (by simp [h.digits_ne, hpos])
        (fun c hc => h.isDigit c (List.mem_of_mem_take hc)) (fun hz => ?_)
        (fun c hc => h.isDigit c (List.mem_of_mem_drop hc))
      rw [List.head?_take, if_neg hpos] at hz
      exact absurd hz h.head_ne
    · have hne : d.digits.drop d.point.toNat ≠ [] := by
        rw [Ne, List.drop_eq_nil_iff]
        omega
      simp [Spelling.chars, Spelling.exponentChars, Spelling.fractionChars_of_ne hne]
    · rw [← hv]
      congr 1
      · simp [Spelling.coefficient]
      · simp only [Spelling.scale, Spelling.exponentValue, List.length_drop]
        omega

theorem exponentText_eq (e : Int) :
    ∃ ds, exponentText e = (if e < 0 then '-' else '+') :: ds ∧ ds ≠ [] ∧ (∀ c ∈ ds, c.isDigit) ∧
      Nat.ofDigitChars 10 ds 0 = e.natAbs := by
  refine ⟨_, rfl, ?_, ?_, ?_⟩
  · split
    · simp
    · exact Nat.toDigits_ne_nil
  · intro c hc
    split at hc
    · rcases List.mem_cons.1 hc with rfl | hc
      · rfl
      · exact Whole.isDigit_toDigits hc
    · exact Whole.isDigit_toDigits hc
  · split <;> simp [Nat.ofDigitChars_cons]

/-- The layout of digits with an exponent spells what they denote. -/
theorem exists_scientific (h : Shortest.Denotes d m) :
    ∃ s : Spelling, s.Regular ∧ s.chars = d.scientific ∧
      Magnitude.ofDecimal? s.coefficient s.scale = some m := by
  have hv := h.value
  have hge := h.point_ge
  have hle := h.point_le
  obtain ⟨es, htext, hne, hdigit, hval⟩ := exponentText_eq (d.point - 1)
  cases hd : d.digits with
  | nil => exact absurd hd h.digits_ne
  | cons c cs =>
    have hdigits := h.isDigit
    have hhead := h.head_ne
    rw [hd] at hv hdigits hhead
    refine ⟨⟨[c], cs, some (decide (d.point - 1 < 0), es)⟩, ⟨?_, ?_, ?_, ?_, ?_, ?_, ?_⟩, ?_, ?_⟩
    · simp
    · simpa using hdigits c (by simp)
    · intro hz
      exact absurd hz hhead
    · exact fun e he => hdigits e (by simp [he])
    · simpa using hne
    · simpa using hdigit
    · simp [hval]
      omega
    · cases cs with
      | nil => simp [Spelling.chars, Spelling.fractionChars, Spelling.exponentChars, scientific, hd, htext]
      | cons c' cs =>
        simp [Spelling.chars, Spelling.fractionChars, Spelling.exponentChars, scientific, hd, htext]
    · rw [← hv]
      congr 1
      simp only [Spelling.scale, Spelling.exponentValue, hval, decide_eq_true_eq, List.length_cons]
      split <;> omega

end Digits

namespace FloatLayout

/-- The text of a finite number in any layout spells the number. -/
theorem exists_finiteText (l : FloatLayout) (negative : Bool) (m : Magnitude) :
    ∃ s : Spelling, s.Regular ∧ l.finiteText negative m = String.ofList (s.signed negative) ∧
      Magnitude.ofDecimal? s.coefficient s.scale = some m := by
  suffices h : ∃ s : Spelling, s.Regular ∧ s.chars =
      (if m.units ≠ 0 && ((Shortest.digits m).point - 1 < l.least ||
        l.bound ≤ (Shortest.digits m).point - 1) then (Shortest.digits m).scientific
        else (Shortest.digits m).positional) ∧
      Magnitude.ofDecimal? s.coefficient s.scale = some m by
    obtain ⟨s, hs, hc, hm⟩ := h
    exact ⟨s, hs, by rw [Spelling.signed, hc]; rfl, hm⟩
  by_cases hm : m.units = 0
  · have hz : m = .zero := by
      obtain ⟨u, hu⟩ := m
      subst hm
      rfl
    subst hz
    exact ⟨⟨['0'], [], none⟩, Spelling.regular_plain (by simp) (by simp) (by simp) (by simp), rfl, rfl⟩
  · split
    · exact Digits.exists_scientific (Shortest.denotes_digits hm)
    · exact Digits.exists_positional (Shortest.denotes_digits hm)

/-- Reading the text of a finite number gives the number, in any layout. -/
theorem read_text (l : FloatLayout) (negative : Bool) (m : Magnitude) :
    Numeral.read (l.text (.finite negative m)) = .value (.finite negative m) := by
  obtain ⟨s, hs, htext, hm⟩ := l.exists_finiteText negative m
  rw [text, htext]
  exact Spelling.read_signed_eq_value hs negative hm

end FloatLayout

end IrDialects.Number
