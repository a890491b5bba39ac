import IrDialects.Proofs.Json.NumberText
import IrDialects.Proofs.Number.Nearest
import IrDialects.Proofs.Wire.Decoding

/-!
# Whole numbers in documents

A number of a document may be written with a fraction or an exponent and still be whole. Such a number is
taken if the floating-point number nearest to it is whole and small, so that it may be rounded: what is
taken is exact for literals that are all digits, for numbers of the format and for decimals with few
places, but not for every literal.
-/

namespace IrDialects

namespace Number.DecimalLiteral

variable {l : DecimalLiteral} {s : String}

/-- The number that a literal denotes. -/
def value (l : DecimalLiteral) : ℚ := signed l.negative (l.coefficient * 10 ^ l.scale)

theorem value_of_isPlain (h : l.IsPlain) :
    l.value = (if l.negative then -(l.coefficient : ℤ) else l.coefficient : ℤ) := by
  have hscale : l.scale = 0 := by simp [scale, exponentValue, h.1, h.2]
  rw [value, hscale, zpow_zero, mul_one, signed]
  split <;> simp

/-- The digits of a literal take few binary places, and the last one is not too far behind the
point. -/
def IsShort (l : DecimalLiteral) : Prop := -323 ≤ l.scale ∧ l.coefficient * 10 ^ l.scale.toNat < 2 ^ 52

/-- A literal that cannot be rounded to a whole number other than itself. -/
def IsExact (l : DecimalLiteral) : Prop := l.IsPlain ∨ Binary64.IsValue l.value ∨ l.IsShort

/-- In units of its last place a literal is whole. -/
theorem exists_value_mul_eq (l : DecimalLiteral) : ∃ n : ℤ, l.value * 10 ^ (-l.scale).toNat = n ∧
    n.natAbs = l.coefficient * 10 ^ l.scale.toNat := by
  refine ⟨if l.negative then -(l.coefficient * 10 ^ l.scale.toNat : ℕ)
    else (l.coefficient * 10 ^ l.scale.toNat : ℕ), ?_, ?_⟩
  · have hpos : ((10 ^ (-l.scale).toNat : ℕ) : ℚ) ≠ 0 := by positivity
    have hcoefficient := Magnitude.natCast_mul_ten_pow_div l.coefficient l.scale
    rw [div_eq_iff hpos] at hcoefficient
    rw [value, signed]
    push_cast at hcoefficient ⊢
    rw [hcoefficient]
    split <;> simp [neg_mul]
  · split <;> omega

/-- What a literal is read as. -/
theorem roundsTo_of_read (h : l.Spells s) (hm : l.Moderate) {x : Binary64}
    (hx : Numeral.read s = .value x) {i : ℤ} (hi : x.toInt? = some i) :
    Binary64.RoundsTo l.value i := by
  rw [read_of_spells h hm] at hx
  cases hmagnitude : Magnitude.ofDecimal? l.coefficient l.scale with
  | none =>
    rw [hmagnitude] at hx
    cases hx
  | some m =>
    rw [hmagnitude] at hx
    cases hx
    obtain ⟨s, hs⟩ := Magnitude.rounded_of_ofDecimal? hmagnitude
    exact Binary64.roundsTo_of_rounded (by positivity) hs hi

/-- A small whole number is read as what it is. -/
theorem read_of_value (h : l.Spells s) (hm : l.Moderate) {n : ℤ} (hn : l.value = n)
    (hsmall : n.natAbs ≤ 2 ^ 53) : ∃ x, Numeral.read s = .value x ∧ x.toInt? = some n := by
  have hnonneg : (0 : ℚ) ≤ l.coefficient * 10 ^ l.scale := by positivity
  have habs : (l.coefficient * 10 ^ l.scale : ℚ) = n.natAbs := by
    rw [← abs_signed hnonneg l.negative, ← value, hn, ← Int.cast_abs, Int.abs_eq_natAbs]
    rfl
  have hmagnitude := Magnitude.ofDecimal?_eq_ofNat habs hsmall
  refine ⟨.finite l.negative (.ofNat n.natAbs hsmall), ?_, ?_⟩
  · rw [read_of_spells h hm, hmagnitude]
    rfl
  · rw [Binary64.toInt?_of_units (Magnitude.units_ofNat hsmall)]
    have hsign : ((if l.negative then -(n.natAbs : ℤ) else n.natAbs : ℤ) : ℚ) = n := by
      rw [← hn, value, habs, signed]
      split <;> simp
    rw [Int.cast_injective hsign]

end Number.DecimalLiteral

namespace Shape

open Number

variable {l : DecimalLiteral} {s what : String} {i n : ℤ}

theorem wholeNumber?_eq_some (h : wholeNumber? s = some i) :
    Whole.parse s = .ok i ∨
      ∃ x, Numeral.read s = .value x ∧ x.toInt? = some i ∧ i.natAbs ≤ 2 ^ 53 := by
  rw [wholeNumber?] at h
  split at h
  · rename_i hi
    cases h
    exact .inl hi
  · split at h
    · rename_i x hx
      obtain ⟨n, hn, h⟩ := Option.bind_eq_some_iff.1 h
      split at h
      · rename_i hsmall
        cases h
        exact .inr ⟨x, hx, hn, hsmall⟩
      · cases h
    · cases h

/-- What is read as a whole number is exact, or it is rounded and small. -/
theorem value_of_wholeNumber? (h : l.Spells s) (hm : l.Moderate) (hi : wholeNumber? s = some i) :
    l.value = i ∨ Binary64.RoundsTo l.value i ∧ i.natAbs ≤ 2 ^ 53 := by
  rcases wholeNumber?_eq_some hi with hi | ⟨x, hx, hint, hsmall⟩
  · obtain ⟨hplain, rfl⟩ := DecimalLiteral.of_parse h hi
    exact .inl (DecimalLiteral.value_of_isPlain hplain)
  · exact .inr ⟨DecimalLiteral.roundsTo_of_read h hm hx hint, hsmall⟩

theorem roundsTo_of_wholeNumber? (h : l.Spells s) (hm : l.Moderate) (hi : wholeNumber? s = some i) :
    Binary64.RoundsTo l.value i := by
  rcases value_of_wholeNumber? h hm hi with hvalue | ⟨hround, -⟩
  · rw [hvalue]
    exact Binary64.roundsTo_self i
  · exact hround

/-- Plain literals within the range are read as what they are. -/
theorem wholeNumber?_of_isPlain (h : l.Spells s) (hplain : l.IsPlain) (hn : l.value = n)
    (hr : Whole.InRange n) : wholeNumber? s = some n := by
  have hvalue : (if l.negative then -(l.coefficient : ℤ) else l.coefficient) = n :=
    Int.cast_injective ((DecimalLiteral.value_of_isPlain hplain).symm.trans hn)
  have hparse := DecimalLiteral.parse_of_isPlain h hplain (hvalue.symm ▸ hr)
  rw [wholeNumber?, hparse, hvalue]

/-- A plain literal is never rounded: beyond the range it is too large for a number that may be. -/
theorem value_of_isPlain (h : l.Spells s) (hm : l.Moderate) (hplain : l.IsPlain)
    (hi : wholeNumber? s = some i) : l.value = i := by
  rcases value_of_wholeNumber? h hm hi with hvalue | ⟨hround, hsmall⟩
  · exact hvalue
  · have hvalue := DecimalLiteral.value_of_isPlain hplain
    generalize (if l.negative then -(l.coefficient : ℤ) else l.coefficient) = n at hvalue
    have hclose : |n - i| ≤ 1 := by
      have hle := hround.abs_sub_le_one hsmall
      rw [hvalue] at hle
      exact_mod_cast hle
    have hr : Whole.InRange n := by
      rw [abs_le] at hclose
      constructor <;> omega
    rw [wholeNumber?_of_isPlain h hplain hvalue hr] at hi
    rw [hvalue, Option.some.inj hi]

/-- Small whole numbers are read as what they are, however they are written. -/
theorem wholeNumber?_of_small (h : l.Spells s) (hm : l.Moderate) (hn : l.value = n)
    (hsmall : n.natAbs ≤ 2 ^ 53) : wholeNumber? s = some n := by
  rw [wholeNumber?]
  cases hparse : Whole.parse s with
  | ok i =>
    obtain ⟨hplain, hi⟩ := DecimalLiteral.of_parse h hparse
    have hvalue := DecimalLiteral.value_of_isPlain hplain
    rw [← hi, hn] at hvalue
    rw [Int.cast_injective hvalue]
  | error f =>
    obtain ⟨x, hx, hint⟩ := DecimalLiteral.read_of_value h hm hn hsmall
    simp only [hx, hint, Option.bind_eq_bind, Option.bind_some]
    exact if_pos hsmall

/-- A number is refused: the issue is a mismatch of types and names the number. -/
structure Mismatched (what s : String) : Prop where
  int_eq : int what (.number s) = .error (Complaint.notWhole what s).issue
  code : (Complaint.notWhole what s).issue.kind.code = "FIELD_TYPE_MISMATCH"

theorem mismatched_of_eq_none (h : wholeNumber? s = none) (what : String) : Mismatched what s := by
  refine ⟨?_, rfl⟩
  rw [int]
  simp only [h]

/-- Where a whole number is expected, a literal stands for the number of the format that is nearest to
what it denotes, if that is whole and small. So what is read is exact for literals that are all digits,
for numbers of the format and for literals with few digits, of which those with a fraction are
mismatches; but other literals may be off by a fraction of at most `2 ^ (-53)`, and those very close to
zero are read as zero. All literals that are whole and small and all plain ones within the range are
read, and whatever is not read is a mismatch that names it. -/
theorem int_of_isLiteral (hs : Json.Reader.isLiteral s.toList) (what : String) :
    (∃ l : DecimalLiteral, l.Spells s) ∧ ∀ l : DecimalLiteral, l.Spells s → l.Moderate →
      (∀ i, int what (.number s) = .ok i →
        Binary64.RoundsTo l.value i ∧ (l.IsExact → l.value = i)) ∧
      (∀ n : ℤ, l.value = n → l.IsPlain ∧ Whole.InRange n ∨ n.natAbs ≤ 2 ^ 53 →
        int what (.number s) = .ok n) ∧
      (l.IsExact → (∀ n : ℤ, l.value ≠ n) → Mismatched what s) ∧
      ((∀ i, int what (.number s) ≠ .ok i) → Mismatched what s) := by
  refine ⟨Json.Reader.exists_spells_of_isLiteral hs, fun l h hm => ?_⟩
  have hexact : ∀ i, wholeNumber? s = some i → l.IsExact → l.value = i := by
    intro i hi hl
    have hround := roundsTo_of_wholeNumber? h hm hi
    -- A plain literal is read digit by digit. Any other one is rounded, which keeps the exact ones.
    rcases hl with hplain | hvalue | ⟨hscale, hsmall⟩
    · exact value_of_isPlain h hm hplain hi
    · exact hround.eq_of_isValue hvalue
    · obtain ⟨n, hn, habs⟩ := l.exists_value_mul_eq
      exact hround.eq_of_places hn (by omega) (habs.trans_lt hsmall)
  refine ⟨fun i hi => ?_, fun n hn hr => ?_, fun hl hfraction => ?_, fun hnone => ?_⟩
  · obtain ⟨_, ⟨⟩, hi⟩ := int_eq_ok.1 hi
    exact ⟨roundsTo_of_wholeNumber? h hm hi, hexact i hi⟩
  · refine int_eq_ok.2 ⟨s, rfl, ?_⟩
    rcases hr with ⟨hplain, hr⟩ | hsmall
    · exact wholeNumber?_of_isPlain h hplain hn hr
    · exact wholeNumber?_of_small h hm hn hsmall
  · refine mismatched_of_eq_none (Option.eq_none_iff_forall_ne_some.2 fun i hi => ?_) what
    exact hfraction i (hexact i hi hl)
  · refine mismatched_of_eq_none (Option.eq_none_iff_forall_ne_some.2 fun i hi => ?_) what
    exact hnone i (int_eq_ok.2 ⟨s, rfl, hi⟩)

/-- The literal `4.2E1`. -/
def fortyTwo : DecimalLiteral where
  whole := ['4']
  fraction := ['2']
  exponent := some { letter := 'E', digits := ['1'] }

theorem fortyTwo_spells : fortyTwo.Spells "4.2E1" := by
  refine ⟨⟨by simp [fortyTwo], by simp [fortyTwo], by simp [fortyTwo], ?_⟩, by decide⟩
  rintro e ⟨⟩
  exact ⟨.inr rfl, by simp, by simp, by simp⟩

theorem fortyTwo_value : fortyTwo.value = (42 : ℤ) := by
  have hcoefficient : fortyTwo.coefficient = 42 := by decide
  have hscale : fortyTwo.scale = 0 := by decide
  rw [DecimalLiteral.value, hcoefficient, hscale]
  norm_num [signed, fortyTwo]

/-- The literal `0.99999999999999999999`. -/
def nearlyOne : DecimalLiteral where
  whole := ['0']
  fraction := List.replicate 20 '9'

theorem nearlyOne_spells : nearlyOne.Spells "0.99999999999999999999" := by
  refine ⟨⟨by simp [nearlyOne], by simp [nearlyOne], ?_, by simp [nearlyOne]⟩, by decide⟩
  rintro c hc
  rw [List.eq_of_mem_replicate hc]
  rfl

theorem nearlyOne_value (n : ℤ) : nearlyOne.value ≠ n := by
  have hcoefficient : nearlyOne.coefficient = 99999999999999999999 := by decide
  have hscale : nearlyOne.scale = -20 := by decide
  have hvalue : nearlyOne.value = 99999999999999999999 / 10 ^ 20 := by
    rw [DecimalLiteral.value, hcoefficient, hscale]
    norm_num [signed, nearlyOne]
  rw [hvalue]
  intro h
  rw [div_eq_iff (by norm_num)] at h
  have hint : (99999999999999999999 : ℤ) = n * 10 ^ 20 := by exact_mod_cast h
  omega

theorem int_nearlyOne : int "value" (.number "0.99999999999999999999") = .ok 1 :=
  int_eq_ok.2 ⟨_, rfl, by decide +kernel⟩

theorem int_reads_fortyTwo_and_rounds_nearlyOne :
    (Json.Reader.isLiteral "4.2E1".toList ∧ fortyTwo.Spells "4.2E1" ∧ fortyTwo.Moderate ∧
      int "value" (.number "4.2E1") = .ok 42) ∧
    Json.Reader.isLiteral "0.99999999999999999999".toList ∧
      nearlyOne.Spells "0.99999999999999999999" ∧ nearlyOne.Moderate ∧
      int "value" (.number "0.99999999999999999999") = .ok 1 ∧ Binary64.RoundsTo nearlyOne.value 1 := by
  have hliteral : Json.Reader.isLiteral "4.2E1".toList := by decide
  have hmoderate : fortyTwo.Moderate := .inr (by decide)
  obtain ⟨-, h⟩ := int_of_isLiteral hliteral "value"
  have hread := (h fortyTwo fortyTwo_spells hmoderate).2.1 42 fortyTwo_value (.inr (by decide))
  have hliteral' : Json.Reader.isLiteral "0.99999999999999999999".toList := by decide
  have hmoderate' : nearlyOne.Moderate := .inr (by decide)
  obtain ⟨-, h'⟩ := int_of_isLiteral hliteral' "value"
  have hround := ((h' nearlyOne nearlyOne_spells hmoderate').1 1 int_nearlyOne).1
  exact ⟨⟨hliteral, fortyTwo_spells, hmoderate, hread⟩, hliteral', nearlyOne_spells, hmoderate',
    int_nearlyOne, hround⟩

/-- A literal with a fraction may be read as a whole number. -/
theorem nearlyOne_is_read_as_one :
    Json.Reader.isLiteral "0.99999999999999999999".toList ∧
      nearlyOne.Spells "0.99999999999999999999" ∧ (∀ n : ℤ, nearlyOne.value ≠ n) ∧
      int "value" (.number "0.99999999999999999999") = .ok 1 :=
  ⟨by decide, nearlyOne_spells, nearlyOne_value, int_nearlyOne⟩

end Shape

end IrDialects
