import IrDialects.Proofs.Number.Binary64
import Mathlib.Algebra.Order.Field.Power
import Mathlib.Data.Nat.Cast.Order.Field
import Mathlib.Data.Rat.Cast.Order
import Mathlib.Tactic.Linarith
import Mathlib.Tactic.NormNum
import Mathlib.Tactic.Positivity

/-!
# Nearest numbers of the binary format

A quotient is rounded to a multiple of a power of two that is fine enough: no number of the format is
nearer to the quotient than the one it is rounded to. Hence what is rounded to a whole number other than
zero is off by a fraction of it that is at most `2 ^ (-53)`.
-/

namespace IrDialects.Number

namespace Magnitude

/-- Rounding a quotient is off by at most one half. -/
theorem two_mul_abs_sub_roundDiv_le {q : Nat} (hq : 0 < q) (p : Nat) :
    2 * |(p : ℤ) - (q * roundDiv p q : ℕ)| ≤ q := by
  have hmod := Nat.mod_lt p hq
  have hdiv := Nat.div_add_mod p q
  have hsucc : q * (p / q + 1) = q * (p / q) + q := by ring
  simp only [roundDiv, Bool.or_eq_true, decide_eq_true_eq, Bool.and_eq_true, beq_iff_eq]
  split_ifs with h
  · rw [hsucc, abs_of_nonpos (by omega)]
    omega
  · rw [abs_of_nonneg (by omega)]
    omega

theorem abs_sub_roundDiv_le {q : Nat} (hq : 0 < q) (p : Nat) :
    |(p / q : ℚ) - roundDiv p q| ≤ 1 / 2 := by
  have hpos : (0 : ℚ) < q := Nat.cast_pos.2 hq
  have hround : 2 * |(p : ℚ) - q * roundDiv p q| ≤ q := by
    exact_mod_cast two_mul_abs_sub_roundDiv_le hq p
  have hscale : (p : ℚ) - q * roundDiv p q = q * (p / q - roundDiv p q) := by
    rw [mul_sub, mul_div_cancel₀ _ hpos.ne']
  rw [hscale, abs_mul, abs_of_pos hpos] at hround
  nlinarith

/-- A number is rounded to a multiple of a power of two. Unless this is 1, both have at least 53 binary
places in units of it. -/
structure Rounded (x : ℚ) (u s : ℕ) : Prop where
  close : |x - u| ≤ 2 ^ s / 2
  dvd : 2 ^ s ∣ u
  fine : s = 0 ∨ 2 ^ (52 + s) ≤ x ∧ 2 ^ (52 + s) ≤ u

/-- A number with an integral part of a certain length is at least a power of two. -/
theorem two_pow_log2_le {p q : Nat} (h : 0 < (p / q).log2) : (2 : ℚ) ^ (p / q).log2 ≤ p / q := by
  have hne : p / q ≠ 0 := by
    intro h0
    rw [h0] at h
    exact absurd h (by decide)
  have hle : ((2 ^ (p / q).log2 : ℕ) : ℚ) ≤ ((p / q : ℕ) : ℚ) := Nat.cast_le.2 (Nat.log2_self_le hne)
  rw [Nat.cast_pow, Nat.cast_ofNat] at hle
  exact hle.trans Nat.cast_div_le

theorem rounded_roundDiv {q : Nat} (hq : 0 < q) (p : Nat) :
    Rounded (p / q) (roundDiv p (q * 2 ^ ((p / q).log2 - 52)) * 2 ^ ((p / q).log2 - 52))
      ((p / q).log2 - 52) := by
  have hle : 52 < (p / q).log2 → (2 : ℚ) ^ (p / q).log2 ≤ p / q := fun h => two_pow_log2_le (by omega)
  generalize (p / q).log2 = l at hle
  have hpos : (0 : ℚ) < 2 ^ (l - 52) := by positivity
  have hround := abs_sub_roundDiv_le (Nat.mul_pos hq (Nat.two_pow_pos (l - 52))) p
  generalize roundDiv p (q * 2 ^ (l - 52)) = w at hround ⊢
  push_cast at hround
  rw [← div_div] at hround
  -- In units of the last place the error is at most one half; then it is scaled back.
  have hsplit : (p / q : ℚ) = p / q / 2 ^ (l - 52) * 2 ^ (l - 52) := (div_mul_cancel₀ _ hpos.ne').symm
  refine ⟨?_, dvd_mul_left _ _, ?_⟩
  · push_cast
    rw [hsplit, ← sub_mul, abs_mul, abs_of_pos hpos]
    linarith [mul_le_mul_of_nonneg_right hround hpos.le]
  · rcases Nat.eq_zero_or_pos (l - 52) with h0 | h0
    · exact .inl h0
    · have hx := hle (by omega)
      have hl : l = 52 + (l - 52) := by omega
      generalize l - 52 = s at hl hpos hround ⊢
      subst hl
      refine .inr ⟨hx, ?_⟩
      -- The number of units is whole and less than one below at most `2 ^ 52`.
      rw [pow_add, ← le_div_iff₀ hpos] at hx
      have hw : (2 : ℚ) ^ 52 - 1 < w := by linarith [(abs_le.1 hround).2]
      have hw' : 2 ^ 52 ≤ w := by
        have hlt : ((2 ^ 52 : ℕ) : ℚ) < ((w + 1 : ℕ) : ℚ) := by
          push_cast
          linarith
        exact Nat.lt_succ_iff.1 (Nat.cast_lt.1 hlt)
      rw [pow_add]
      exact Nat.mul_le_mul_right _ hw'

namespace Rounded

variable {x : ℚ} {u s : ℕ}

/-- No other multiple is nearer. -/
theorem le_of_dvd (h : Rounded x u s) {v : ℕ} (hv : 2 ^ s ∣ v) : |x - u| ≤ |x - v| := by
  obtain ⟨a, rfl⟩ := h.dvd
  obtain ⟨b, rfl⟩ := hv
  rcases eq_or_ne a b with rfl | hab
  · exact le_rfl
  · have hone : (1 : ℚ) ≤ |(a : ℚ) - b| := by
      have hint : (1 : ℤ) ≤ |(a : ℤ) - b| := Int.one_le_abs (sub_ne_zero.2 (by exact_mod_cast hab))
      exact_mod_cast hint
    have hapart : (2 : ℚ) ^ s ≤ |((2 ^ s * a : ℕ) : ℚ) - (2 ^ s * b : ℕ)| := by
      push_cast
      rw [← mul_sub, abs_mul, abs_of_pos (by positivity)]
      exact le_mul_of_one_le_right (by positivity) hone
    have htriangle := abs_sub_le ((2 ^ s * a : ℕ) : ℚ) x (2 ^ s * b : ℕ)
    rw [abs_sub_comm ((2 ^ s * a : ℕ) : ℚ) x] at htriangle
    linarith [h.close]

/-- No magnitude of the format is nearer. -/
theorem le_of_representable (h : Rounded x u s) {v : ℕ} (hv : Representable v) :
    |x - u| ≤ |x - v| := by
  by_cases hdvd : 2 ^ s ∣ v
  · exact h.le_of_dvd hdvd
  · -- A magnitude with finer places is below the least number with as many places as `x`.
    have hlog : v.log2 < 52 + s := by
      by_contra hge
      exact hdvd ((Nat.pow_dvd_pow 2 (by omega)).trans hv.2)
    have hlt : v < 2 ^ (52 + s) := by
      rcases Nat.eq_zero_or_pos v with rfl | hpos
      · exact Nat.two_pow_pos _
      · exact (Nat.log2_lt hpos.ne').1 hlog
    have hs : s ≠ 0 := by
      rintro rfl
      exact hdvd (one_dvd v)
    have hx := (h.fine.resolve_left hs).1
    have hv' : (v : ℚ) ≤ 2 ^ (52 + s) := by exact_mod_cast hlt.le
    calc |x - u| ≤ |x - (2 ^ (52 + s) : ℕ)| := h.le_of_dvd (Nat.pow_dvd_pow 2 (by omega))
      _ = x - 2 ^ (52 + s) := by
        push_cast
        exact abs_of_nonneg (sub_nonneg.2 hx)
      _ ≤ x - v := by linarith
      _ = |x - v| := (abs_of_nonneg (by linarith)).symm

/-- Rounding is off by little: by a small fraction of the result or by half a unit. -/
theorem close_or_fine (h : Rounded x u s) : 2 ^ 53 * |x - u| ≤ u ∨ |x - u| ≤ 1 / 2 := by
  rcases h.fine with rfl | ⟨-, hu⟩
  · exact .inr (by simpa using h.close)
  · refine .inl ?_
    have hu' : (2 : ℚ) ^ (52 + s) ≤ u := by exact_mod_cast hu
    calc 2 ^ 53 * |x - u| ≤ 2 ^ 53 * (2 ^ s / 2) := by linarith [h.close]
      _ = 2 ^ (52 + s) := by ring
      _ ≤ u := hu'

end Rounded

theorem rounded_of_nearest? {p q : Nat} (hq : 0 < q) {m : Magnitude} (h : nearest? p q = some m) :
    ∃ s, Rounded (p / q * 2 ^ 1074) m.units s := by
  have hround (k : ℕ) := rounded_roundDiv hq (p * 2 ^ k)
  have hcast (k : ℕ) : ((p * 2 ^ k : ℕ) : ℚ) / q = p / q * 2 ^ k := by
    push_cast
    ring
  simp only [hcast] at hround
  rw [nearest?] at h
  split at h
  · cases h
    simp only [excess]
    generalize 1074 = k
    exact ⟨_, hround k⟩
  · cases h

/-- A decimal as a quotient of natural numbers. -/
theorem natCast_mul_ten_pow_div (c : ℕ) (e : ℤ) :
    ((c * 10 ^ e.toNat : ℕ) : ℚ) / (10 ^ (-e).toNat : ℕ) = c * 10 ^ e := by
  obtain ⟨n, rfl | rfl⟩ := e.eq_nat_or_neg
  · simp
  · simp [div_eq_mul_inv]

theorem digitCount_pos (c : ℕ) : 0 < digitCount c := List.length_pos_iff.2 Nat.toDigits_ne_nil

theorem lt_ten_pow_digitCount (c : ℕ) : c < 10 ^ digitCount c :=
  (Nat.length_toDigits_le_iff (by omega) (digitCount_pos c)).1 le_rfl

theorem ten_pow_le_of_ne_zero {c : ℕ} (hc : c ≠ 0) : 10 ^ (digitCount c - 1) ≤ c := by
  rcases Nat.eq_zero_or_pos (digitCount c - 1) with h0 | hpos
  · rw [h0]
    exact Nat.one_le_iff_ne_zero.2 hc
  · rw [← not_lt, ← Nat.length_toDigits_le_iff (by omega) hpos]
    have hcount := digitCount_pos c
    rw [digitCount] at hcount ⊢
    omega

/-- A decimal lies between the powers of ten before and after its first digit. -/
theorem mul_ten_pow_lt (c : ℕ) (e : ℤ) : (c : ℚ) * 10 ^ e < 10 ^ (e + digitCount c) := by
  have hc : (c : ℚ) < 10 ^ digitCount c := by exact_mod_cast lt_ten_pow_digitCount c
  rw [zpow_add₀ (by norm_num), zpow_natCast, mul_comm]
  exact mul_lt_mul_of_pos_left hc (by positivity)

theorem ten_pow_le_mul {c : ℕ} (hc : c ≠ 0) (e : ℤ) :
    (10 : ℚ) ^ (e + digitCount c - 1) ≤ c * 10 ^ e := by
  have hle : (10 : ℚ) ^ (digitCount c - 1) ≤ c := by exact_mod_cast ten_pow_le_of_ne_zero hc
  have hcount := digitCount_pos c
  rw [show e + (digitCount c : ℤ) - 1 = (digitCount c - 1 : ℕ) + e by omega,
    zpow_add₀ (by norm_num), zpow_natCast]
  exact mul_le_mul_of_nonneg_right hle (by positivity)

theorem ten_pow_mul_two_pow_le {k l : ℕ} (h : Nat.pow 2 k * 2 ≤ Nat.pow 10 l) :
    (10 : ℚ) ^ (-(l : ℤ)) * 2 ^ k ≤ 1 / 2 := by
  have hcast : (2 : ℚ) ^ k * 2 ≤ 10 ^ l := by exact_mod_cast h
  rw [zpow_neg, zpow_natCast, inv_mul_le_iff₀ (by positivity)]
  linarith

/-- A decimal is rounded to its magnitude. -/
theorem rounded_of_ofDecimal? {c : ℕ} {e : ℤ} {m : Magnitude} (h : ofDecimal? c e = some m) :
    ∃ s, Rounded (c * 10 ^ e * 2 ^ 1074) m.units s := by
  rcases eq_or_ne c 0 with rfl | hc
  · cases h
    exact ⟨0, by simp [zero], by simp, .inl rfl⟩
  by_cases hlow : e + digitCount c < -330
  · rw [ofDecimal?, if_neg hc] at h
    simp only [if_neg (show ¬ 310 < e + (digitCount c : ℤ) by omega), if_pos hlow] at h
    cases h
    refine ⟨0, ?_, by simp, .inl rfl⟩
    have hlt : (c : ℚ) * 10 ^ e ≤ 10 ^ (-(330 : ℕ) : ℤ) :=
      (mul_ten_pow_lt c e).le.trans (zpow_le_zpow_right₀ (by norm_num) hlow.le)
    have hsmall := ten_pow_mul_two_pow_le (k := 1074) (l := 330) (by decide +kernel)
    have hnonneg : (0 : ℚ) ≤ c * 10 ^ e * 2 ^ 1074 := by positivity
    rw [zero, Nat.cast_zero, sub_zero, abs_of_nonneg hnonneg, pow_zero]
    exact (mul_le_mul_of_nonneg_right hlt (by positivity)).trans hsmall
  · by_cases hhigh : 310 < e + digitCount c
    · rw [ofDecimal?, if_neg hc] at h
      simp only [if_pos hhigh] at h
      cases h
    · rw [ofDecimal?_eq_nearest? hc (by omega) (by omega)] at h
      rw [← natCast_mul_ten_pow_div]
      exact rounded_of_nearest? (Nat.pow_pos (by omega)) h

theorem representable_ofNat {n : ℕ} (h : n ≤ 2 ^ 53) : Representable (n * Nat.pow 2 1074) := by
  have hs : 1074 < 2045 := by omega
  generalize 1074 = s at hs ⊢
  exact representable_mul_two_pow h hs

/-- The magnitude of a whole number of at most 53 binary places. -/
def ofNat (n : ℕ) (h : n ≤ 2 ^ 53) : Magnitude := ⟨n * Nat.pow 2 1074, representable_ofNat h⟩

theorem units_ofNat {n : ℕ} (h : n ≤ 2 ^ 53) : (ofNat n h).units = n * Nat.pow 2 1074 := by rw [ofNat]

/-- A decimal that is such a whole number is read as that. -/
theorem ofDecimal?_eq_ofNat {c n : ℕ} {e : ℤ} (h : (c : ℚ) * 10 ^ e = n) (hn : n ≤ 2 ^ 53) :
    ofDecimal? c e = some (ofNat n hn) := by
  rcases eq_or_ne c 0 with rfl | hc
  · have h0 : n = 0 := by simpa [eq_comm] using h
    subst h0
    rw [ofDecimal?, if_pos rfl]
    simp only [ofNat, zero, Nat.zero_mul]
  · have hone : (1 : ℚ) ≤ n := by
      have hpos : (0 : ℚ) < n := by
        rw [← h]
        have hc' : (0 : ℚ) < c := Nat.cast_pos.2 (Nat.pos_of_ne_zero hc)
        positivity
      exact_mod_cast Nat.one_le_iff_ne_zero.2 (Nat.cast_pos.1 hpos).ne'
    -- The number is at least 1 and below `10 ^ 16`, so its place passes both checks of the range.
    have hlow : (10 : ℚ) ^ (0 : ℤ) < 10 ^ (e + digitCount c) := by
      rw [zpow_zero]
      exact hone.trans_lt (h ▸ mul_ten_pow_lt c e)
    have hhigh : (10 : ℚ) ^ (e + digitCount c - 1) < 10 ^ (16 : ℤ) := by
      have hn' : (n : ℚ) ≤ 2 ^ 53 := by exact_mod_cast hn
      refine (h ▸ ten_pow_le_mul hc e).trans_lt (hn'.trans_lt ?_)
      norm_num
    rw [zpow_lt_zpow_iff_right₀ (by norm_num)] at hlow hhigh
    rw [ofDecimal?_eq_nearest? hc (by omega) (by omega)]
    refine nearest?_eq_some (Nat.pow_pos (by omega)) (ofNat n hn).representable ?_
    have hpos : ((10 ^ (-e).toNat : ℕ) : ℚ) ≠ 0 := by positivity
    have hmul : c * 10 ^ e.toNat = n * 10 ^ (-e).toNat := by
      rw [← natCast_mul_ten_pow_div, div_eq_iff hpos] at h
      exact_mod_cast h
    rw [hmul, Nat.mul_right_comm, ofNat]

/-- The number that a magnitude stands for. -/
def value (m : Magnitude) : ℚ := m.units / 2 ^ 1074

/-- No magnitude is nearer to a number than the one it is rounded to. -/
theorem Rounded.value_le {a : ℚ} {m : Magnitude} {s : ℕ} (h : Rounded (a * 2 ^ 1074) m.units s)
    (m' : Magnitude) : |a - m.value| ≤ |a - m'.value| := by
  have hle := h.le_of_representable m'.representable
  rw [value, value]
  generalize 1074 = k at hle ⊢
  have hpos : (0 : ℚ) < 2 ^ k := by positivity
  have hscale (u : ℕ) : |a - u / 2 ^ k| = |a * 2 ^ k - u| / 2 ^ k := by
    rw [← abs_of_pos hpos, ← abs_div, sub_div, abs_of_pos hpos, mul_div_cancel_right₀ _ hpos.ne']
  rw [hscale, hscale]
  exact div_le_div_of_nonneg_right hle hpos.le

/-- What is rounded to a whole number other than zero is off by a small fraction of it. -/
theorem Rounded.close_of_ne_zero {a : ℚ} {n s : ℕ}
    (h : Rounded (a * 2 ^ 1074) (n * Nat.pow 2 1074) s) (hn : n ≠ 0) : 2 ^ 53 * |a - n| ≤ n := by
  have hk : 52 ≤ 1074 := by omega
  have hclose := h.close_or_fine
  generalize 1074 = k at hclose hk
  have hpos : (0 : ℚ) < 2 ^ k := by positivity
  have hscale : |a * 2 ^ k - (n * Nat.pow 2 k : ℕ)| = |a - n| * 2 ^ k := by
    rw [Nat.pow_eq, Nat.cast_mul, Nat.cast_pow, Nat.cast_ofNat, ← sub_mul, abs_mul, abs_of_pos hpos]
  rw [hscale, Nat.pow_eq, Nat.cast_mul, Nat.cast_pow, Nat.cast_ofNat, ← mul_assoc] at hclose
  rcases hclose with hclose | hclose
  · exact le_of_mul_le_mul_right hclose hpos
  · have hone : (1 : ℚ) ≤ n := by exact_mod_cast Nat.one_le_iff_ne_zero.2 hn
    have hle : |a - n| * 2 ^ 52 ≤ 1 / 2 :=
      (mul_le_mul_of_nonneg_left (pow_le_pow_right₀ (by norm_num) hk) (abs_nonneg _)).trans hclose
    linarith

/-- What is rounded to zero is at most half a unit. -/
theorem Rounded.le_of_eq_zero {x : ℚ} {s : ℕ} (h : Rounded x 0 s) (hx : 0 ≤ x) : x ≤ 1 / 2 := by
  have hclose := h.close_or_fine
  rw [Nat.cast_zero, sub_zero, abs_of_nonneg hx] at hclose
  rcases hclose with hclose | hclose <;> linarith

end Magnitude

/-- A number with a given sign. -/
def signed (negative : Bool) (a : ℚ) : ℚ := if negative then -a else a

theorem abs_signed {a : ℚ} (ha : 0 ≤ a) (negative : Bool) : |signed negative a| = a := by
  cases negative <;> simp [signed, abs_of_nonneg ha]

theorem abs_signed_sub (negative : Bool) (a b : ℚ) :
    |signed negative a - signed negative b| = |a - b| := by
  cases negative with
  | false => simp [signed]
  | true =>
    rw [signed, signed, if_pos rfl, if_pos rfl, neg_sub_neg]
    exact abs_sub_comm b a

namespace Binary64

/-- The numbers of the format. -/
def IsValue (x : ℚ) : Prop := ∃ m : Magnitude, |x| = m.value

/-- A number is rounded to a whole number: no number of the format is nearer. It is off by a small
fraction of the whole number, or if that is zero by half a least unit. -/
structure RoundsTo (q : ℚ) (i : ℤ) : Prop where
  nearest : ∀ x, IsValue x → |q - i| ≤ |q - x|
  close : i ≠ 0 → 2 ^ 53 * |q - i| ≤ |(i : ℚ)|
  tiny : i = 0 → |q| * 2 ^ 1074 ≤ 1 / 2

theorem value_of_toInt? {negative : Bool} {m : Magnitude} {i : ℤ}
    (h : (finite negative m).toInt? = some i) :
    ∃ n : ℕ, m.units = n * Nat.pow 2 1074 ∧ m.value = n ∧ (i : ℚ) = signed negative n := by
  rw [toInt?] at h
  rw [Magnitude.value]
  generalize 1074 = k at h ⊢
  split at h
  · rename_i hmod
    obtain ⟨n, hn⟩ := Nat.dvd_of_mod_eq_zero hmod
    have hdiv : m.units / Nat.pow 2 k = n := by
      rw [hn]
      exact Nat.mul_div_cancel_left _ (Nat.two_pow_pos k)
    refine ⟨n, by rw [hn, Nat.mul_comm], ?_, ?_⟩
    · rw [hn, Nat.pow_eq, Nat.cast_mul, Nat.cast_pow, Nat.cast_ofNat]
      exact mul_div_cancel_left₀ _ (by positivity)
    · simp only [hdiv, Option.some.injEq] at h
      rw [← h, signed]
      cases negative <;> simp
  · cases h

theorem toInt?_of_units {m : Magnitude} {n : ℕ} (h : m.units = n * Nat.pow 2 1074)
    (negative : Bool) :
    (finite negative m).toInt? = some (if negative then -(n : ℤ) else n) := by
  rw [toInt?]
  generalize 1074 = k at h ⊢
  have hdiv : m.units / Nat.pow 2 k = n := by
    rw [h]
    exact Nat.mul_div_cancel _ (Nat.two_pow_pos k)
  rw [if_pos (h ▸ Nat.mul_mod_left _ _), hdiv]

theorem roundsTo_of_rounded {a : ℚ} (ha : 0 ≤ a) {negative : Bool} {m : Magnitude} {s : ℕ} {i : ℤ}
    (h : Magnitude.Rounded (a * 2 ^ 1074) m.units s) (hi : (finite negative m).toInt? = some i) :
    RoundsTo (signed negative a) i := by
  obtain ⟨n, hunits, hvalue, hi⟩ := value_of_toInt? hi
  refine ⟨fun x hx => ?_, fun hne => ?_, fun h0 => ?_⟩
  · obtain ⟨m', hm'⟩ := hx
    calc |signed negative a - i| = |a - m.value| := by rw [hi, hvalue, abs_signed_sub]
      _ ≤ |a - m'.value| := h.value_le m'
      _ = |(|signed negative a| - |x|)| := by rw [hm', abs_signed ha]
      _ ≤ |signed negative a - x| := abs_abs_sub_abs_le _ _
  · rw [hi, abs_signed_sub, abs_signed (Nat.cast_nonneg n)]
    rw [hunits] at h
    refine h.close_of_ne_zero ?_
    rintro rfl
    exact hne (by simpa [signed] using hi)
  · have hn : n = 0 := by
      rw [h0] at hi
      cases negative <;> simpa [signed, eq_comm] using hi
    have hzero (k : ℕ) (hk : m.units = n * k) : m.units = 0 := by rw [hk, hn, Nat.zero_mul]
    rw [hzero _ hunits] at h
    rw [abs_signed ha]
    exact h.le_of_eq_zero (by positivity)

theorem roundsTo_self (i : ℤ) : RoundsTo i i := by
  refine ⟨fun x _ => ?_, fun _ => ?_, ?_⟩
  · rw [sub_self, abs_zero]
    exact abs_nonneg _
  · rw [sub_self, abs_zero, mul_zero]
    exact abs_nonneg _
  · rintro rfl
    rw [Int.cast_zero, abs_zero, zero_mul]
    norm_num

namespace RoundsTo

variable {q : ℚ} {i : ℤ}

/-- A number of the format is not rounded. -/
theorem eq_of_isValue (h : RoundsTo q i) (hq : IsValue q) : q = i := by
  have hle := h.nearest q hq
  rw [sub_self, abs_zero, abs_nonpos_iff] at hle
  exact sub_eq_zero.1 hle

theorem abs_sub_le_one (h : RoundsTo q i) (hi : i.natAbs ≤ 2 ^ 53) : |q - i| ≤ 1 := by
  rcases eq_or_ne i 0 with rfl | hne
  · have htiny := h.tiny rfl
    generalize 1074 = k at htiny
    have hone : (1 : ℚ) ≤ 2 ^ k := one_le_pow₀ (by norm_num)
    have hle := mul_le_mul_of_nonneg_left hone (abs_nonneg q)
    rw [Int.cast_zero, sub_zero]
    linarith
  · have hi' : |(i : ℚ)| ≤ 2 ^ 53 := by
      rw [← Int.cast_abs, Int.abs_eq_natAbs]
      exact_mod_cast hi
    linarith [h.close hne]

/-- A decimal with few digits is not rounded. -/
theorem eq_of_places (h : RoundsTo q i) {places : ℕ} {n : ℤ} (hn : q * 10 ^ places = n)
    (hplaces : places ≤ 323) (hsmall : n.natAbs < 2 ^ 52) : q = i := by
  by_contra hne
  have hpos : (0 : ℚ) < 10 ^ places := by positivity
  have hn' : |q| * 10 ^ places < 2 ^ 52 := by
    rw [← abs_of_pos hpos, ← abs_mul, hn, ← Int.cast_abs, Int.abs_eq_natAbs]
    exact_mod_cast hsmall
  -- Both are whole in units of the last place.
  have hapart : 1 ≤ |q - i| * 10 ^ places := by
    have hint : n - i * 10 ^ places ≠ 0 := by
      intro h0
      have hq : q * 10 ^ places = i * 10 ^ places := by
        rw [hn]
        exact_mod_cast sub_eq_zero.1 h0
      exact hne (mul_right_cancel₀ hpos.ne' hq)
    have hone : (1 : ℚ) ≤ |((n - i * 10 ^ places : ℤ) : ℚ)| := by exact_mod_cast Int.one_le_abs hint
    push_cast at hone
    rwa [← hn, ← sub_mul, abs_mul, abs_of_pos hpos] at hone
  rcases eq_or_ne i 0 with rfl | hi0
  · have htiny := h.tiny rfl
    have hpow : Nat.pow 10 323 < Nat.pow 2 1074 * 2 := by decide +kernel
    generalize 1074 = k at htiny hpow
    generalize 323 = l at hplaces hpow
    have hcast : (10 : ℚ) ^ l < 2 ^ k * 2 := by exact_mod_cast hpow
    have hle : (10 : ℚ) ^ places ≤ 10 ^ l := pow_le_pow_right₀ (by norm_num) hplaces
    rw [Int.cast_zero, sub_zero] at hapart
    have hq : 0 < |q| := by
      by_contra h0
      nlinarith [abs_nonneg q]
    nlinarith
  · have hclose := mul_le_mul_of_nonneg_right (h.close hi0) hpos.le
    have htriangle : |(i : ℚ)| ≤ |q - i| + |q| := by
      rw [abs_sub_comm]
      linarith [abs_sub_abs_le_abs_sub (i : ℚ) q]
    have hi := mul_le_mul_of_nonneg_right htriangle hpos.le
    linarith

end RoundsTo

end Binary64

end IrDialects.Number
