import IrDialects.Number.Binary64
import Mathlib.Data.Nat.Log
import Mathlib.Tactic.Ring

/-!
# Rounding to the binary format

The magnitude nearest to a quotient depends on the quotient only, not on how it is written, and a
magnitude of the format is its own nearest one. Hence the reading of a decimal does not change when
zeros are moved between its coefficient and its exponent.
-/

namespace IrDialects.Number

namespace Magnitude

theorem roundDiv_mul_left {k : Nat} (hk : 0 < k) (p q : Nat) :
    roundDiv (k * p) (k * q) = roundDiv p q := by
  have hr : 2 * (k * (p % q)) = k * (2 * (p % q)) := by ring
  simp only [roundDiv, Nat.mul_div_mul_left _ _ hk, Nat.mul_mod_mul_left, hr,
    gt_iff_lt, Nat.mul_lt_mul_left hk, Bool.or_eq_true, decide_eq_true_eq, Bool.and_eq_true,
    beq_iff_eq, Nat.mul_right_inj hk.ne']

theorem roundDiv_mul_self {q : Nat} (hq : 0 < q) (w : Nat) : roundDiv (w * q) q = w := by
  simp [roundDiv, Nat.mul_div_cancel _ hq, hq.ne]

theorem nearest?_mul_left {k : Nat} (hk : 0 < k) (p q : Nat) :
    nearest? (k * p) (k * q) = nearest? p q := by
  have he : excess (k * p) (k * q) = excess p q := by
    rw [excess, excess, Nat.mul_assoc, Nat.mul_div_mul_left _ _ hk]
  simp only [nearest?, he, Nat.mul_assoc, roundDiv_mul_left hk]

/-- Two ways of writing one quotient have one nearest magnitude. -/
theorem nearest?_congr {p q p' q' : Nat} (hq : 0 < q) (hq' : 0 < q') (h : p * q' = p' * q) :
    nearest? p q = nearest? p' q' := by
  rw [← nearest?_mul_left hq' p q, ← nearest?_mul_left hq p' q', Nat.mul_comm q' p, h,
    Nat.mul_comm p' q, Nat.mul_comm q' q]

/-- A quotient that is a magnitude of the format is its own nearest magnitude. -/
theorem nearest?_eq_some {p q u : Nat} (hq : 0 < q) (hu : Representable u)
    (h : p * Nat.pow 2 1074 = u * q) : nearest? p q = some ⟨u, hu⟩ := by
  have he : excess p q = u.log2 - 52 := by
    rw [excess, h, Nat.mul_div_cancel _ hq]
  obtain ⟨w, hw⟩ := hu.2
  have hp : p * Nat.pow 2 1074 = w * (q * Nat.pow 2 (u.log2 - 52)) := by
    calc p * Nat.pow 2 1074 = u * q := h
      _ = Nat.pow 2 (u.log2 - 52) * w * q := by rw [← hw]
      _ = w * (q * Nat.pow 2 (u.log2 - 52)) := by ring
  have hpos : 0 < q * Nat.pow 2 (u.log2 - 52) := Nat.mul_pos hq (Nat.pow_pos (by omega))
  have hr : roundDiv (p * Nat.pow 2 1074) (q * Nat.pow 2 (u.log2 - 52)) *
      Nat.pow 2 (u.log2 - 52) = u := by
    rw [hp, roundDiv_mul_self hpos, Nat.mul_comm]
    exact hw.symm
  simp only [nearest?, he, hr, dif_pos hu]

/-- A multiple of `2 ^ s` by at most `2 ^ 53` has at most 53 leading binary places. -/
private theorem dvd_of_le {w s : Nat} (hw : w ≤ 2 ^ 53) :
    2 ^ ((w * 2 ^ s).log2 - 52) ∣ w * 2 ^ s := by
  rcases Nat.eq_zero_or_pos w with rfl | hpos
  · simp
  have hne : w * 2 ^ s ≠ 0 := Nat.mul_ne_zero hpos.ne' (Nat.pow_pos (by omega)).ne'
  rcases hw.eq_or_lt with rfl | hlt
  · rw [← Nat.pow_add]
    refine Nat.pow_dvd_pow 2 ?_
    rw [Nat.log2_two_pow]
    omega
  · have hl : (w * 2 ^ s).log2 < 53 + s := by
      rw [Nat.log2_lt hne, Nat.pow_add]
      exact Nat.mul_lt_mul_of_pos_right hlt (Nat.pow_pos (by omega))
    exact (Nat.pow_dvd_pow 2 (by omega)).trans (Nat.dvd_mul_left _ _)

/-- Multiples of `2 ^ s` by at most `2 ^ 53` are magnitudes of the format, up to its range. -/
theorem representable_mul_two_pow {w s : Nat} (hw : w ≤ 2 ^ 53) (hs : s < 2045) :
    Representable (w * Nat.pow 2 s) := by
  refine ⟨?_, dvd_of_le hw⟩
  rcases Nat.eq_zero_or_pos w with rfl | hpos
  · simp
  · have hne : w * Nat.pow 2 s ≠ 0 := Nat.mul_ne_zero hpos.ne' (Nat.pow_pos (by omega)).ne'
    rw [Nat.log2_lt hne]
    calc w * 2 ^ s ≤ 2 ^ 53 * 2 ^ s := Nat.mul_le_mul_right _ hw
      _ = 2 ^ (53 + s) := (Nat.pow_add 2 53 _).symm
      _ < 2 ^ 2098 := Nat.pow_lt_pow_right (by omega) (by omega)

theorem roundDiv_le (p q : Nat) : roundDiv p q ≤ p / q + 1 := by
  rw [roundDiv]
  split <;> omega

/-- Rounding never leaves the format as long as the quotient is below the range. -/
theorem nearest?_isSome {p q : Nat} (h : p * Nat.pow 2 1074 / q < 2 ^ 2097) :
    (nearest? p q).isSome := by
  generalize hx : p * Nat.pow 2 1074 / q = x at h
  have hl : x.log2 < 2097 := by
    rcases Nat.eq_zero_or_pos x with rfl | hpos
    · simp
    · exact (Nat.log2_lt hpos.ne').2 h
  clear h
  have hs : excess p q = x.log2 - 52 := by rw [excess, hx]
  have hw : roundDiv (p * Nat.pow 2 1074) (q * Nat.pow 2 (x.log2 - 52)) ≤ 2 ^ 53 := by
    refine (roundDiv_le _ _).trans ?_
    rw [← Nat.div_div_eq_div_mul, hx]
    have hlt : x / 2 ^ (x.log2 - 52) < 2 ^ 53 := by
      rw [Nat.div_lt_iff_lt_mul (Nat.pow_pos (by omega)), ← Nat.pow_add]
      exact Nat.lt_log2_self.trans_le (Nat.pow_le_pow_right (by omega) (by omega))
    exact hlt
  have hrep := representable_mul_two_pow hw (show x.log2 - 52 < 2045 by omega)
  simp only [nearest?, hs, dif_pos hrep, Option.isSome_some]

theorem toDigits_mul_ten_pow {n : Nat} (hn : 0 < n) (k : Nat) :
    Nat.toDigits 10 (n * 10 ^ k) = Nat.toDigits 10 n ++ List.replicate k '0' := by
  induction k with
  | zero => simp
  | succ k ih =>
    have hpos : 0 < n * 10 ^ k := Nat.mul_pos hn (Nat.pow_pos (by omega))
    have h := Nat.toDigits_append_toDigits (b := 10) (d := 0) (by omega) hpos (by omega)
    rw [Nat.toDigits_zero, Nat.add_zero, ih] at h
    rw [Nat.pow_succ, ← Nat.mul_assoc, Nat.mul_comm _ 10, ← h, List.replicate_succ',
      List.append_assoc]

theorem digitCount_mul_ten_pow {n : Nat} (hn : 0 < n) (k : Nat) :
    digitCount (n * 10 ^ k) = digitCount n + k := by
  simp [digitCount, toDigits_mul_ten_pow hn]

/-- The decimal `coefficient * 10 ^ exponent` as a quotient of natural numbers. -/
theorem ofDecimal?_eq_nearest? {c : Nat} {e : Int} (hc : c ≠ 0)
    (hl : -330 ≤ e + digitCount c) (hu : e + digitCount c ≤ 310) :
    ofDecimal? c e = nearest? (c * 10 ^ e.toNat) (10 ^ (-e).toNat) := by
  rw [ofDecimal?, if_neg hc]
  simp only [if_neg (show ¬ 310 < e + (digitCount c : Int) by omega),
    if_neg (show ¬ e + (digitCount c : Int) < -330 by omega)]
  split
  · have h0 : (-e).toNat = 0 := by omega
    rw [h0]
    rfl
  · have h0 : e.toNat = 0 := by omega
    simp [h0]

/-- Zeros may be moved from the exponent of a decimal to its coefficient. -/
theorem ofDecimal?_mul_ten_pow (c k : Nat) (e : Int) :
    ofDecimal? (c * 10 ^ k) (e - k) = ofDecimal? c e := by
  rcases Nat.eq_zero_or_pos c with rfl | hc
  · simp [ofDecimal?]
  have hck : c * 10 ^ k ≠ 0 := (Nat.mul_pos hc (Nat.pow_pos (by omega))).ne'
  have hcount : ((digitCount (c * 10 ^ k) : Nat) : Int) = digitCount c + k := by
    rw [digitCount_mul_ten_pow hc]
    rfl
  by_cases hl : e + digitCount c < -330
  · rw [ofDecimal?, ofDecimal?, if_neg hck, if_neg hc.ne']
    simp only [if_neg (show ¬ 310 < e - k + (digitCount (c * 10 ^ k) : Int) by omega),
      if_pos (show e - k + (digitCount (c * 10 ^ k) : Int) < -330 by omega),
      if_neg (show ¬ 310 < e + (digitCount c : Int) by omega), if_pos hl]
  by_cases hu : 310 < e + digitCount c
  · rw [ofDecimal?, ofDecimal?, if_neg hck, if_neg hc.ne']
    simp only [if_pos (show 310 < e - k + (digitCount (c * 10 ^ k) : Int) by omega), if_pos hu]
  rw [ofDecimal?_eq_nearest? hck (by omega) (by omega),
    ofDecimal?_eq_nearest? hc.ne' (by omega) (by omega)]
  refine nearest?_congr (Nat.pow_pos (by omega)) (Nat.pow_pos (by omega)) ?_
  have hexp : k + (e - k).toNat + (-e).toNat = e.toNat + (-(e - k)).toNat := by omega
  calc c * 10 ^ k * 10 ^ (e - k).toNat * 10 ^ (-e).toNat
      = c * 10 ^ (k + (e - k).toNat + (-e).toNat) := by rw [Nat.pow_add, Nat.pow_add]; ring
    _ = c * 10 ^ (e.toNat + (-(e - k)).toNat) := by rw [hexp]
    _ = c * 10 ^ e.toNat * 10 ^ (-(e - k)).toNat := by rw [Nat.pow_add]; ring

/-- A decimal that reads as a magnitude other than zero has its first digit within the range. -/
theorem place_of_ofDecimal? {c : Nat} {e : Int} {m : Magnitude} (h : ofDecimal? c e = some m)
    (hm : m.units ≠ 0) : c ≠ 0 ∧ -330 ≤ e + digitCount c ∧ e + digitCount c ≤ 310 := by
  rw [ofDecimal?] at h
  split at h
  · cases h
    exact absurd rfl hm
  · rename_i hc
    dsimp only at h
    split at h
    · cases h
    · split at h
      · cases h
        exact absurd rfl hm
      · exact ⟨hc, by omega, by omega⟩

/-- Whole numbers of 64 bits are within the range of the format. -/
theorem ofDecimal?_isSome_of_lt {c : Nat} (h : c < 2 ^ 64) : (ofDecimal? c 0).isSome := by
  rcases Nat.eq_zero_or_pos c with rfl | hc
  · rfl
  have hcount : digitCount c ≤ 20 :=
    (Nat.length_toDigits_le_iff (by omega) (by omega)).2 (h.trans (by decide))
  have hmul (k : Nat) : c * Nat.pow 2 k < 2 ^ (64 + k) := by
    rw [Nat.pow_add]
    exact Nat.mul_lt_mul_of_pos_right h (Nat.pow_pos Nat.two_pos)
  have hle : 2 ^ (64 + 1074) ≤ 2 ^ 2097 := Nat.pow_le_pow_right Nat.two_pos (by omega)
  rw [ofDecimal?_eq_nearest? hc.ne' (by omega) (by omega), Int.neg_zero, Int.toNat_zero,
    Nat.pow_zero, Nat.mul_one]
  refine nearest?_isSome ?_
  rw [Nat.div_one]
  exact (hmul 1074).trans_le hle

end Magnitude

end IrDialects.Number
