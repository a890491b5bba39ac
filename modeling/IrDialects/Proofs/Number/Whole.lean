import IrDialects.Number.Whole
import Mathlib.Algebra.Ring.Int.Defs
import Mathlib.Algebra.Ring.Nat

/-!
# Texts of whole numbers read back

Every whole number of 64 bits is the number that its own text denotes, and a text never denotes a
number beyond 64 bits.
-/

namespace IrDialects.Number.Whole

/-- The range of signed numbers of 64 bits. -/
def InRange (n : Int) : Prop := -(2 ^ 63) ≤ n ∧ n < 2 ^ 63

instance (n : Int) : Decidable (InRange n) := inferInstanceAs (Decidable (_ ∧ _))

theorem le_ofDigitChars (cs : List Char) (n : Nat) : n ≤ Nat.ofDigitChars 10 cs n := by
  induction cs generalizing n with
  | nil => simp
  | cons c cs ih =>
    rw [Nat.ofDigitChars_cons]
    have h := ih (10 * n + (c.toNat - '0'.toNat))
    omega

theorem digitsUpTo_eq_ok {limit n : Nat} {cs : List Char} (hd : ∀ c ∈ cs, c.isDigit)
    (h : Nat.ofDigitChars 10 cs n ≤ limit) :
    digitsUpTo limit n cs = .ok (Nat.ofDigitChars 10 cs n) := by
  induction cs generalizing n with
  | nil => simp [digitsUpTo]
  | cons c cs ih =>
    rw [Nat.ofDigitChars_cons] at h ⊢
    have hc : c.isDigit := hd c (by simp)
    have hn := le_ofDigitChars cs (10 * n + (c.toNat - '0'.toNat))
    have hle : 10 * n + digitValue c ≤ limit := Nat.le_trans hn h
    rw [digitsUpTo, if_pos hc, if_pos hle]
    exact ih (fun d hd' => hd d (by simp [hd'])) h

theorem isDigit_toDigits {n : Nat} {c : Char} (h : c ∈ Nat.toDigits 10 n) : c.isDigit :=
  Nat.isDigit_of_mem_toDigits (by omega) (by omega) h

theorem unsigned_toDigits {bits n : Nat} (h : n ≤ 2 ^ bits - 1) :
    unsigned bits (Nat.toDigits 10 n) = .ok n := by
  cases hd : Nat.toDigits 10 n with
  | nil => exact absurd hd Nat.toDigits_ne_nil
  | cons c cs =>
    rw [unsigned, ← hd, digitsUpTo_eq_ok (fun _ => isDigit_toDigits)] <;>
      rw [Nat.ofDigitChars_ten_toDigits]
    exact h

/-- A character that is no sign is not taken for one. -/
theorem sign_of_ne {c : Char} {cs : List Char} (hm : c ≠ '-') (hp : c ≠ '+') :
    sign (c :: cs) = (false, c :: cs) := by
  rw [sign]
  · rintro _ ⟨⟩
    exact hm rfl
  · rintro _ ⟨⟩
    exact hp rfl

/-- The sign of digits is the one that stands before them. -/
theorem sign_signed (negative : Bool) {c : Char} {cs : List Char} (hc : c.isDigit) :
    sign (if negative then '-' :: c :: cs else c :: cs) = (negative, c :: cs) := by
  cases negative with
  | true => rfl
  | false => refine sign_of_ne ?_ ?_ <;> rintro rfl <;> exact absurd hc (by decide)

/-- A natural number is told by its text, which enough bits read back. -/
theorem eq_of_toString_eq {i j : Nat} (h : toString i = toString j) : i = j := by
  have hdigits : Nat.toDigits 10 i = Nat.toDigits 10 j := by
    rw [← Nat.toList_repr, ← Nat.toList_repr]
    exact congrArg String.toList h
  have hbits : i + j < 2 ^ (i + j) := Nat.lt_two_pow_self
  have hi : unsigned (i + j) (Nat.toDigits 10 i) = .ok i := unsigned_toDigits (by omega)
  have hj : unsigned (i + j) (Nat.toDigits 10 j) = .ok j := unsigned_toDigits (by omega)
  rw [hdigits, hj] at hi
  exact (Except.ok.inj hi).symm

theorem sign_toDigits (n : Nat) : sign (Nat.toDigits 10 n) = (false, Nat.toDigits 10 n) := by
  cases hd : Nat.toDigits 10 n with
  | nil => exact absurd hd Nat.toDigits_ne_nil
  | cons c cs =>
    exact sign_signed false (isDigit_toDigits (n := n) (by simp [hd]))

/-- The text of an integer: its digits, after a minus sign if it is negative. -/
theorem toList_toString (n : Int) :
    (toString n).toList =
      if n < 0 then '-' :: Nat.toDigits 10 n.natAbs else Nat.toDigits 10 n.natAbs := by
  cases n with
  | ofNat n =>
    have h : toString (Int.ofNat n) = n.repr := rfl
    rw [h, Nat.toList_repr, if_neg (by simp)]
    rfl
  | negSucc n =>
    have h : toString (Int.negSucc n) = "-" ++ (n + 1).repr := rfl
    rw [h, String.toList_append, Nat.toList_repr, if_pos (Int.negSucc_lt_zero n)]
    rfl

/-- A numeral of a number of 64 bits is read. -/
theorem signed_eq_ok {cs ds : List Char} {negative : Bool} {n : Nat} (hs : sign cs = (negative, ds))
    (hd : unsigned 64 ds = .ok n) (h : InRange (if negative then -(n : Int) else n)) :
    signed 64 cs = .ok (if negative then -(n : Int) else n) := by
  obtain ⟨hl, hu⟩ := h
  cases negative with
  | true =>
    have hle : n ≤ Nat.pow 2 (64 - 1) := by
      simp only [Nat.pow_eq]
      simp only [if_true] at hl
      omega
    simp only [signed, hs, hd, bind, Except.bind, if_true, if_pos hle]
    rfl
  | false =>
    have hlt : n < Nat.pow 2 (64 - 1) := by
      simp only [Nat.pow_eq]
      simp only [Bool.false_eq_true, if_false] at hu
      omega
    simp only [signed, hs, hd, bind, Except.bind, Bool.false_eq_true, if_false, if_pos hlt]
    rfl

theorem parse_toString {n : Int} (h : InRange n) : parse (toString n) = .ok n := by
  have hd : unsigned 64 (Nat.toDigits 10 n.natAbs) = .ok n.natAbs := by
    obtain ⟨hl, hu⟩ := h
    exact unsigned_toDigits (by omega)
  rw [parse, toList_toString]
  split
  · have hneg : (if true then -(n.natAbs : Int) else n.natAbs) = n := by
      rw [if_pos rfl]
      omega
    have hs : sign ('-' :: Nat.toDigits 10 n.natAbs) = (true, Nat.toDigits 10 n.natAbs) := rfl
    have hread := signed_eq_ok hs hd (hneg.symm ▸ h)
    rwa [hneg] at hread
  · have hpos : (if false then -(n.natAbs : Int) else n.natAbs) = n := by
      rw [if_neg (by decide)]
      omega
    have hread := signed_eq_ok (sign_toDigits n.natAbs) hd (hpos.symm ▸ h)
    rwa [hpos] at hread

theorem signed_inRange {cs : List Char} {n : Int} (h : signed 64 cs = .ok n) : InRange n := by
  simp only [signed, bind, Except.bind, pure, Except.pure, throw, throwThe, MonadExceptOf.throw,
    Nat.pow_eq] at h
  split at h
  · cases h
  · split at h <;> split at h <;> simp only [Except.ok.injEq, reduceCtorEq] at h <;>
      constructor <;> omega

/-- Only digits are read. -/
theorem of_digitsUpTo {limit n v : Nat} {cs : List Char} (h : digitsUpTo limit n cs = .ok v) :
    (∀ c ∈ cs, c.isDigit) ∧ v = Nat.ofDigitChars 10 cs n := by
  induction cs generalizing n with
  | nil =>
    cases h
    simp
  | cons c cs ih =>
    rw [digitsUpTo] at h
    split_ifs at h with hc
    obtain ⟨hcs, hv⟩ := ih h
    refine ⟨fun d hd => ?_, hv.trans Nat.ofDigitChars_cons.symm⟩
    rcases List.mem_cons.1 hd with rfl | hd
    · exact hc
    · exact hcs d hd

/-- What is read is the number that the digits after the sign spell. -/
theorem of_signed {cs ds : List Char} {negative : Bool} {i : Int} (hs : sign cs = (negative, ds))
    (h : signed 64 cs = .ok i) :
    (∀ c ∈ ds, c.isDigit) ∧
      i = if negative then -(Nat.ofDigitChars 10 ds 0 : Int) else Nat.ofDigitChars 10 ds 0 := by
  simp only [signed, hs] at h
  cases hd : unsigned 64 ds with
  | error f =>
    rw [hd] at h
    cases h
  | ok n =>
    rw [hd] at h
    obtain ⟨hdigits, hn⟩ : (∀ c ∈ ds, c.isDigit) ∧ n = Nat.ofDigitChars 10 ds 0 := by
      cases ds with
      | nil => cases hd
      | cons c cs => exact of_digitsUpTo hd
    refine ⟨hdigits, ?_⟩
    rw [← hn]
    simp only [bind, Except.bind, pure, Except.pure, throw, throwThe, MonadExceptOf.throw] at h
    split_ifs at h with hneg
    · cases h
      rw [if_pos hneg]
    · cases h
      rw [if_neg hneg]

end IrDialects.Number.Whole
