import IrDialects.Number.Numeral
import IrDialects.Proofs.Number.Whole
import Mathlib.Data.List.Basic

/-!
# Spelt-out decimals

A decimal numeral given by its parts: the digits before the point, the digits after it, and an
exponent. Reading its characters gives the magnitude nearest to the decimal.
-/

namespace IrDialects.Number

/-- The parts of a decimal numeral without its sign. -/
structure Spelling where
  whole : List Char
  fraction : List Char := []
  /-- Whether the exponent is negative, and its digits. -/
  exponent : Option (Bool × List Char) := none

namespace Spelling

/-- The point and the digits after it, if there are any. -/
def fractionChars : List Char → List Char
  | [] => []
  | d :: ds => '.' :: d :: ds

/-- The exponent with its letter and its sign, if there is one. -/
def exponentChars : Option (Bool × List Char) → List Char
  | none => []
  | some (negative, ds) => 'e' :: (if negative then '-' else '+') :: ds

/-- The characters of a numeral. -/
def chars (s : Spelling) : List Char :=
  s.whole ++ (fractionChars s.fraction ++ exponentChars s.exponent)

/-- The whole number that all digits before the exponent spell. -/
def coefficient (s : Spelling) : Nat := Nat.ofDigitChars 10 (s.whole ++ s.fraction) 0

/-- The value of the exponent. -/
def exponentValue (s : Spelling) : Int :=
  match s.exponent with
  | none => 0
  | some (negative, ds) =>
    if negative then -(Nat.ofDigitChars 10 ds 0 : Int) else Nat.ofDigitChars 10 ds 0

/-- The power of ten by which the coefficient is multiplied. -/
def scale (s : Spelling) : Int := s.exponentValue - s.fraction.length

/-- Whether the parts are digits, no part is empty that must not be, no zero stands at the start
without need, and the exponent is one that is read in full. -/
structure Regular (s : Spelling) : Prop where
  whole_ne : s.whole ≠ []
  whole_digits : ∀ c ∈ s.whole, c.isDigit
  no_leading_zero : s.whole.head? = some '0' → s.whole = ['0']
  fraction_digits : ∀ c ∈ s.fraction, c.isDigit
  exponent_ne : ∀ e ∈ s.exponent, e.2 ≠ []
  exponent_digits : ∀ e ∈ s.exponent, ∀ c ∈ e.2, c.isDigit
  exponent_small : ∀ e ∈ s.exponent, Nat.ofDigitChars 10 e.2 0 < 10000

end Spelling

namespace Numeral

theorem digit?_ten {c : Char} (hc : c.isDigit) : Radix.ten.digit? c = some (c.toNat - '0'.toNat) := by
  rw [Radix.digit?, if_pos hc]

theorem ne_of_isDigit {c d : Char} (hc : c.isDigit) (hd : d.isDigit = false) : c ≠ d := by
  rintro rfl
  rw [hc] at hd
  cases hd

theorem toLower_of_isDigit {c : Char} (hc : c.isDigit) : c.toLower = c := by
  delta Char.toLower
  rw [dif_neg]
  simp only [Char.isDigit, Bool.and_eq_true, decide_eq_true_eq] at hc
  exact fun h => absurd (UInt32.le_trans h.1 hc.2) (by decide)

/-- A run of digits is pushed onto the fraction digit by digit. -/
theorem fraction_digits {ds : List Char} (hd : ∀ c ∈ ds, c.isDigit) (f : Fraction)
    (rest : List Char) :
    fraction .ten f (ds ++ rest) = fraction .ten
      { coefficient := Nat.ofDigitChars 10 ds f.coefficient
        places := if f.pointSeen then f.places + ds.length else f.places
        pointSeen := f.pointSeen
        digitSeen := f.digitSeen || !ds.isEmpty } rest := by
  induction ds generalizing f with
  | nil => simp
  | cons c ds ih =>
    have hc : c.isDigit := hd c (by simp)
    rw [List.cons_append, fraction, if_neg (ne_of_isDigit hc (by decide)),
      if_neg (ne_of_isDigit hc (by decide)), digit?_ten hc]
    refine (ih (fun d h => hd d (by simp [h])) _).trans ?_
    congr 1
    simp only [Fraction.push, Nat.ofDigitChars_cons, Radix.base, Nat.mul_comm, List.length_cons,
      List.isEmpty_cons, Fraction.mk.injEq, Bool.not_false, Bool.or_true, Bool.true_or, true_and,
      and_true]
    split <;> omega

/-- The digits of an exponent are read in full unless there are too many of them. -/
theorem exists_exponentDigits {ds : List Char} (hd : ∀ c ∈ ds, c.isDigit) (n : Nat) :
    ∃ e, exponentDigits n ds = (e, []) ∧
      (e = Nat.ofDigitChars 10 ds n ∨ 10000 ≤ e ∧ 100000 ≤ Nat.ofDigitChars 10 ds n) := by
  induction ds generalizing n with
  | nil => exact ⟨n, by simp [exponentDigits], .inl (by simp)⟩
  | cons c ds ih =>
    have hc : c.isDigit := hd c (by simp)
    have hds : ∀ d ∈ ds, d.isDigit := fun d h => hd d (by simp [h])
    rw [exponentDigits, if_neg (ne_of_isDigit hc (by decide)), if_pos hc, Nat.ofDigitChars_cons]
    by_cases hn : n < 10000
    · rw [if_pos hn]
      exact ih hds _
    · -- From here on every digit is passed over.
      rw [if_neg hn]
      obtain ⟨e, he, hvalue⟩ := ih hds n
      have hle := Whole.le_ofDigitChars ds n
      have hle' := Whole.le_ofDigitChars ds (10 * n + (c.toNat - '0'.toNat))
      exact ⟨e, he, .inr (by omega)⟩

/-- What an exponent is read as, after its letter: a whole number with the sign that is written. -/
theorem exists_exponent? {sign ds : List Char} (hsign : sign ∈ [[], ['+'], ['-']]) (hne : ds ≠ [])
    (hd : ∀ c ∈ ds, c.isDigit) :
    ∃ e : Nat, exponent? (sign ++ ds) = some (if sign = ['-'] then -(e : Int) else e, []) ∧
      (e = Nat.ofDigitChars 10 ds 0 ∨ 10000 ≤ e ∧ 100000 ≤ Nat.ofDigitChars 10 ds 0) := by
  obtain ⟨e, he, hvalue⟩ := exists_exponentDigits hd 0
  refine ⟨e, ?_, hvalue⟩
  cases ds with
  | nil => exact absurd rfl hne
  | cons c ds =>
    have hc : c.isDigit := hd c (by simp)
    have hs : Whole.sign (sign ++ c :: ds) = (decide (sign = ['-']), c :: ds) := by
      simp only [List.mem_cons, List.not_mem_nil, or_false] at hsign
      rcases hsign with rfl | rfl | rfl
      · exact Whole.sign_signed false hc
      · rfl
      · rfl
    simp only [exponent?, hs, if_pos hc, he, decide_eq_true_eq]

/-- A text without the mark of base sixteen is read in base ten. -/
theorem radix_eq_ten {cs : List Char} (h : ∀ c ∈ cs, c.toLower ≠ 'x') : radix cs = (.ten, cs) := by
  rw [radix.eq_def]
  split
  · rename_i x c cs
    rw [if_neg (h x (by simp))]
  · rfl

/-- What may follow the digits of a decimal numeral, and the exponent that it is read as. -/
inductive IsExponent : List Char → Int → Prop where
  | none : IsExponent [] 0
  | some {c : Char} {cs : List Char} {e : Int} (letter : c = 'e' ∨ c = 'E')
      (chars : ∀ d ∈ cs, d.isDigit ∨ d = '+' ∨ d = '-') (value : exponent? cs = some (e, [])) :
      IsExponent (c :: cs) e

section Parts

variable {w f tail : List Char} {e : Int}

/-- The digits of a numeral are read up to its exponent. -/
theorem fraction_parts (hne : w ≠ []) (hw : ∀ c ∈ w, c.isDigit) (hf : ∀ c ∈ f, c.isDigit)
    (ht : IsExponent tail e) :
    fraction .ten {} (w ++ (Spelling.fractionChars f ++ tail)) =
      (⟨Nat.ofDigitChars 10 (w ++ f) 0, f.length, !f.isEmpty, true⟩, tail) := by
  have hstop (g : Fraction) : fraction .ten g tail = (g, tail) := by
    cases ht with
    | none => rfl
    | some letter => rcases letter with rfl | rfl <;> rfl
  have hw' : w.isEmpty = false := by simpa using hne
  rw [fraction_digits hw]
  cases f with
  | nil =>
    rw [Spelling.fractionChars, List.nil_append, hstop]
    simp [hw']
  | cons d ds =>
    have hpoint (g : Fraction) (hg : g.pointSeen = false) (rest : List Char) :
        fraction .ten g ('.' :: rest) = fraction .ten { g with pointSeen := true } rest := by
      rw [fraction, if_neg (by decide), if_pos rfl, hg]
      rfl
    rw [Spelling.fractionChars, List.cons_append, hpoint _ rfl, fraction_digits hf, hstop]
    simp [hw', Nat.ofDigitChars_append]

theorem mem_parts (hw : ∀ c ∈ w, c.isDigit) (hf : ∀ c ∈ f, c.isDigit) (ht : IsExponent tail e)
    {c : Char} (hc : c ∈ w ++ (Spelling.fractionChars f ++ tail)) :
    c.isDigit ∨ c ∈ ['.', 'e', 'E', '+', '-'] := by
  simp only [List.mem_append] at hc
  rcases hc with hc | hc | hc
  · exact .inl (hw c hc)
  · cases f with
    | nil => cases hc
    | cons d ds =>
      rcases List.mem_cons.1 hc with rfl | hc
      · exact .inr (by simp)
      · exact .inl (hf c hc)
  · cases ht with
    | none => cases hc
    | some letter chars =>
      rcases List.mem_cons.1 hc with rfl | hc
      · rcases letter with rfl | rfl <;> simp
      · rcases chars c hc with h | rfl | rfl
        · exact .inl h
        · simp
        · simp

/-- A numeral is read as the decimal that its parts make. -/
theorem unsigned_parts (hne : w ≠ []) (hw : ∀ c ∈ w, c.isDigit) (hf : ∀ c ∈ f, c.isDigit)
    (ht : IsExponent tail e) (negative : Bool) :
    unsigned negative (w ++ (Spelling.fractionChars f ++ tail)) =
      evaluate .ten negative ⟨Nat.ofDigitChars 10 (w ++ f) 0, f.length, !f.isEmpty, true⟩ e := by
  have hmem {c : Char} := mem_parts (c := c) hw hf ht
  -- No letter but the mark of the exponent occurs, so the radix is ten.
  have hx : ∀ c ∈ w ++ (Spelling.fractionChars f ++ tail), c.toLower ≠ 'x' := by
    intro c hc
    rcases hmem hc with hd | hp
    · rw [toLower_of_isDigit hd]
      exact ne_of_isDigit hd (by decide)
    · simp only [List.mem_cons, List.not_mem_nil, or_false] at hp
      rcases hp with rfl | rfl | rfl | rfl | rfl <;> decide
  have hu : (w ++ (Spelling.fractionChars f ++ tail)).contains '_' = false := by
    rw [← Bool.not_eq_true, List.contains_iff_mem]
    intro hc
    rcases hmem hc with hd | hp
    · exact absurd hd (by decide)
    · exact absurd hp (by decide)
  simp only [unsigned, radix_eq_ten hx, fraction_parts hne hw hf ht, hu]
  cases ht with
  | none => simp
  | some letter chars value =>
    have hlower : ∀ c : Char, c = 'e' ∨ c = 'E' → c.toLower = 'e' := by
      rintro c (rfl | rfl) <;> decide
    simp [hlower _ letter, value, Radix.exponentLetter]

/-- The same for a numeral with its sign. -/
theorem read_parts (hne : w ≠ []) (hw : ∀ c ∈ w, c.isDigit) (hf : ∀ c ∈ f, c.isDigit)
    (ht : IsExponent tail e) (negative : Bool) {cs : List Char}
    (hcs : cs = w ++ (Spelling.fractionChars f ++ tail)) :
    read (String.ofList (if negative then '-' :: cs else cs)) =
      evaluate .ten negative ⟨Nat.ofDigitChars 10 (w ++ f) 0, f.length, !f.isEmpty, true⟩ e := by
  obtain ⟨c, rest, hc, hhead⟩ : ∃ c rest, c.isDigit ∧ cs = c :: rest := by
    cases w with
    | nil => exact absurd rfl hne
    | cons c w => exact ⟨c, _, hw c (by simp), hcs⟩
  have hsign : Whole.sign (if negative then '-' :: cs else cs) = (negative, cs) := by
    rw [hhead]
    exact Whole.sign_signed negative hc
  have hword (word : List Char) (hword : word.head?.all (·.isDigit = false)) :
      String.ofList (cs.map Char.toLower) ≠ String.ofList word := by
    intro he
    have hl := congrArg String.toList he
    rw [String.toList_ofList, String.toList_ofList, hhead, List.map_cons, toLower_of_isDigit hc] at hl
    simp [← hl, hc] at hword
  have hnan : (if negative then '-' :: cs else cs).map Char.toLower ≠ ['n', 'a', 'n'] := by
    cases negative with
    | true => exact fun h => absurd (List.cons.inj h).1 (by decide)
    | false =>
      rw [if_neg (by decide), hhead, List.map_cons, toLower_of_isDigit hc]
      exact fun h => ne_of_isDigit hc (by decide) (List.cons.inj h).1
  have hinf := hword ['i', 'n', 'f'] (by decide)
  have hinfinity := hword ['i', 'n', 'f', 'i', 'n', 'i', 't', 'y'] (by decide)
  simp only [read, String.toList_ofList, hsign]
  rw [if_neg, if_neg hnan, hcs, unsigned_parts hne hw hf ht]
  simpa using ⟨hinf, hinfinity⟩

end Parts

end Numeral

namespace Spelling

variable {s : Spelling}

/-- A numeral without an exponent. -/
theorem regular_plain {w f : List Char} (hne : w ≠ []) (hw : ∀ c ∈ w, c.isDigit)
    (hz : w.head? = some '0' → w = ['0']) (hf : ∀ c ∈ f, c.isDigit) :
    (⟨w, f, none⟩ : Spelling).Regular :=
  ⟨hne, hw, hz, hf, by simp, by simp, by simp⟩

theorem fractionChars_of_ne {ds : List Char} (h : ds ≠ []) : fractionChars ds = '.' :: ds := by
  cases ds with
  | nil => exact absurd rfl h
  | cons d ds => rfl

/-- The exponent of a numeral is read in full. -/
theorem isExponent (h : s.Regular) :
    Numeral.IsExponent (exponentChars s.exponent) s.exponentValue := by
  rw [exponentValue]
  cases he : s.exponent with
  | none => exact .none
  | some e =>
    obtain ⟨negative, ds⟩ := e
    have hne : ds ≠ [] := h.exponent_ne _ he
    have hdigits : ∀ c ∈ ds, c.isDigit := h.exponent_digits _ he
    have hsign : [if negative then '-' else '+'] ∈ [[], ['+'], ['-']] := by cases negative <;> simp
    obtain ⟨n, hn, hvalue⟩ := Numeral.exists_exponent? hsign hne hdigits
    have hsmall : Nat.ofDigitChars 10 ds 0 < 10000 := h.exponent_small _ he
    obtain rfl : n = Nat.ofDigitChars 10 ds 0 := by omega
    refine .some (.inl rfl) (fun d hd => ?_) (hn.trans ?_)
    · rcases List.mem_cons.1 hd with rfl | hd
      · cases negative <;> simp
      · exact .inl (hdigits d hd)
    · cases negative <;> rfl

/-- The characters of a numeral with its sign. -/
def signed (negative : Bool) (s : Spelling) : List Char :=
  if negative then '-' :: s.chars else s.chars

theorem chars_eq_cons (h : s.Regular) : ∃ c cs, c.isDigit ∧ s.chars = c :: cs := by
  cases hw : s.whole with
  | nil => exact absurd hw h.whole_ne
  | cons c cs => exact ⟨c, _, h.whole_digits c (by simp [hw]), by rw [chars, hw]; rfl⟩

/-- A numeral denotes the number whose magnitude is nearest to the decimal it spells. -/
theorem read_signed_eq_value (h : s.Regular) (negative : Bool) {m : Magnitude}
    (hm : Magnitude.ofDecimal? s.coefficient s.scale = some m) :
    Numeral.read (String.ofList (s.signed negative)) = .value (.finite negative m) := by
  have hread := Numeral.read_parts h.whole_ne h.whole_digits h.fraction_digits (isExponent h) negative
    (show s.chars = _ from rfl)
  rw [signed, hread, Numeral.evaluate]
  rw [coefficient, scale] at hm
  simp only [hm]

end Spelling

end IrDialects.Number
