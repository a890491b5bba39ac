import IrDialects.Proofs.Number.Binary64
import IrDialects.Proofs.Number.Spelling

/-!
# Decimal literals

A literal is given by its parts: a sign, digits, more digits after a point, and an exponent, whose
letter may be a capital and whose sign may be left out. Reading a literal as a floating-point number
gives the magnitude nearest to the decimal that it denotes, and reading it as a whole number gives what
its digits spell if it has neither a point nor an exponent.
-/

namespace IrDialects.Number

/-- The parts of an exponent. -/
structure Exponent where
  letter : Char
  /-- A plus, a minus or nothing. -/
  sign : List Char := []
  digits : List Char

namespace Exponent

/-- The characters of an exponent. -/
def chars (e : Exponent) : List Char := e.letter :: (e.sign ++ e.digits)

/-- An exponent without its sign. -/
def size (e : Exponent) : Nat := Nat.ofDigitChars 10 e.digits 0

/-- The whole number that an exponent denotes. -/
def value (e : Exponent) : Int := if e.sign = ['-'] then -(e.size : Int) else e.size

/-- Whether the parts are what they are called. -/
structure Regular (e : Exponent) : Prop where
  letter : e.letter = 'e' ∨ e.letter = 'E'
  sign : e.sign ∈ [[], ['+'], ['-']]
  digits_ne : e.digits ≠ []
  isDigit : ∀ c ∈ e.digits, c.isDigit

/-- An exponent is read as the number that it denotes, unless that is very large: then at least it is
read as a large one. -/
theorem exists_isExponent {e : Exponent} (h : e.Regular) :
    ∃ n : Nat, Numeral.IsExponent e.chars (if e.sign = ['-'] then -(n : Int) else n) ∧
      (n = e.size ∨ 10000 ≤ n ∧ 100000 ≤ e.size) := by
  obtain ⟨n, hn, hvalue⟩ := Numeral.exists_exponent? h.sign h.digits_ne h.isDigit
  refine ⟨n, .some h.letter (fun c hc => ?_) hn, hvalue⟩
  rcases List.mem_append.1 hc with hc | hc
  · have hsign := h.sign
    simp only [List.mem_cons, List.not_mem_nil, or_false] at hsign
    rcases hsign with hs | hs | hs <;> rw [hs] at hc <;> simp_all
  · exact .inl (h.isDigit c hc)

end Exponent

/-- The parts of a literal. -/
structure DecimalLiteral where
  negative : Bool := false
  whole : List Char
  /-- The digits after the point; without any there is no point. -/
  fraction : List Char := []
  exponent : Option Exponent := none

namespace DecimalLiteral

variable {l : DecimalLiteral} {s : String}

/-- The characters of the exponent, if there is one. -/
def exponentChars (l : DecimalLiteral) : List Char := (l.exponent.map Exponent.chars).getD []

/-- The power of ten that is written. -/
def exponentValue (l : DecimalLiteral) : Int := (l.exponent.map Exponent.value).getD 0

/-- The characters of a literal without its sign. -/
def unsigned (l : DecimalLiteral) : List Char :=
  l.whole ++ (Spelling.fractionChars l.fraction ++ l.exponentChars)

/-- The whole number that all digits before the exponent spell. -/
def coefficient (l : DecimalLiteral) : Nat := Nat.ofDigitChars 10 (l.whole ++ l.fraction) 0

/-- The power of ten by which the coefficient is multiplied. -/
def scale (l : DecimalLiteral) : Int := l.exponentValue - l.fraction.length

/-- Whether the parts are what they are called. -/
structure Regular (l : DecimalLiteral) : Prop where
  whole_ne : l.whole ≠ []
  whole_digits : ∀ c ∈ l.whole, c.isDigit
  fraction_digits : ∀ c ∈ l.fraction, c.isDigit
  exponent : ∀ e ∈ l.exponent, e.Regular

/-- A text is the literal with the given parts. -/
structure Spells (l : DecimalLiteral) (s : String) : Prop where
  regular : l.Regular
  toList_eq : s.toList = if l.negative then '-' :: l.unsigned else l.unsigned

/-- A literal with neither a point nor an exponent. -/
def IsPlain (l : DecimalLiteral) : Prop := l.fraction = [] ∧ l.exponent = none

/-- The exponent is read in full, or there are too few digits to make up for what is not read. -/
def Moderate (l : DecimalLiteral) : Prop :=
  (∀ e ∈ l.exponent, e.size < 100000) ∨ (l.whole ++ l.fraction).length ≤ 9000

theorem unsigned_eq_cons (h : l.Regular) : ∃ c cs, c.isDigit ∧ l.unsigned = c :: cs := by
  cases hw : l.whole with
  | nil => exact absurd hw h.whole_ne
  | cons c cs => exact ⟨c, _, h.whole_digits c (by simp [hw]), by rw [unsigned, hw]; rfl⟩

theorem sign_of_spells (h : l.Spells s) : Whole.sign s.toList = (l.negative, l.unsigned) := by
  obtain ⟨c, cs, hc, hcs⟩ := unsigned_eq_cons h.regular
  rw [h.toList_eq, hcs]
  exact Whole.sign_signed l.negative hc

/-- What the exponent of a literal is read as. -/
theorem exists_isExponent (h : l.Regular) :
    ∃ e : Int, Numeral.IsExponent l.exponentChars e ∧
      (e = l.exponentValue ∨ 10000 ≤ e ∧ 100000 ≤ l.exponentValue ∨
        e ≤ -10000 ∧ l.exponentValue ≤ -100000) := by
  rw [exponentChars, exponentValue]
  cases he : l.exponent with
  | none => exact ⟨0, .none, .inl rfl⟩
  | some e =>
    obtain ⟨n, hn, hvalue⟩ := e.exists_isExponent (h.exponent e he)
    refine ⟨_, hn, ?_⟩
    simp only [Option.map_some, Option.getD_some, Exponent.value]
    split <;> omega

/-- A literal has number characters only. -/
theorem mem_unsigned (h : l.Regular) {c : Char} (hc : c ∈ l.unsigned) :
    c.isDigit ∨ c ∈ ['.', 'e', 'E', '+', '-'] := by
  obtain ⟨e, he, -⟩ := exists_isExponent h
  exact Numeral.mem_parts h.whole_digits h.fraction_digits he hc

theorem ofDigitChars_lt {ds : List Char} (hd : ∀ c ∈ ds, c.isDigit) (n : Nat) :
    Nat.ofDigitChars 10 ds n < (n + 1) * 10 ^ ds.length := by
  induction ds generalizing n with
  | nil => simp
  | cons c ds ih =>
    have hc : c.toNat - '0'.toNat < 10 := by
      have hdigit : c.isDigit := hd c (by simp)
      simp only [Char.isDigit, Bool.and_eq_true, decide_eq_true_eq] at hdigit
      have hle : c.toNat ≤ '9'.toNat := hdigit.2
      have h9 : '9'.toNat = 57 := rfl
      have h0 : '0'.toNat = 48 := rfl
      omega
    rw [Nat.ofDigitChars_cons, List.length_cons, Nat.pow_succ, Nat.mul_comm _ 10, ← Nat.mul_assoc]
    refine (ih (fun d h => hd d (by simp [h])) _).trans_le (Nat.mul_le_mul_right _ ?_)
    omega

theorem digitCount_coefficient_le (h : l.Regular) :
    Magnitude.digitCount l.coefficient ≤ (l.whole ++ l.fraction).length := by
  have hdigits : ∀ c ∈ l.whole ++ l.fraction, c.isDigit := fun c hc =>
    (List.mem_append.1 hc).elim (h.whole_digits c) (h.fraction_digits c)
  have hlt := ofDigitChars_lt hdigits 0
  rw [Nat.zero_add, Nat.one_mul] at hlt
  have hpos : 0 < (l.whole ++ l.fraction).length :=
    List.length_pos_iff.2 fun h0 => h.whole_ne (List.append_eq_nil_iff.1 h0).1
  exact (Nat.length_toDigits_le_iff (by omega) hpos).2 hlt

/-- Reading less of the exponent than there is makes no difference for a moderate literal: either way
the decimal is out of range. -/
theorem ofDecimal?_eq_of_moderate (h : l.Regular) (hm : l.Moderate) {e : Int}
    (he : e = l.exponentValue ∨ 10000 ≤ e ∧ 100000 ≤ l.exponentValue ∨
      e ≤ -10000 ∧ l.exponentValue ≤ -100000) :
    Magnitude.ofDecimal? l.coefficient (e - l.fraction.length) =
      Magnitude.ofDecimal? l.coefficient l.scale := by
  rcases he with rfl | he
  · rfl
  -- An exponent of this size is not small, so the digits are few and cannot make up for it.
  have hlength : (l.whole ++ l.fraction).length ≤ 9000 := by
    refine hm.resolve_left fun hsmall => ?_
    rw [exponentValue] at he
    cases hexp : l.exponent with
    | none =>
      rw [hexp] at he
      simp at he
    | some x =>
      have hx := hsmall x hexp
      rw [hexp] at he
      simp only [Option.map_some, Option.getD_some, Exponent.value] at he
      split at he <;> omega
  rcases eq_or_ne l.coefficient 0 with h0 | h0
  · simp only [Magnitude.ofDecimal?, if_pos h0]
  · have hcount := digitCount_coefficient_le h
    rw [List.length_append] at hcount hlength
    rw [scale, Magnitude.ofDecimal?, Magnitude.ofDecimal?, if_neg h0, if_neg h0]
    rcases he with ⟨hread, hwritten⟩ | ⟨hread, hwritten⟩
    · simp only [if_pos (show 310 < e - l.fraction.length + Magnitude.digitCount l.coefficient by omega),
        if_pos (show 310 < l.exponentValue - l.fraction.length +
          (Magnitude.digitCount l.coefficient : Int) by omega)]
    · simp only [if_neg (show ¬ 310 < e - l.fraction.length +
          (Magnitude.digitCount l.coefficient : Int) by omega),
        if_pos (show e - l.fraction.length + (Magnitude.digitCount l.coefficient : Int) < -330 by omega),
        if_neg (show ¬ 310 < l.exponentValue - l.fraction.length +
          (Magnitude.digitCount l.coefficient : Int) by omega),
        if_pos (show l.exponentValue - l.fraction.length +
          (Magnitude.digitCount l.coefficient : Int) < -330 by omega)]

/-- A literal is read as the magnitude nearest to the decimal that it denotes. -/
theorem read_of_spells (h : l.Spells s) (hm : l.Moderate) :
    Numeral.read s = (Magnitude.ofDecimal? l.coefficient l.scale).elim (.overflow l.negative)
      fun m => .value (.finite l.negative m) := by
  obtain ⟨e, he, hvalue⟩ := exists_isExponent h.regular
  have hread := Numeral.read_parts h.regular.whole_ne h.regular.whole_digits h.regular.fraction_digits
    he l.negative (show l.unsigned = _ from rfl)
  rw [← h.toList_eq, String.ofList_toList] at hread
  rw [hread, Numeral.evaluate, ← ofDecimal?_eq_of_moderate h.regular hm hvalue]
  dsimp only
  rw [coefficient]
  cases Magnitude.ofDecimal? _ _ <;> rfl

theorem unsigned_of_isPlain (h : l.IsPlain) : l.unsigned = l.whole := by
  rw [unsigned, exponentChars, h.1, h.2]
  simp [Spelling.fractionChars]

/-- A literal that is all digits is plain. -/
theorem isPlain_of_unsigned (h : l.Regular) (hd : ∀ c ∈ l.unsigned, c.isDigit) : l.IsPlain := by
  constructor
  · by_contra hne
    refine absurd (hd '.' ?_) (by decide)
    rw [unsigned, Spelling.fractionChars_of_ne hne]
    simp
  · cases he : l.exponent with
    | none => rfl
    | some e =>
      have hletter : e.letter.isDigit := hd e.letter (by simp [unsigned, exponentChars, he, Exponent.chars])
      rcases (h.exponent e he).letter with hl | hl <;> rw [hl] at hletter <;>
        exact absurd hletter (by decide)

/-- Only a plain literal is read as a whole number: the one that its digits spell. -/
theorem of_parse (h : l.Spells s) {i : Int} (hi : Whole.parse s = .ok i) :
    l.IsPlain ∧ i = if l.negative then -(l.coefficient : Int) else l.coefficient := by
  obtain ⟨hd, hvalue⟩ := Whole.of_signed (sign_of_spells h) hi
  have hplain := isPlain_of_unsigned h.regular hd
  refine ⟨hplain, ?_⟩
  rwa [coefficient, hplain.1, List.append_nil, ← unsigned_of_isPlain hplain]

/-- A plain literal within the range of whole numbers is read as one. -/
theorem parse_of_isPlain (h : l.Spells s) (hplain : l.IsPlain)
    (hr : Whole.InRange (if l.negative then -(l.coefficient : Int) else l.coefficient)) :
    Whole.parse s = .ok (if l.negative then -(l.coefficient : Int) else l.coefficient) := by
  refine Whole.signed_eq_ok (sign_of_spells h) ?_ hr
  have hcoefficient : l.coefficient = Nat.ofDigitChars 10 l.unsigned 0 := by
    rw [coefficient, hplain.1, List.append_nil, unsigned_of_isPlain hplain]
  have hle : l.coefficient ≤ 2 ^ 64 - 1 := by
    obtain ⟨hl, hu⟩ := hr
    split_ifs at hl hu <;> omega
  obtain ⟨c, cs, -, hcs⟩ := unsigned_eq_cons h.regular
  rw [hcoefficient] at hle ⊢
  rw [unsigned_of_isPlain hplain] at hcs hle ⊢
  rw [hcs] at hle ⊢
  exact Whole.digitsUpTo_eq_ok (hcs ▸ h.regular.whole_digits) hle

end DecimalLiteral

end IrDialects.Number
