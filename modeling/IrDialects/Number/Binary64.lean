/-!
# Binary floating-point numbers

The 64-bit format as mathematics: a finite magnitude is a whole number of units of `2 ^ (-1074)`, the
least positive number of the format, whose binary expansion has at most 53 significant places.
Rounding a quotient of natural numbers goes to the nearest such magnitude, a tie to the one with the
even last place.
-/

namespace IrDialects.Number

/-- Whether a number of least units is a magnitude of the format: it is less than `2 ^ 2098`, and what
is beyond its 53 leading binary places is zero. -/
def Representable (units : Nat) : Prop :=
  units.log2 < 2098 ∧ Nat.pow 2 (units.log2 - 52) ∣ units

instance (units : Nat) : Decidable (Representable units) :=
  inferInstanceAs (Decidable (_ ∧ _))

/-- A finite magnitude, counted in units of `2 ^ (-1074)`. -/
structure Magnitude where
  units : Nat
  representable : Representable units
deriving DecidableEq, Repr

/-- A number of the 64-bit binary format; `negative` tells the two zeros apart too. -/
inductive Binary64 where
  | nan
  | infinite (negative : Bool)
  | finite (negative : Bool) (magnitude : Magnitude)
deriving DecidableEq, Repr

namespace Magnitude

def zero : Magnitude := ⟨0, by decide, Nat.dvd_zero _⟩

/-- The quotient `p / q` rounded to the nearest whole number, a tie to the even one. -/
def roundDiv (p q : Nat) : Nat :=
  let m := p / q
  let r := p % q
  if 2 * r > q || (2 * r == q && m % 2 == 1) then m + 1 else m

/-- How many binary places of `p / q`, counted in least units, are beyond the precision. -/
def excess (p q : Nat) : Nat := (p * Nat.pow 2 1074 / q).log2 - 52

/-- The magnitude nearest to `p / q`, if it is within the range of the format. -/
def nearest? (p q : Nat) : Option Magnitude :=
  let s := excess p q
  let u := roundDiv (p * Nat.pow 2 1074) (q * Nat.pow 2 s) * Nat.pow 2 s
  if h : Representable u then some ⟨u, h⟩ else none

/-- How many decimal digits a number has; zero has one. -/
def digitCount (n : Nat) : Nat := (Nat.toDigits 10 n).length

/-- The magnitude nearest to `coefficient * 10 ^ exponent`, if it is within the range of the format.
Exponents far outside the range are settled without computing the power. -/
def ofDecimal? (coefficient : Nat) (exponent : Int) : Option Magnitude :=
  if coefficient = 0 then some zero
  else
    -- The power of ten just above the decimal.
    let place := exponent + digitCount coefficient
    if 310 < place then none
    else if place < -330 then some zero
    else if 0 ≤ exponent then nearest? (coefficient * Nat.pow 10 exponent.toNat) 1
    else nearest? coefficient (Nat.pow 10 (-exponent).toNat)

/-- The magnitude nearest to `coefficient * 2 ^ exponent`, if it is within the range of the format. -/
def ofBinary? (coefficient : Nat) (exponent : Int) : Option Magnitude :=
  if 0 ≤ exponent then nearest? (coefficient * Nat.pow 2 exponent.toNat) 1
  else nearest? coefficient (Nat.pow 2 (-exponent).toNat)

end Magnitude

namespace Binary64

/-- The number with a given sign that is nearest to a decimal, an infinity beyond the range. -/
def ofDecimal (negative : Bool) (coefficient : Nat) (exponent : Int) : Binary64 :=
  match Magnitude.ofDecimal? coefficient exponent with
  | some m => finite negative m
  | none => infinite negative

/-- The integer that a number equals, if it is whole. -/
def toInt? : Binary64 → Option Int
  | finite negative m =>
    if m.units % Nat.pow 2 1074 = 0 then
      let n : Int := (m.units / Nat.pow 2 1074 : Nat)
      some (if negative then -n else n)
    else none
  | _ => none

end Binary64

end IrDialects.Number
