import IrDialects.Number.Binary64

/-!
# Shortest decimals

The decimal with the fewest digits that reads back as a given magnitude, and among those of that
length the nearest one. Texts of floating-point numbers are built from it in two layouts, positional
and with an exponent.
-/

namespace IrDialects.Number

/-- A decimal fraction `0.d₁d₂… * 10 ^ point`, given by its digits. -/
structure Digits where
  digits : List Char
  point : Int
deriving DecidableEq, Repr

namespace Shortest

/-- The magnitude in units of `10 ^ (-1074)`: every finite magnitude is a whole number of them. -/
def expansion (m : Magnitude) : Nat := m.units * Nat.pow 5 1074

/-- Whether `coefficient * 10 ^ drop` units of `10 ^ (-1074)` read back as `m`. -/
def readsBack (m : Magnitude) (coefficient drop : Nat) : Bool :=
  Magnitude.ofDecimal? coefficient (drop - 1074 : Int) == some m

/-- The coefficient that keeps all but `drop` digits of the expansion `n` and reads back as `m`, if
there is one: of the two neighbours of `n` the nearer one, on a tie the even one. -/
def candidate? (m : Magnitude) (n drop : Nat) : Option Nat :=
  let unit := Nat.pow 10 drop
  let below := n / unit
  let remainder := n % unit
  match readsBack m below drop, readsBack m (below + 1) drop with
  | true, true =>
    some (if 2 * remainder < unit || (2 * remainder == unit && below % 2 == 0)
      then below else below + 1)
  | true, false => some below
  | false, true => some (below + 1)
  | false, false => none

/-- Tries to drop as many digits as possible, at most `drop`. -/
def search (m : Magnitude) (n : Nat) : Nat → Nat × Nat
  | 0 => (n, 0)
  | drop + 1 =>
    match candidate? m n (drop + 1) with
    | some coefficient => (coefficient, drop + 1)
    | none => search m n drop

/-- The digits without the zeros at their end. -/
def trimZeros (ds : List Char) : List Char := (ds.reverse.dropWhile (· == '0')).reverse

/-- The digits of `coefficient * 10 ^ drop` units of `10 ^ (-1074)`. -/
def ofUnits (coefficient drop : Nat) : Digits :=
  let ds := Nat.toDigits 10 coefficient
  ⟨trimZeros ds, (ds.length : Int) + drop - 1074⟩

/-- The digits kept by a search. -/
def ofSearch (r : Nat × Nat) : Digits := ofUnits r.1 r.2

/-- The shortest digits of a magnitude; zero has the digit `0`. -/
def digits (m : Magnitude) : Digits :=
  if m.units = 0 then ⟨['0'], 1⟩
  else ofSearch (search m (expansion m) (Magnitude.digitCount (expansion m) - 1))

end Shortest

namespace Digits

/-- The zeros that fill `n` places. -/
def zeros (n : Int) : List Char := List.replicate n.toNat '0'

/-- The layout without an exponent. -/
def positional (d : Digits) : List Char :=
  if d.point ≤ 0 then '0' :: '.' :: zeros (-d.point) ++ d.digits
  else if (d.digits.length : Int) ≤ d.point then d.digits ++ zeros (d.point - d.digits.length)
  else d.digits.take d.point.toNat ++ '.' :: d.digits.drop d.point.toNat

/-- An exponent with its sign and at least two digits. -/
def exponentText (e : Int) : List Char :=
  let ds := Nat.toDigits 10 e.natAbs
  (if e < 0 then '-' else '+') :: (if ds.length < 2 then '0' :: ds else ds)

/-- The layout with one digit before the point and an exponent. -/
def scientific (d : Digits) : List Char :=
  let tail := 'e' :: exponentText (d.point - 1)
  match d.digits with
  | [] => '0' :: tail
  | [c] => c :: tail
  | c :: cs => c :: '.' :: cs ++ tail

end Digits

/-- From which powers of ten on a number is written with an exponent. -/
structure FloatLayout where
  /-- The least power of the first digit that is written positionally. -/
  least : Int
  /-- The first power of the first digit that is not written positionally any more. -/
  bound : Int
deriving DecidableEq, Repr

namespace FloatLayout

/-- Numbers in documents: positional from a ten-thousandth up to a million. -/
def document : FloatLayout := ⟨-4, 6⟩

/-- Numbers in reports: positional from a millionth up to `10 ^ 21`. -/
def report : FloatLayout := ⟨-6, 21⟩

def finiteText (l : FloatLayout) (negative : Bool) (m : Magnitude) : String :=
  let d := Shortest.digits m
  let power := d.point - 1
  let text := if m.units ≠ 0 && (power < l.least || l.bound ≤ power) then d.scientific
    else d.positional
  String.ofList (if negative then '-' :: text else text)

def text (l : FloatLayout) : Binary64 → String
  | .nan => "NaN"
  | .infinite negative => if negative then "-Inf" else "+Inf"
  | .finite negative m => l.finiteText negative m

end FloatLayout

end IrDialects.Number
