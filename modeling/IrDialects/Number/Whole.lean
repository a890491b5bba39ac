import IrDialects.Number.Fault

/-!
# Whole numbers of bounded width

Decimal numerals with an optional sign, read into signed or unsigned numbers of a given number of
bits. A numeral that leaves the range is refused at the digit where it does so, whatever follows.
-/

namespace IrDialects.Number.Whole

def digitValue (c : Char) : Nat := c.toNat - '0'.toNat

/-- Goes on reading digits after `n`, as long as the number stays at most `limit`. -/
def digitsUpTo (limit : Nat) : Nat → List Char → Except Fault Nat
  | n, [] => .ok n
  | n, c :: cs =>
    if c.isDigit then
      if 10 * n + digitValue c ≤ limit then digitsUpTo limit (10 * n + digitValue c) cs
      else .error .outOfRange
    else .error .malformed

def unsigned (bits : Nat) : List Char → Except Fault Nat
  | [] => .error .malformed
  | c :: cs => digitsUpTo (Nat.pow 2 bits - 1) 0 (c :: cs)

/-- The sign of a numeral (`true` for minus) and what follows it. -/
def sign : List Char → Bool × List Char
  | '-' :: cs => (true, cs)
  | '+' :: cs => (false, cs)
  | cs => (false, cs)

def signed (bits : Nat) (cs : List Char) : Except Fault Int := do
  let (negative, digits) := sign cs
  let n ← unsigned bits digits
  if negative then
    if n ≤ Nat.pow 2 (bits - 1) then return -(n : Int) else throw .outOfRange
  else
    if n < Nat.pow 2 (bits - 1) then return (n : Int) else throw .outOfRange

/-- A signed number of 64 bits. -/
def parse (s : String) : Except Fault Int := signed 64 s.toList

/-- A signed number of 64 bits, or the message why there is none. -/
def parseOrMessage (s : String) : Except String Int :=
  (parse s).mapError (Fault.message "ParseInt" s)

end IrDialects.Number.Whole
