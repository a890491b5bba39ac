/-!
# UTF-16 code units

The order of keys in canonical JSON compares texts by their UTF-16 code units, so a character
beyond the basic plane, whose first unit is a surrogate, comes before U+E000 to U+FFFF.
-/

namespace IrDialects.Text.Units

def ofChar (c : Char) : List Nat :=
  if c.toNat < 0x10000 then [c.toNat]
  else [0xD800 + (c.toNat - 0x10000) / 1024, 0xDC00 + (c.toNat - 0x10000) % 1024]

def ofText (s : String) : List Nat := s.toList.flatMap ofChar

def le : List Nat → List Nat → Bool
  | [], _ => true
  | _ :: _, [] => false
  | a :: as, b :: bs => a < b || (a == b && le as bs)

/-- The order of texts by code units. -/
def textLe (a b : String) : Bool := le (ofText a) (ofText b)

end IrDialects.Text.Units
