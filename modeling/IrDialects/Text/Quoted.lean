import IrDialects.Text.Printable

/-!
# Quoted texts

The form in which a text is shown inside a message: between quotation marks, with everything that
cannot be printed spelt as an escape.
-/

namespace IrDialects.Text.Quoted

/-- A digit of base sixteen, in lower case. -/
def hexDigit (n : Nat) : Char := Nat.digitChar (n % 16)

/-- The last `width` digits of `n` in base sixteen. -/
def hex : Nat → Nat → List Char
  | 0, _ => []
  | width + 1, n => hex width (n / 16) ++ [hexDigit n]

/-- The letter that stands for a control character after a backslash. -/
def controlLetter? : Char → Option Char
  | '\x07' => some 'a'
  | '\x08' => some 'b'
  | '\x09' => some 't'
  | '\x0a' => some 'n'
  | '\x0b' => some 'v'
  | '\x0c' => some 'f'
  | '\x0d' => some 'r'
  | _ => none

def escapeChar (mark c : Char) : List Char :=
  if c = mark || c = '\\' then ['\\', c]
  else if Printable.isPrintable c then [c]
  else match controlLetter? c with
    | some l => ['\\', l]
    | none =>
      if c.toNat < 0x80 then '\\' :: 'x' :: hex 2 c.toNat
      else if c.toNat < 0x10000 then '\\' :: 'u' :: hex 4 c.toNat
      else '\\' :: 'U' :: hex 8 c.toNat

def quote (s : String) : String :=
  "\"" ++ String.ofList (s.toList.flatMap (escapeChar '"')) ++ "\""

def quoteChar (c : Char) : String :=
  "'" ++ String.ofList (escapeChar '\'' c) ++ "'"

end IrDialects.Text.Quoted
