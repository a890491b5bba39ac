import IrDialects.Number.Whole
import IrDialects.Text.LowerCase
import IrDialects.Text.Pieces

/-!
# Decimal numerals

A decimal number of any precision is kept as its text. This module says which texts denote a finite
decimal with exponents between -100000 and 100000, and why another text does not.
-/

namespace IrDialects.Number.Decimal

/-- Why a text is not a decimal numeral. -/
inductive Problem where
  | doubleSign (text : String)
  | payload (text : String) (fault : Fault)
  | exponent (text : String) (fault : Fault)
  | mantissa (text : String)
  | range
  | notFinite
deriving DecidableEq, Repr

def Problem.reason : Problem → String
  | .doubleSign s => "could not parse: " ++ s
  | .payload s f => "parse payload: " ++ s ++ ": " ++ f.message "ParseUint" s
  | .exponent s f => "parse exponent: " ++ s ++ ": " ++ f.message "ParseInt" s
  | .mantissa s => "parse mantissa: " ++ s
  | .range => "exponent out of range"
  | .notFinite => "not finite"

/-- Whether an exponent is one of the format's. -/
def inRange (e : Int) : Bool := -100000 ≤ e && e ≤ 100000

/-- The exponent written after the letter `e`, if there is one, and what stands before it. -/
def splitExponent (cs : List Char) : Except Problem (Option Int × List Char) :=
  match Text.cut? 'e' cs with
  | none => .ok (none, cs)
  | some (before, after) =>
    match Whole.signed 32 after with
    | .ok e => .ok (some e, before)
    | .error f => .error (.exponent (String.ofList after) f)

/-- How many characters follow the point, if there is one, and the text without it. -/
def splitPoint (cs : List Char) : Option Nat × List Char :=
  match Text.cut? '.' cs with
  | none => (none, cs)
  | some (before, after) => (some after.length, before ++ after)

/-- The number of digits of a mantissa without the zeros before them; a mantissa may carry a sign of
its own. -/
def mantissaDigits? (cs : List Char) : Option Nat :=
  let (_, digits) := Whole.sign cs
  if digits.isEmpty || !digits.all Char.isDigit then none
  else some (max 1 (digits.dropWhile (· == '0')).length)

/-- Whether the exponents of a number, its adjusted exponent and their sum are all in range. -/
def exponentsInRange (written places : Option Int) (digits : Nat) : Bool :=
  let sum := written.getD 0 + places.getD 0
  (written.all inRange) && (places.all inRange) && inRange (sum + digits - 1) && inRange sum

/-- Checks an unsigned, lower-case numeral of a finite number. -/
def checkFinite (cs : List Char) : Except Problem Unit := do
  let (written, rest) ← splitExponent cs
  let (places, rest) := splitPoint rest
  match mantissaDigits? rest with
  | none => throw (.mantissa (String.ofList rest))
  | some digits =>
    if exponentsInRange written (places.map fun n => -(n : Int)) digits then return ()
    else throw .range

/-- What follows the word for not-a-number, if a text begins with it. -/
def notANumber? (cs : List Char) : Option (List Char) :=
  let quiet := Text.dropStart? ['n', 'a', 'n'] cs
  match Text.dropStart? ['s', 'n', 'a', 'n'] (quiet.getD cs) with
  | some rest => some rest
  | none => quiet

/-- Checks that a text denotes a finite decimal. -/
def check (s : String) : Except Problem Unit :=
  let (_, unsigned) := Whole.sign s.toList
  let cs := unsigned.map Text.LowerCase.lowerChar
  match cs with
  | '-' :: _ => .error (.doubleSign s)
  | '+' :: _ => .error (.doubleSign s)
  | _ =>
    if cs = "infinity".toList || cs = "inf".toList then .error .notFinite
    else match notANumber? cs with
      | some [] => .error .notFinite
      | some payload =>
        match Whole.unsigned 64 payload with
        | .ok _ => .error .notFinite
        | .error f => .error (.payload (String.ofList payload) f)
      | none => checkFinite cs

/-- Checks that a text denotes a finite decimal, with a full message if it does not. -/
def checkOrMessage (s : String) : Except String Unit :=
  (check s).mapError fun p => "invalid decimal " ++ Text.Quoted.quote s ++ ": " ++ p.reason

end IrDialects.Number.Decimal
