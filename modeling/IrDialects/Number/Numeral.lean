import IrDialects.Number.Binary64
import IrDialects.Number.Fault
import IrDialects.Number.Whole

/-!
# Numerals of floating-point numbers

A numeral is a decimal fraction with an optional power of ten, a hexadecimal fraction with a power of
two, or one of the words for infinity and not-a-number. Underscores may separate digits.
-/

namespace IrDialects.Number.Numeral

/-- What a text denotes. -/
inductive Reading where
  | malformed
  /-- A numeral beyond the range of the format. -/
  | overflow (negative : Bool)
  | value (number : Binary64)
deriving DecidableEq, Repr

/-- The base in which the digits of a fraction are written. -/
inductive Radix where
  | ten
  | sixteen
deriving DecidableEq, Repr

def Radix.base : Radix → Nat
  | .ten => 10
  | .sixteen => 16

def Radix.exponentLetter : Radix → Char
  | .ten => 'e'
  | .sixteen => 'p'

def Radix.digit? (r : Radix) (c : Char) : Option Nat :=
  if c.isDigit then some (c.toNat - '0'.toNat)
  else match r with
    | .ten => none
    | .sixteen =>
      if 'a' ≤ c.toLower && c.toLower ≤ 'f' then some (c.toLower.toNat - 'a'.toNat + 10) else none

/-- The digits read so far: their value, how many follow the point, and what has been seen. -/
structure Fraction where
  coefficient : Nat := 0
  places : Nat := 0
  pointSeen : Bool := false
  digitSeen : Bool := false
deriving DecidableEq, Repr

/-- One more digit at the end of a fraction. -/
def Fraction.push (f : Fraction) (base digit : Nat) : Fraction :=
  { coefficient := f.coefficient * base + digit
    places := if f.pointSeen then f.places + 1 else f.places
    pointSeen := f.pointSeen
    digitSeen := true }

/-- Goes on reading a fraction, and gives what follows it. -/
def fraction (r : Radix) : Fraction → List Char → Fraction × List Char
  | f, [] => (f, [])
  | f, c :: cs =>
    if c = '_' then fraction r f cs
    else if c = '.' then
      if f.pointSeen then (f, c :: cs) else fraction r { f with pointSeen := true } cs
    else match r.digit? c with
      | some d => fraction r (f.push r.base d) cs
      | none => (f, c :: cs)

/-- Goes on reading an exponent, and gives what follows it. Digits that cannot change whether the
number is within range are passed over. -/
def exponentDigits : Nat → List Char → Nat × List Char
  | e, [] => (e, [])
  | e, c :: cs =>
    if c = '_' then exponentDigits e cs
    else if c.isDigit then
      exponentDigits (if e < 10000 then 10 * e + Whole.digitValue c else e) cs
    else (e, c :: cs)

/-- The exponent after its letter; it must begin with a digit. -/
def exponent? (cs : List Char) : Option (Int × List Char) :=
  let (negative, rest) := Whole.sign cs
  match rest with
  | c :: _ =>
    if c.isDigit then
      let (e, rest) := exponentDigits 0 rest
      some (if negative then -(e : Int) else e, rest)
    else none
  | [] => none

/-- What stood before an underscore. -/
inductive Neighbour where
  | start
  | digit
  | underscore
  | other
deriving DecidableEq, Repr

/-- Whether every underscore stands between two digits, given what stood before. -/
def separatedAfter (r : Radix) : Neighbour → List Char → Bool
  | n, [] => n != .underscore
  | n, c :: cs =>
    if (r.digit? c).isSome then separatedAfter r .digit cs
    else if c = '_' then n == .digit && separatedAfter r .underscore cs
    else n != .underscore && separatedAfter r .other cs

/-- Whether underscores, if there are any, separate digits. The mark of a base counts as a digit. -/
def separated : List Char → Bool
  | '0' :: x :: cs =>
    if x.toLower = 'x' then separatedAfter .sixteen .digit cs
    else if x.toLower = 'b' || x.toLower = 'o' then separatedAfter .ten .digit cs
    else separatedAfter .ten .start ('0' :: x :: cs)
  | cs => separatedAfter .ten .start cs

/-- The base of an unsigned numeral and its digits. -/
def radix : List Char → Radix × List Char
  | '0' :: x :: c :: cs => if x.toLower = 'x' then (.sixteen, c :: cs) else (.ten, '0' :: x :: c :: cs)
  | cs => (.ten, cs)

/-- The number with a given sign that a fraction and an exponent denote. -/
def evaluate (r : Radix) (negative : Bool) (f : Fraction) (e : Int) : Reading :=
  let magnitude := match r with
    | .ten => Magnitude.ofDecimal? f.coefficient (e - f.places)
    | .sixteen => Magnitude.ofBinary? f.coefficient (e - 4 * f.places)
  match magnitude with
  | some m => .value (.finite negative m)
  | none => .overflow negative

/-- A numeral without its sign. -/
def unsigned (negative : Bool) (cs : List Char) : Reading :=
  let (r, digits) := radix cs
  let (f, rest) := fraction r {} digits
  if !f.digitSeen || (cs.contains '_' && !separated cs) then .malformed
  else match rest with
    | [] => if r = .ten then evaluate r negative f 0 else .malformed
    | c :: rest =>
      if c.toLower = r.exponentLetter then
        match exponent? rest with
        | some (e, []) => evaluate r negative f e
        | _ => .malformed
      else .malformed

def read (s : String) : Reading :=
  let cs := s.toList
  let (negative, rest) := Whole.sign cs
  let word := String.ofList (rest.map Char.toLower)
  if word = "inf" || word = "infinity" then .value (.infinite negative)
  else if cs.map Char.toLower = ['n', 'a', 'n'] then .value .nan
  else unsigned negative rest

/-- The number, or the reason why there is none. -/
def Reading.toExcept : Reading → Except Fault Binary64
  | .malformed => .error .malformed
  | .overflow _ => .error .outOfRange
  | .value x => .ok x

/-- A number in any case: zero for a text that denotes none, an infinity beyond the range. -/
def Reading.number : Reading → Binary64
  | .malformed => .finite false .zero
  | .overflow negative => .infinite negative
  | .value x => x

/-- The number that a text denotes, or the message why there is none. -/
def parseOrMessage (s : String) : Except String Binary64 :=
  (read s).toExcept.mapError (Fault.message "ParseFloat" s)

end IrDialects.Number.Numeral
