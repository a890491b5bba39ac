import IrDialects.Number.Numeral
import IrDialects.Number.Whole
import IrDialects.Text.Pieces

/-!
# Plain scalars

What a YAML scalar without quotes stands for: a null, a truth value, a number, a date or else a text.
-/

namespace IrDialects.Yaml

/-- What a plain scalar stands for. -/
inductive Meaning where
  | null
  | bool (value : Bool)
  | int (value : Int)
  | float (value : Number.Binary64)
  | timestamp
  | text
deriving DecidableEq, Repr

/-- The tag of a meaning in messages. -/
def Meaning.tag : Meaning → String
  | .null => "!!null"
  | .bool _ => "!!bool"
  | .int _ => "!!int"
  | .float _ => "!!float"
  | .timestamp => "!!timestamp"
  | .text => "!!str"

namespace Scalar

/-- The words with a meaning of their own. -/
def word? (s : String) : Option Meaning :=
  if s ∈ ["true", "True", "TRUE"] then some (.bool true)
  else if s ∈ ["false", "False", "FALSE"] then some (.bool false)
  else if s ∈ ["", "~", "null", "Null", "NULL"] then some .null
  else if s ∈ [".nan", ".NaN", ".NAN"] then some (.float .nan)
  else if s ∈ [".inf", ".Inf", ".INF", "+.inf", "+.Inf", "+.INF"] then some (.float (.infinite false))
  else if s ∈ ["-.inf", "-.Inf", "-.INF"] then some (.float (.infinite true))
  else none

/-- The value of a digit, letters included. -/
def digit? (c : Char) : Option Nat :=
  if c.isDigit then some (c.toNat - '0'.toNat)
  else if 'a' ≤ c && c ≤ 'z' then some (c.toNat - 'a'.toNat + 10)
  else if 'A' ≤ c && c ≤ 'Z' then some (c.toNat - 'A'.toNat + 10)
  else none

/-- The number that digits of a base denote. -/
def digits? (base : Nat) : Nat → List Char → Option Nat
  | n, [] => some n
  | n, c :: cs =>
    match digit? c with
    | some d => if d < base then digits? base (n * base + d) cs else none
    | none => none

/-- A natural number with the marks of its base: a letter after a zero, or a zero for octal. -/
def natural? : List Char → Option Nat
  | [] => none
  | '0' :: [] => some 0
  | '0' :: c :: cs =>
    let base := if c = 'x' ∨ c = 'X' then some 16 else if c = 'o' ∨ c = 'O' then some 8
      else if c = 'b' ∨ c = 'B' then some 2 else none
    match base with
    | some b => if cs.isEmpty then none else digits? b 0 cs
    | none => digits? 8 0 (c :: cs)
  | cs => digits? 10 0 cs

/-- An integer that fits into 64 bits; without a sign it may use all of them. -/
def integer? (cs : List Char) : Option Int :=
  let (negative, rest) := Number.Whole.sign cs
  let half := Nat.pow 2 63
  let bound := if negative then half else if rest.length < cs.length then half - 1 else 2 * half - 1
  match natural? rest with
  | some n => if n ≤ bound then some (if negative then -n else n) else none
  | none => none

/-- Whether a text consists of a sign, digits with a point among or before them, and an exponent, all
of them optional except one digit. -/
def isFloatShaped (cs : List Char) : Bool :=
  let rest := (Number.Whole.sign cs).2
  let whole := rest.takeWhile Char.isDigit
  let rest := rest.dropWhile Char.isDigit
  let (fraction, rest) := match rest with
    | '.' :: more => (more.takeWhile Char.isDigit, more.dropWhile Char.isDigit)
    | _ => ([], rest)
  let exponent := match rest with
    | [] => true
    | e :: more =>
      let ds := (Number.Whole.sign more).2
      (e == 'e' || e == 'E') && !ds.isEmpty && ds.all Char.isDigit
  (!whole.isEmpty || !fraction.isEmpty) && exponent

/-- The finite number that a text denotes. -/
def float? (cs : List Char) : Option Number.Binary64 :=
  (Number.Numeral.read (String.ofList cs)).toExcept.toOption

/-- One or two digits at the start of a text, and what follows. -/
def short? : List Char → Option (Nat × List Char)
  | a :: b :: rest =>
    if a.isDigit then
      if b.isDigit then some (Number.Whole.digitValue a * 10 + Number.Whole.digitValue b, rest)
      else some (Number.Whole.digitValue a, b :: rest)
    else none
  | [a] => if a.isDigit then some (Number.Whole.digitValue a, []) else none
  | [] => none

/-- What follows a character at the start of a text. -/
def after? (c : Char) : List Char → Option (List Char)
  | d :: rest => if c = d then some rest else none
  | [] => none

def daysIn (year month : Nat) : Nat :=
  if month = 2 then
    if year % 4 = 0 ∧ (year % 100 ≠ 0 ∨ year % 400 = 0) then 29 else 28
  else if month ∈ [4, 6, 9, 11] then 30 else 31

/-- Whether a text is a zone: the letter Z, or hours and minutes with a sign. -/
def isZone : List Char → Bool
  | ['Z'] => true
  | [s, a, b, ':', c, d] =>
    (s == '+' || s == '-') && [a, b, c, d].all Char.isDigit
      && Number.Whole.digitValue a * 10 + Number.Whole.digitValue b ≤ 24
      && Number.Whole.digitValue c * 10 + Number.Whole.digitValue d < 60
  | _ => false

/-- What follows a time of day, fractions of a second included. -/
def timeOfDay? (cs : List Char) : Option (List Char) := do
  let (h, cs) ← short? cs
  let (m, cs) ← short? (← after? ':' cs)
  let (s, cs) ← short? (← after? ':' cs)
  if 24 ≤ h ∨ 60 ≤ m ∨ 60 ≤ s then none
  match cs with
  | '.' :: d :: more =>
    if d.isDigit then some (more.dropWhile Char.isDigit) else some cs
  | _ => some cs

/-- Whether a text is a date, or a date with a time of day. -/
def isTimestamp (cs : List Char) : Bool :=
  let year := cs.takeWhile Char.isDigit
  let found := do
    if year.length ≠ 4 then none
    let (m, cs) ← short? (← after? '-' (cs.drop 4))
    let (d, cs) ← short? (← after? '-' cs)
    let y := year.foldl (fun n c => n * 10 + Number.Whole.digitValue c) 0
    if m = 0 ∨ 12 < m ∨ d = 0 ∨ daysIn y m < d then none
    match cs with
    | [] => some true
    | ' ' :: rest => return (← timeOfDay? rest).isEmpty
    | c :: rest =>
      if c = 'T' ∨ c = 't' then return isZone (← timeOfDay? rest) else none
  found.getD false

/-- What a text that begins like a number stands for. -/
def numeric (s : String) : Meaning :=
  if isTimestamp s.toList then .timestamp
  else
    let cs := s.toList.filter (· != '_')
    match integer? cs with
    | some n => .int n
    | none =>
      if isFloatShaped cs then
        match float? cs with
        | some x => .float x
        | none => .text
      else .text

/-- What a plain scalar stands for. -/
def meaning (s : String) : Meaning :=
  match word? s with
  | some m => m
  | none =>
    match s.toList with
    | [] => .null
    | c :: _ =>
      if c.isDigit || c == '+' || c == '-' then numeric s
      else if c == '.' then
        match float? s.toList with
        | some x => .float x
        | none => .text
      else .text

/-- Whether a text is a number in base sixty: digits, then groups of up to two digits after colons. -/
def isSexagesimal (s : String) : Bool :=
  let cs := (Number.Whole.sign s.toList).2
  let isDigits (p : List Char) : Bool := p.all fun c => c.isDigit || c == '_'
  let isGroup : List Char → Bool
    | [a] => a.isDigit
    | [a, b] => '0' ≤ a && a ≤ '5' && b.isDigit
    | _ => false
  match Text.pieces ':' cs with
  | head :: group :: groups =>
    let all := group :: groups
    let last := all.getLast?.getD []
    let lastGroup := last.takeWhile (· != '.')
    let fraction := (last.dropWhile (· != '.')).drop 1
    (head.headD ' ').isDigit && isDigits head && all.dropLast.all isGroup && isGroup lastGroup
      && isDigits fraction
  | _ => false

/-- Whether a text was a truth value in older versions of the format. -/
def isOldBool (s : String) : Bool :=
  ["y", "Y", "yes", "Yes", "YES", "on", "On", "ON",
    "n", "N", "no", "No", "NO", "off", "Off", "OFF"].contains s

end Scalar

end IrDialects.Yaml
