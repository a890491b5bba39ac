import IrDialects.Json.Basic
import IrDialects.Number.Numeral
import IrDialects.Text.Bytes

/-!
# Reading JSON

A document is read leniently: numbers may have leading zeros or end in a point as long as they denote
a floating-point number, control characters may stand for themselves inside strings, and one comma
or colon before the value is passed over. A NUL character ends the text. Objects must not repeat a
key, and containers must not be nested too deeply. The strict grammar beside it is the one that a
number spelling has to meet to be written.
-/

namespace IrDialects.Json

/-- What two readings of JSON may differ in. -/
structure Grammar where
  /-- Whether a run of number characters is a number. -/
  isNumber : List Char → Bool
  /-- Whether control characters may stand for themselves inside a string. -/
  rawControls : Bool

/-- Why a text is not a document. -/
inductive ReadFault where
  | invalid
  | repeatedKey (key : String)
  | trailing
deriving DecidableEq, Repr

def ReadFault.message : ReadFault → String
  | .invalid => "invalid JSON"
  | .repeatedKey k => "duplicate object key " ++ Text.Quoted.quote k
  | .trailing => "trailing data after JSON value"

namespace Reader

/-- A blank between tokens. -/
def isBlank (c : Char) : Bool := c == ' ' || c == '\n' || c == '\r' || c == '\t'

/-- The text after the blanks at its start. -/
def skipBlanks : List Char → List Char
  | [] => []
  | c :: cs => if isBlank c then skipBlanks cs else c :: cs

/-- A character that can occur in a number. -/
def isNumberChar (c : Char) : Bool :=
  c.isDigit || c == '+' || c == '-' || c == '.' || c == 'e' || c == 'E'

/-- The digits at the start of a text and what follows them, if there is at least one. -/
def digits? (cs : List Char) : Option (List Char) :=
  match cs with
  | c :: rest => if c.isDigit then some (rest.dropWhile Char.isDigit) else none
  | [] => none

/-- What follows the whole part of a number: one zero or digits that do not begin with one. -/
def wholePart? : List Char → Option (List Char)
  | '0' :: rest => some rest
  | cs => digits? cs

/-- What follows an optional fraction. -/
def fractionPart? : List Char → Option (List Char)
  | '.' :: rest => digits? rest
  | cs => some cs

/-- What follows an optional exponent. -/
def exponentPart? : List Char → Option (List Char)
  | c :: rest =>
    if c == 'e' || c == 'E' then digits? (match rest with
      | '+' :: r => r
      | '-' :: r => r
      | r => r)
    else some (c :: rest)
  | [] => some []

/-- A number literal of the JSON grammar. -/
def isLiteral (cs : List Char) : Bool :=
  let unsigned := match cs with
    | '-' :: r => r
    | r => r
  (do fractionPart? (← wholePart? unsigned) >>= exponentPart?) == some []

/-- A text that denotes a finite floating-point number. -/
def isNumeral (cs : List Char) : Bool :=
  match Number.Numeral.read (String.ofList cs) with
  | .value _ => true
  | _ => false

/-- A part of a string: a character, or a UTF-16 code unit given by an escape. -/
inductive Piece where
  | char (c : Char)
  | unit (code : Nat)
deriving DecidableEq, Repr

/-- The first half of a surrogate pair. -/
def isHigh (u : Nat) : Bool := 0xD800 ≤ u && u < 0xDC00

/-- The second half of a surrogate pair. -/
def isLow (u : Nat) : Bool := 0xDC00 ≤ u && u < 0xE000

/-- The character of a code unit that is not part of a pair. -/
def loneUnit (u : Nat) : Char :=
  if isHigh u || isLow u then Text.Bytes.replacement else Char.ofNat u

/-- The character of a surrogate pair. -/
def pairedUnits (high low : Nat) : Char :=
  Char.ofNat (0x10000 + (high - 0xD800) * 1024 + (low - 0xDC00))

/-- The characters that pieces spell. -/
def assemble : List Piece → List Char
  | [] => []
  | .char c :: ps => c :: assemble ps
  | .unit h :: .unit l :: ps =>
    if isHigh h && isLow l then pairedUnits h l :: assemble ps
    else loneUnit h :: assemble (.unit l :: ps)
  | .unit u :: ps => loneUnit u :: assemble ps

/-- The character that a letter after a backslash stands for. -/
def escaped? : Char → Option Char
  | '"' => some '"'
  | '\\' => some '\\'
  | '/' => some '/'
  | 'b' => some '\x08'
  | 'f' => some '\x0c'
  | 'n' => some '\n'
  | 'r' => some '\r'
  | 't' => some '\t'
  | _ => none

/-- The code unit spelt by four digits of base sixteen. -/
def unit? (a b c d : Char) : Option Nat := do
  let a ← Text.Bytes.hexValue? a
  let b ← Text.Bytes.hexValue? b
  let c ← Text.Bytes.hexValue? c
  let d ← Text.Bytes.hexValue? d
  return ((a * 16 + b) * 16 + c) * 16 + d

/-- The pieces of a string up to its closing quotation mark, and what follows. -/
def pieces? (g : Grammar) : List Char → Option (List Piece × List Char)
  | [] => none
  | '"' :: rest => some ([], rest)
  | '\\' :: 'u' :: a :: b :: c :: d :: rest => do
    let u ← unit? a b c d
    let (ps, rest) ← pieces? g rest
    return (.unit u :: ps, rest)
  | '\\' :: e :: rest => do
    let c ← escaped? e
    let (ps, rest) ← pieces? g rest
    return (.char c :: ps, rest)
  | c :: rest =>
    if c.toNat < 0x20 && !g.rawControls then none
    else do
      let (ps, rest) ← pieces? g rest
      return (.char c :: ps, rest)

/-- A string after its opening quotation mark, and what follows. -/
def string? (g : Grammar) (cs : List Char) : Option (String × List Char) :=
  (pieces? g cs).map fun (ps, rest) => (String.ofList (assemble ps), rest)

/-- A number and what follows it. -/
def number? (g : Grammar) (cs : List Char) : Option (Json × List Char) :=
  let run := cs.takeWhile isNumberChar
  if g.isNumber run then some (.number (String.ofList run), cs.dropWhile isNumberChar) else none

mutual

/-- A value with at most `room` nested containers, and what follows it. Every step that goes into a
container or to its next entry takes one unit of `fuel`. -/
def value? (g : Grammar) : Nat → Nat → List Char → Option (Json × List Char)
  | 0, _, _ => none
  | fuel + 1, room, cs =>
    match skipBlanks cs with
    | [] => none
    | 'n' :: 'u' :: 'l' :: 'l' :: rest => some (.null, rest)
    | 't' :: 'r' :: 'u' :: 'e' :: rest => some (.bool true, rest)
    | 'f' :: 'a' :: 'l' :: 's' :: 'e' :: rest => some (.bool false, rest)
    | '"' :: rest => (string? g rest).map fun (s, rest) => (.string s, rest)
    -- A container needs room even if it is empty.
    | '[' :: rest =>
      match room, skipBlanks rest with
      | 0, _ => none
      | _ + 1, ']' :: rest => some (.array [], rest)
      | room + 1, rest => (items? g fuel room rest).map fun (vs, rest) => (.array vs, rest)
    | '\x7b' :: rest =>
      match room, skipBlanks rest with
      | 0, _ => none
      | _ + 1, '\x7d' :: rest => some (.object [], rest)
      | room + 1, rest => (members? g fuel room rest).map fun (ms, rest) => (.object ms, rest)
    | c :: rest => if c.isDigit || c == '-' then number? g (c :: rest) else none

/-- The items of an array up to its closing bracket, and what follows. -/
def items? (g : Grammar) : Nat → Nat → List Char → Option (List Json × List Char)
  | 0, _, _ => none
  | fuel + 1, room, cs => do
    let (v, rest) ← value? g fuel room cs
    match skipBlanks rest with
    | ',' :: rest =>
      let (vs, rest) ← items? g fuel room rest
      return (v :: vs, rest)
    | ']' :: rest => return ([v], rest)
    | _ => none

/-- The members of an object up to its closing brace, and what follows. -/
def members? (g : Grammar) : Nat → Nat → List Char → Option (List (String × Json) × List Char)
  | 0, _, _ => none
  | fuel + 1, room, cs =>
    match skipBlanks cs with
    | '"' :: rest => do
      let (k, rest) ← string? g rest
      match skipBlanks rest with
      | ':' :: rest =>
        let (v, rest) ← value? g fuel room rest
        match skipBlanks rest with
        | ',' :: rest =>
          let (ms, rest) ← members? g fuel room rest
          return ((k, v) :: ms, rest)
        | '\x7d' :: rest => return ([(k, v)], rest)
        | _ => none
      | _ => none
    | _ => none

end

/-- How deeply containers may be nested. -/
def depthLimit : Nat := 10000

/-- A value at the start of a text, and what follows it. -/
def read? (g : Grammar) (cs : List Char) : Option (Json × List Char) :=
  value? g (cs.length + 1) depthLimit cs

/-- The grammar of documents. -/
def lenient : Grammar := ⟨isNumeral, true⟩

def strict : Grammar := ⟨isLiteral, false⟩

/-- Whether a text is one JSON value, with blanks around it or not. -/
def isStrictText (s : String) : Bool :=
  match read? strict s.toList with
  | some (_, rest) => (skipBlanks rest).isEmpty
  | none => false

/-- The text up to the first NUL character. -/
def upToNul (cs : List Char) : List Char := cs.takeWhile (· != '\x00')

/-- The text after the blanks at its start and one comma or colon. -/
def skipSeparator (cs : List Char) : List Char :=
  match skipBlanks cs with
  | ',' :: rest => rest
  | ':' :: rest => rest
  | rest => rest

end Reader

/-- The value that a sequence of characters spells. -/
def parseChars (cs : List Char) : Except ReadFault Json :=
  match Reader.read? Reader.lenient (Reader.skipSeparator (Reader.upToNul cs)) with
  | none => .error .invalid
  | some (v, rest) =>
    let rest := Reader.skipBlanks rest
    let closing := rest.head?.any fun c => c == ']' || c == '\x7d'
    if !rest.isEmpty && !closing then .error .invalid
    else match v.repeatedKey? with
      | some k => .error (.repeatedKey k)
      | none => if closing then .error .trailing else .ok v

def parse (s : String) : Except ReadFault Json := parseChars s.toList

/-- The value that a document given as bytes spells. -/
def parseBytes (bs : List UInt8) : Except ReadFault Json := parseChars (Text.Bytes.decodeFrom 0 bs)

end IrDialects.Json
