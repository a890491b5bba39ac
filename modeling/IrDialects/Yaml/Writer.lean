import IrDialects.Text.Quoted
import IrDialects.Yaml.Input
import IrDialects.Yaml.Scalar

/-!
# Writing YAML scalars

A text is written without quotes if it then reads as that text, in single quotes if that is enough, and
else in double quotes; a text of several lines is written as a block.
-/

namespace IrDialects.Yaml.Writer

/-- Whether a character can be shown as it is. -/
def isPrintable (c : Char) : Bool :=
  c == '\n' || (' ' ≤ c && c ≤ '~') || ('\u00A0' ≤ c && c ≤ '\uFFFD' && c != '\uFEFF')

/-- A blank or the end of the text. -/
def isBlankOrEnd : Option Char → Bool
  | none => true
  | some c => c == ' ' || c == '\t'

/-- A character that gives a line a meaning when it stands first. -/
def startsIndicator (c : Char) (next : Option Char) : Bool :=
  "#,[]\x7b\x7d&*!|>'\"%@\x60".toList.contains c
    || ((c == '?' || c == ':' || c == '-') && isBlankOrEnd next)

/-- Whether an indicator stands after the first character. -/
def innerIndicator : Char → List Char → Bool
  | _, [] => false
  | before, c :: cs =>
    (c == ':' && isBlankOrEnd cs.head?)
      || (c == '#' && (before == ' ' || before == '\t' || isBreak before))
      || innerIndicator c cs

/-- Whether a text would be taken for structure if it stood without quotes. -/
def hasIndicator : List Char → Bool
  | [] => false
  | c :: cs =>
    ['-', '-', '-'].isPrefixOf (c :: cs) || ['.', '.', '.'].isPrefixOf (c :: cs)
      || startsIndicator c cs.head? || innerIndicator c cs

/-- Whether a character of the second kind follows one of the first kind. -/
def follows (first second : Char → Bool) : List Char → Bool
  | a :: b :: cs => (first a && second b) || follows first second (b :: cs)
  | _ => false

/-- What the characters of a text allow. -/
structure Analysis where
  plain : Bool
  singleQuoted : Bool
  block : Bool

/-- What a text that is not empty can be written as. -/
def analyze (cs : List Char) : Analysis :=
  let isSpace (c : Char) : Bool := c == ' '
  let special := cs.any fun c => c != '\t' && !isPrintable c
  let spaceBreak := follows isSpace isBreak cs
  let edges := [cs.head?, cs.getLast?].any fun c => c.any fun c => isSpace c || isBreak c
  let quotable := !follows isBreak isSpace cs && !spaceBreak && !cs.contains '\t' && !special
  { plain := quotable && !edges && !cs.any isBreak && !hasIndicator cs
    singleQuoted := quotable
    block := cs.getLast? != some ' ' && !spaceBreak && !special }

/-- The letter that stands for a character after a backslash. -/
def escapeLetter? : Char → Option Char
  | '\x00' => some '0'
  | '\x07' => some 'a'
  | '\x08' => some 'b'
  | '\t' => some 't'
  | '\n' => some 'n'
  | '\x0b' => some 'v'
  | '\x0c' => some 'f'
  | '\r' => some 'r'
  | '\x1b' => some 'e'
  | '"' => some '"'
  | '\\' => some '\\'
  | '\u0085' => some 'N'
  | '\u2028' => some 'L'
  | '\u2029' => some 'P'
  | _ => none

/-- Digits in base sixteen, with capital letters. -/
def capitalHex (width n : Nat) : List Char := (Text.Quoted.hex width n).map Char.toUpper

def doubleChar (c : Char) : List Char :=
  if isPrintable c && !isBreak c && c != '"' && c != '\\' then [c]
  else match escapeLetter? c with
    | some l => ['\\', l]
    | none =>
      let n := c.toNat
      if n ≤ 0xFF then '\\' :: 'x' :: capitalHex 2 n
      else if n ≤ 0xFFFF then '\\' :: 'u' :: capitalHex 4 n
      else '\\' :: 'U' :: capitalHex 8 n

def doubleQuoted (cs : List Char) : String := String.ofList ('"' :: cs.flatMap doubleChar ++ ['"'])

def blanks (indent : Nat) : List Char := List.replicate indent ' '

/-- The characters of a text in single quotes; a line after a break is indented. -/
def singleChars (indent : Nat) : Bool → List Char → List Char
  | _, [] => []
  | afterBreak, c :: cs =>
    if isBreak c then
      (if c == '\n' && !afterBreak then ['\n', '\n'] else [c]) ++ singleChars indent true cs
    else
      (if afterBreak then blanks indent else [])
        ++ (if c == '\'' then ['\'', '\''] else [c]) ++ singleChars indent false cs

def singleQuoted (indent : Nat) (cs : List Char) : String :=
  String.ofList ('\'' :: singleChars indent false cs ++ ['\''])

/-- The marks after the sign of a block: its indentation if the first line begins with a blank, and
what becomes of line breaks at the end. -/
def blockMarks (cs : List Char) : String :=
  let startsBlank := cs.head?.any fun c => c == ' ' || isBreak c
  let ends := match cs.reverse with
    | [] => "-"
    | [c] => if isBreak c then "+" else "-"
    | c :: d :: _ => if !isBreak c then "-" else if isBreak d then "+" else ""
  (if startsBlank then "2" else "") ++ ends

def blockChars (indent : Nat) : Bool → List Char → List Char
  | _, [] => []
  | afterBreak, c :: cs =>
    if isBreak c then c :: blockChars indent true cs
    else (if afterBreak then blanks indent else []) ++ c :: blockChars indent false cs

def block (indent : Nat) (cs : List Char) : String :=
  let body := blockChars indent true cs
  "|" ++ blockMarks cs ++ String.ofList (if cs.head?.any isBreak then body else '\n' :: body)

/-- Whether a text reads as a text when it stands without quotes. -/
def readsAsText (s : String) : Bool :=
  Scalar.meaning s == .text && !Scalar.isSexagesimal s && !Scalar.isOldBool s

/-- A text as the value of an entry or as an item; further lines are indented. -/
def value (indent : Nat) (s : String) : String :=
  let cs := s.toList
  let a := analyze cs
  if cs.contains '\n' then if a.block then block indent cs else doubleQuoted cs
  else if !readsAsText s then doubleQuoted cs
  else if a.plain then s
  else if a.singleQuoted then singleQuoted indent cs
  else doubleQuoted cs

/-- A text of one line as a key. -/
def key (s : String) : String :=
  let cs := s.toList
  let a := analyze cs
  if !readsAsText s then doubleQuoted cs
  else if a.plain then s
  else if a.singleQuoted then singleQuoted 0 cs
  else doubleQuoted cs

end IrDialects.Yaml.Writer
