import IrDialects.Yaml.Input
import IrDialects.Yaml.Scalar

/-!
# The texts of scalars

A scalar is written in quotes, plainly, or as a block of lines. In quotes and in plain scalars a line
break counts as a blank, and several count as one less.
-/

namespace IrDialects.Yaml.ScalarText

/-- Blanks and line breaks inside a scalar that are not settled yet. -/
inductive Pending where
  | blanks (cs : List Char)
  /-- A line break, if it counts, and those after it. -/
  | breaks (first : Option Char) (more : List Char)

namespace Pending

/-- What pending blanks and breaks amount to: a single break is a space, several lose one of them. The
separators of lines and paragraphs stay. -/
def settle : Pending → List Char
  | blanks cs => cs
  | breaks none more => more
  | breaks (some '\n') [] => [' ']
  | breaks (some '\n') more => more
  | breaks (some c) more => c :: more

/-- One more blank; blanks at the start of a line are dropped. -/
def addBlank (c : Char) : Pending → Pending
  | blanks cs => blanks (cs ++ [c])
  | p => p

/-- One more line break; blanks before it are dropped. -/
def addBreak (c : Char) : Pending → Pending
  | blanks _ => breaks (some c) []
  | breaks d more => breaks d (more ++ [c])

/-- Whether a line has ended. -/
def isBreaks : Pending → Bool
  | blanks _ => false
  | breaks .. => true

/-- Whether nothing is pending. -/
def isNone : Pending → Bool
  | blanks [] => true
  | _ => false

end Pending

/-- The meaning of a letter after a backslash. -/
def escaped? : Char → Option Char
  | '0' => some '\x00'
  | 'a' => some '\x07'
  | 'b' => some '\x08'
  | 't' => some '\t'
  | '\t' => some '\t'
  | 'n' => some '\n'
  | 'v' => some '\x0b'
  | 'f' => some '\x0c'
  | 'r' => some '\r'
  | 'e' => some '\x1b'
  | ' ' => some ' '
  | '"' => some '"'
  | '\'' => some '\''
  | '/' => some '/'
  | '\\' => some '\\'
  | 'N' => some '\u0085'
  | '_' => some '\u00A0'
  | 'L' => some '\u2028'
  | 'P' => some '\u2029'
  | _ => none

/-- How many digits of base sixteen follow a letter after a backslash. -/
def digitCount? : Char → Option Nat
  | 'x' => some 2
  | 'u' => some 4
  | 'U' => some 8
  | _ => none

/-- The character with the number that digits in base sixteen denote. -/
def numbered (count : Nat) (ds : List Char) : Except Problem Char :=
  match Scalar.digits? 16 0 ds with
  | none => .error .hexDigit
  | some n =>
    if ds.length < count then .error .hexDigit
    else if h : n.isValidChar then .ok (Char.ofNatAux n h) else .error .surrogate

/-- What a reader of scalars gives: the text and the rest, or a problem and where it is. -/
abbrev Result (α : Type) := Except (Problem × List Char) (α × List Char)

/-- Puts characters in front of a text that has been read. -/
def prepend {α : Type} (cs : List Char) (r : Result (List Char × α)) : Result (List Char × α) :=
  r.map fun ((text, a), rest) => ((cs ++ text, a), rest)

/-- Reads a text in single or double quotes up to the closing one. Each character takes one unit of
`fuel`. -/
def quoted (double : Bool) : Nat → Pending → List Char → Result (List Char × Unit)
  | 0, _, cs => .error (.unterminated, cs)
  | _, _, [] => .error (.unterminated, [])
  | fuel + 1, p, c :: cs =>
    match lineBreak? (c :: cs) with
    | some (b, rest) =>
      if atMarker rest then .error (.marker, rest) else quoted double fuel (p.addBreak b) rest
    | none =>
      if isBlank c then quoted double fuel (p.addBlank c) cs
      else if double then
        if c == '"' then .ok ((p.settle, ()), cs)
        else if c == '\\' then
          match lineBreak? cs, cs with
          | some (_, rest), _ =>
            if atMarker rest then .error (.marker, rest)
            else prepend p.settle (quoted double fuel (.breaks none []) rest)
          | none, [] => .error (.unknownEscape, c :: cs)
          | none, e :: rest =>
            match digitCount? e, escaped? e with
            | some n, _ =>
              match numbered n (rest.take n) with
              | .ok d => prepend (p.settle ++ [d]) (quoted double fuel (.blanks []) (rest.drop n))
              | .error e => .error (e, rest)
            | none, some d => prepend (p.settle ++ [d]) (quoted double fuel (.blanks []) rest)
            | none, none => .error (.unknownEscape, c :: cs)
        else prepend (p.settle ++ [c]) (quoted double fuel (.blanks []) cs)
      else if c == '\'' then
        match cs with
        | '\'' :: rest => prepend (p.settle ++ ['\'']) (quoted double fuel (.blanks []) rest)
        | _ => .ok ((p.settle, ()), cs)
      else prepend (p.settle ++ [c]) (quoted double fuel (.blanks []) cs)

/-- Whether a plain scalar ends before a character: before a colon that ends a word, and inside a flow
collection also before its indicators. -/
def endsPlain (flow : Bool) (c : Char) (next : Option Char) : Bool :=
  (c == ':' && endsWord next) || (flow && ",?[]\x7b\x7d".toList.contains c)

/-- Reads a plain scalar, also whether a line has ended after it. Further lines must be indented by
`indent`; `column` is the column of the first character. Each character takes one unit of `fuel`. -/
def plain (flow : Bool) (indent : Nat) : Nat → Nat → Pending → List Char → Result (List Char × Bool)
  | 0, _, p, cs => .ok (([], p.isBreaks), cs)
  | _, _, p, [] => .ok (([], p.isBreaks), [])
  | fuel + 1, column, p, c :: cs =>
    match lineBreak? (c :: cs) with
    | some (b, rest) => plain flow indent fuel 0 (p.addBreak b) rest
    | none =>
      if isBlank c then
        if p.isBreaks && column < indent && c == '\t' then .error (.tabInPlain, c :: cs)
        else plain flow indent fuel (column + 1) (p.addBlank c) cs
      else if (p.isBreaks && !flow && column < indent) || (column == 0 && atMarker (c :: cs))
          -- a comment, which has a blank or a line break before its sign
          || (c == '#' && !p.isNone) || endsPlain flow c cs.head? then
        .ok (([], p.isBreaks), c :: cs)
      else prepend (p.settle ++ [c]) (plain flow indent fuel (column + 1) (.blanks []) cs)

/-- What becomes of line breaks at the end of a block. -/
inductive Chomping where
  /-- They are dropped. -/
  | strip
  /-- One of them is kept. -/
  | clip
  | keep
deriving DecidableEq, Repr

/-- What the sign of a chomping stands for. -/
def Chomping.ofSign? : Char → Option Chomping
  | '-' => some .strip
  | '+' => some .keep
  | _ => none

/-- The sign of a chomping at the start of a text, and what follows. -/
def chomping? (cs : List Char) : Option Chomping × List Char :=
  match cs with
  | c :: rest =>
    match Chomping.ofSign? c with
    | some k => (some k, rest)
    | none => (none, cs)
  | [] => (none, cs)

/-- The digit of an indentation at the start of a text, and what follows. -/
def indentDigit? (cs : List Char) : Except Problem (Option Nat × List Char) :=
  match cs with
  | c :: rest =>
    if c == '0' then .error .zeroIndent
    else if c.isDigit then .ok (some (Number.Whole.digitValue c), rest)
    else .ok (none, cs)
  | [] => .ok (none, cs)

/-- The marks after the sign of a block, in either order, and what follows. -/
def blockMarks (cs : List Char) : Except Problem (Chomping × Option Nat × List Char) := do
  match chomping? cs with
  | (some k, rest) =>
    let (indent, rest) ← indentDigit? rest
    return (k, indent, rest)
  | (none, rest) =>
    let (indent, rest) ← indentDigit? rest
    if indent.isNone then return (.clip, none, rest)
    let (k, rest) := chomping? rest
    return (k.getD .clip, indent, rest)

/-- Passes over the indentation of a line and over empty lines. The indentation may not be known yet; the
deepest one so far is then `deepest`. Gives that, the breaks, and what follows. -/
def emptyLines (indent : Option Nat) : Nat → Nat → List Char → Input →
    Except (Problem × Input) (Nat × List Char × Input)
  | 0, deepest, breaks, i => .ok (deepest, breaks, i)
  | fuel + 1, deepest, breaks, i =>
    let spaces := (i.rest.takeWhile (· == ' ')).length
    let i := i.skip (match indent with
      | some n => min spaces (n - i.mark.column)
      | none => spaces)
    let deepest := max deepest i.mark.column
    if (indent.all (i.mark.column < ·)) && i.rest.head? == some '\t' then
      .error (.tabInBlock, i)
    else match i.lineBreak? with
      | some (c, i) => emptyLines indent fuel deepest (breaks ++ [c]) i
      | none => .ok (deepest, breaks, i)

/-- What has been read of a block. -/
structure Lines where
  text : List Char := []
  /-- The break after the last line, if it is there. -/
  lineEnd : List Char := []
  /-- The breaks of the empty lines after it. -/
  emptyEnds : List Char := []
  /-- Whether the last line begins with a blank. -/
  startsBlank : Bool := false

/-- What stands between the lines so far and a further one. In a folded block the break between two
lines that do not begin with a blank counts as one, unless empty lines follow. -/
def Lines.joint (literal : Bool) (l : Lines) (startsBlank : Bool) : List Char :=
  (if !literal && !l.startsBlank && !startsBlank && l.lineEnd.head? == some '\n' then
    if l.emptyEnds.isEmpty then [' '] else []
  else l.lineEnd) ++ l.emptyEnds

/-- Reads the lines of a block. Each line takes one unit of `fuel`. -/
def blockLines (literal : Bool) (indent : Nat) : Nat → Lines → Input →
    Except (Problem × Input) (Lines × Input)
  | 0, l, i => .ok (l, i)
  | fuel + 1, l, i =>
    if i.mark.column ≠ indent || i.rest.isEmpty then .ok (l, i)
    else do
      let startsBlank := i.rest.head?.any isBlank
      let (line, i) := i.span (!isBreak ·)
      let (ends, i) := match i.lineBreak? with
        | some (c, i) => ([c], i)
        | none => ([], i)
      let (_, empties, i) ← emptyLines (some indent) (i.rest.length + 1) 0 [] i
      blockLines literal indent fuel
        ⟨l.text ++ l.joint literal startsBlank ++ line, ends, empties, startsBlank⟩ i

/-- Reads a block after its sign. `outer` is the column of the least possible indentation. -/
def block (literal : Bool) (outer : Nat) (i : Input) : Except (Problem × Input) (String × Input) := do
  let (chomping, step, rest) ← (blockMarks i.rest).mapError (·, i)
  let i := i.upTo rest
  let (_, i) := i.span isBlank
  let (_, i) := if i.rest.head? == some '#' then i.span (!isBreak ·) else ([], i)
  if !i.rest.isEmpty && i.lineBreak?.isNone then throw (.blockHeader, i)
  let i := match i.lineBreak? with
    | some (_, i) => i
    | none => i
  let known := step.map fun n => max 1 outer - 1 + n
  let (deepest, empties, j) ← emptyLines known (i.rest.length + 1) 0 [] i
  let indent := known.getD (max 1 (max deepest outer))
  let (l, j) ← blockLines literal indent (j.rest.length + 1) { emptyEnds := empties } j
  let ends := match chomping with
    | .strip => []
    | .clip => l.lineEnd
    | .keep => l.lineEnd ++ l.emptyEnds
  return (String.ofList (l.text ++ ends), j)

end IrDialects.Yaml.ScalarText
