/-!
# YAML texts

Characters of a YAML text, places in it, and what can be wrong with it.
-/

namespace IrDialects.Yaml

/-- The character that may mark the start of a text. -/
def byteOrderMark : Char := '\uFEFF'

/-- Whether a character may occur in a text. -/
def isAllowed (c : Char) : Bool :=
  c == '\t' || c == '\n' || c == '\r' || ('\x20' ≤ c && c ≤ '\x7e') || c == '\u0085'
    || ('\u00A0' ≤ c && c ≤ '\uFFFD') || '\uFFFF' < c

/-- A character that ends a line. -/
def isBreak (c : Char) : Bool :=
  c == '\n' || c == '\r' || c == '\u0085' || c == '\u2028' || c == '\u2029'

/-- A blank inside a line. -/
def isBlank (c : Char) : Bool := c == ' ' || c == '\t'

/-- Whether a word ends at a place: before a blank, a line break or the end of the text. -/
def endsWord (next : Option Char) : Bool := next.all fun c => isBlank c || isBreak c

/-- The line break at the start of a text, as it counts inside a scalar, and what follows. All breaks
count as the same one, except the separators of lines and paragraphs. -/
def lineBreak? : List Char → Option (Char × List Char)
  | '\r' :: '\n' :: rest => some ('\n', rest)
  | c :: rest =>
    if isBreak c then some (if c == '\u2028' || c == '\u2029' then c else '\n', rest) else none
  | [] => none

/-- Whether a text begins with the marker of a document, on a line that has just begun. -/
def startsDocument (marker : Char) : List Char → Bool
  | a :: b :: c :: rest => a == marker && b == marker && c == marker && endsWord rest.head?
  | _ => false

/-- Whether a text begins with a marker between documents. -/
def atMarker (cs : List Char) : Bool := startsDocument '-' cs || startsDocument '.' cs

/-- A place in a text, counted from zero. -/
structure Mark where
  index : Nat := 0
  line : Nat := 0
  column : Nat := 0
deriving DecidableEq, Repr

/-- The place after some characters. -/
def Mark.after : Mark → List Char → Mark
  | m, [] => m
  | m, '\r' :: '\n' :: cs => after ⟨m.index + 2, m.line + 1, 0⟩ cs
  | m, c :: cs =>
    after (if isBreak c then ⟨m.index + 1, m.line + 1, 0⟩ else ⟨m.index + 1, m.line, m.column + 1⟩) cs

/-- What is left of a text, and where that begins. -/
structure Input where
  mark : Mark := {}
  rest : List Char
deriving Repr

namespace Input

/-- The input after some characters of it. -/
def skip (n : Nat) (i : Input) : Input := ⟨i.mark.after (i.rest.take n), i.rest.drop n⟩

/-- The characters at the start that satisfy a test, and the input after them. -/
def span (test : Char → Bool) (i : Input) : List Char × Input :=
  let cs := i.rest.takeWhile test
  (cs, i.skip cs.length)

/-- The line break at the start, and the input after it. -/
def lineBreak? (i : Input) : Option (Char × Input) :=
  (Yaml.lineBreak? i.rest).map fun (c, rest) => (c, i.skip (i.rest.length - rest.length))

/-- The input that goes on with `rest`, which ends it. -/
def upTo (i : Input) (rest : List Char) : Input := i.skip (i.rest.length - rest.length)

end Input

/-- What can be wrong with a text. -/
inductive Problem where
  /-- There is no document. -/
  | empty
  | control
  | surrogate
  | unknownEscape
  | hexDigit
  | unterminated
  | marker
  | tabInPlain
  | tabInBlock
  | zeroIndent
  | blockHeader
  | noColon
  | noSequence
  | noKey
  | noValue
  | noToken
  | noAnchorName
  | unknownAnchor (name : String)
  | ownAnchor (name : String)
  | noContent
  | noDash
  | noEntryKey
  | noFlowItem
  | noFlowEntry
  | depth
  /-- Tags and directives have no meaning here. -/
  | unsupported
deriving DecidableEq, Repr

/-- How deeply collections may be nested. -/
def depthLimit : Nat := 10000

def Problem.words : Problem → String
  | empty => "EOF"
  | control => "control characters are not allowed"
  | surrogate => "found invalid Unicode character escape code"
  | unknownEscape => "found unknown escape character"
  | hexDigit => "did not find expected hexdecimal number"
  | unterminated => "found unexpected end of stream"
  | marker => "found unexpected document indicator"
  | tabInPlain => "found a tab character that violates indentation"
  | tabInBlock => "found a tab character where an indentation space is expected"
  | zeroIndent => "found an indentation indicator equal to 0"
  | blockHeader => "did not find expected comment or line break"
  | noColon => "could not find expected ':'"
  | noSequence => "block sequence entries are not allowed in this context"
  | noKey => "mapping keys are not allowed in this context"
  | noValue => "mapping values are not allowed in this context"
  | noToken => "found character that cannot start any token"
  | noAnchorName => "did not find expected alphabetic or numeric character"
  | unknownAnchor name => "unknown anchor '" ++ name ++ "' referenced"
  | ownAnchor name => "anchor '" ++ name ++ "' value contains itself"
  | noContent => "did not find expected node content"
  | noDash => "did not find expected '-' indicator"
  | noEntryKey => "did not find expected key"
  | noFlowItem => "did not find expected ',' or ']'"
  | noFlowEntry => "did not find expected ',' or '\x7d'"
  | depth => "exceeded max depth of " ++ toString depthLimit
  | unsupported => "tags and directives are not supported"

/-- Why a text is not a YAML document. -/
structure ReadFault where
  problem : Problem
  /-- The line that the message names, if any. -/
  line : Option Nat := none
deriving DecidableEq, Repr

namespace ReadFault

/-- The first of two lines that is not the first line of the text. -/
def shownLine? (context here : Nat) : Option Nat :=
  if context ≠ 0 then some context else if here ≠ 0 then some here else none

/-- A fault inside a token, which begins at `context`. -/
def inToken (problem : Problem) (context here : Nat) : ReadFault :=
  ⟨problem, (shownLine? context here).map (· + 1)⟩

/-- A fault between tokens, in a collection that begins at `context`. Lines are counted from zero
here. -/
def inNode (problem : Problem) (context here : Nat) : ReadFault := ⟨problem, shownLine? context here⟩

def message (f : ReadFault) : String :=
  match f.problem with
  | .empty => f.problem.words
  | _ =>
    "yaml: " ++ (match f.line with
      | some n => "line " ++ toString n ++ ": "
      | none => "") ++ f.problem.words

end ReadFault

end IrDialects.Yaml
