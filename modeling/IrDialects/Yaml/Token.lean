import IrDialects.Yaml.ScalarText

/-!
# Tokens

A text is cut into tokens. The indentation of lines is turned into tokens that open and close block
collections. What may be a key of one line is known as such only when its colon is found; the token for
the key is then put in front of it.
-/

namespace IrDialects.Yaml

/-- What a token is. -/
inductive TokenKind where
  | streamEnd
  | documentStart
  | documentEnd
  | blockSequenceStart
  | blockMappingStart
  | blockEnd
  | flowSequenceStart
  | flowSequenceEnd
  | flowMappingStart
  | flowMappingEnd
  | blockEntry
  | flowEntry
  | key
  | value
  | anchor (name : String)
  | reference (name : String)
  | scalar (quoted : Bool) (text : String)
deriving DecidableEq, Repr

/-- A token and the line on which it begins, counted from zero. -/
structure Token where
  kind : TokenKind
  line : Nat
deriving DecidableEq, Repr

/-- Something that is a key if a colon follows it. -/
structure PossibleKey where
  /-- Whether it can be nothing but a key. -/
  required : Bool
  /-- Where its token stands among the tokens. -/
  position : Nat
  mark : Mark
deriving DecidableEq, Repr

/-- The state of cutting a text into tokens. -/
structure Scanner where
  input : Input
  tokens : Array Token := #[]
  /-- The indentations of the open block collections, innermost first. -/
  levels : List Nat := []
  /-- Whether a key may begin here. -/
  keyAllowed : Bool := true
  /-- The possible key of every open flow collection, innermost first, and last that outside of all. -/
  keys : List (Option PossibleKey) := [none]

namespace Scanner

/-- Whether a flow collection is open. -/
def inFlow (s : Scanner) : Bool := 1 < s.keys.length

/-- The place of the next character. -/
def mark (s : Scanner) : Mark := s.input.mark

/-- The least indentation of what belongs to the innermost block collection. -/
def indent (s : Scanner) : Nat :=
  match s.levels with
  | [] => 0
  | n :: _ => n + 1

/-- A fault in a token that begins on a line. -/
def fault (s : Scanner) (problem : Problem) (context : Nat) : ReadFault :=
  .inToken problem context s.mark.line

/-- A fault right here. -/
def faultHere (s : Scanner) (problem : Problem) : ReadFault := s.fault problem s.mark.line

/-- One more token. -/
def push (s : Scanner) (kind : TokenKind) (line : Nat) : Scanner :=
  { s with tokens := s.tokens.push ⟨kind, line⟩ }

/-- A token in front of those from a position on. -/
def insert (s : Scanner) (position : Nat) (kind : TokenKind) (line : Nat) : Scanner :=
  { s with tokens := (s.tokens.extract 0 position).push ⟨kind, line⟩
      ++ s.tokens.extract position s.tokens.size }

/-- One more token of some characters. -/
def take (s : Scanner) (n : Nat) (kind : TokenKind) : Scanner :=
  { s.push kind s.mark.line with input := s.input.skip n }

/-- Gives up the possible key; one that is required cannot be given up. -/
def dropKey (s : Scanner) : Except ReadFault Scanner :=
  match s.keys with
  | some k :: ks =>
    if k.required then .error (s.fault .noColon k.mark.line) else .ok { s with keys := none :: ks }
  | _ => .ok s

/-- Remembers that a key may begin here. -/
def saveKey (s : Scanner) : Except ReadFault Scanner :=
  if s.keyAllowed then do
    let required := !s.inFlow && s.levels.head? == some s.mark.column
    let s ← s.dropKey
    return { s with keys := some ⟨required, s.tokens.size, s.mark⟩ :: s.keys.tail }
  else .ok s

/-- Whether a key can still end here: keys have one line and are not long. -/
def inReach (s : Scanner) (k : PossibleKey) : Bool :=
  k.mark.line == s.mark.line && s.mark.index ≤ k.mark.index + 1024

/-- The possible key that ends here. -/
def findKey (s : Scanner) : Except ReadFault (Option PossibleKey) :=
  match s.keys with
  | some k :: _ =>
    if s.inReach k then .ok (some k)
    else if k.required then .error (s.fault .noColon k.mark.line)
    else .ok none
  | _ => .ok none

/-- Opens a block collection at a column, if that is deeper than those that are open. Its token stands at
the given position. -/
def openBlock (s : Scanner) (column position : Nat) (kind : TokenKind) (line : Nat) :
    Except ReadFault Scanner :=
  if s.inFlow || !s.levels.head?.all (· < column) then .ok s
  else if depthLimit ≤ s.levels.length then .error (s.fault .depth line)
  else .ok { s.insert position kind line with levels := column :: s.levels }

/-- Closes the block collections that are deeper than a column, or all of them. -/
def closeBlocks (s : Scanner) (column : Option Nat) (line : Nat) : Scanner :=
  if s.inFlow then s
  else
    let levels := s.levels.dropWhile fun l => column.all (· < l)
    let closed := List.replicate (s.levels.length - levels.length) (Token.mk .blockEnd line)
    { s with levels := levels, tokens := s.tokens ++ closed.toArray }

/-- Passes over blanks, comments and line breaks. A tab is no blank where a key may begin. Outside of flow
collections a key may begin after a line break. -/
def skipBlanks (flow : Bool) : Nat → Bool → Input → Bool × Input
  | 0, allowed, i => (allowed, i)
  | fuel + 1, allowed, i =>
    let i := if i.mark.column == 0 && i.rest.head? == some byteOrderMark then i.skip 1 else i
    let (_, i) := i.span fun c => c == ' ' || (c == '\t' && (flow || !allowed))
    let (_, i) := if i.rest.head? == some '#' then i.span (!isBreak ·) else ([], i)
    match i.lineBreak? with
    | some (_, i) => skipBlanks flow fuel (allowed || !flow) i
    | none => (allowed, i)

/-- The end of the text, which counts as the start of a line. -/
def endStream (s : Scanner) : Except ReadFault Scanner := do
  let m := s.mark
  let m := if m.column == 0 then m else ⟨m.index, m.line + 1, 0⟩
  let s := { s with input := ⟨m, []⟩ }
  let s ← (s.closeBlocks none m.line).dropKey
  return { s with keyAllowed := false }.push .streamEnd m.line

/-- A marker between documents. -/
def documentMarker (s : Scanner) (kind : TokenKind) : Except ReadFault Scanner := do
  let s ← (s.closeBlocks none s.mark.line).dropKey
  return { s with keyAllowed := false }.take 3 kind

/-- The start of a flow collection. -/
def openFlow (s : Scanner) (kind : TokenKind) : Except ReadFault Scanner := do
  let s ← s.saveKey
  if depthLimit < s.keys.length then throw (s.faultHere .depth)
  return { s with keyAllowed := true, keys := none :: s.keys }.take 1 kind

/-- The end of a flow collection. -/
def closeFlow (s : Scanner) (kind : TokenKind) : Except ReadFault Scanner := do
  let s ← s.dropKey
  let keys := if s.inFlow then s.keys.tail else s.keys
  return { s with keyAllowed := false, keys := keys }.take 1 kind

/-- A comma inside a flow collection. -/
def flowComma (s : Scanner) : Except ReadFault Scanner := do
  let s ← s.dropKey
  return { s with keyAllowed := true }.take 1 .flowEntry

/-- The dash of an item. Inside a flow collection it is left to the reader of nodes. -/
def dash (s : Scanner) : Except ReadFault Scanner := do
  if !s.inFlow && !s.keyAllowed then throw (s.faultHere .noSequence)
  let s ← s.openBlock s.mark.column s.tokens.size .blockSequenceStart s.mark.line
  let s ← s.dropKey
  return { s with keyAllowed := true }.take 1 .blockEntry

/-- A question mark in front of a key. -/
def questionMark (s : Scanner) : Except ReadFault Scanner := do
  if !s.inFlow && !s.keyAllowed then throw (s.faultHere .noKey)
  let s ← s.openBlock s.mark.column s.tokens.size .blockMappingStart s.mark.line
  let s ← s.dropKey
  return { s with keyAllowed := !s.inFlow }.take 1 .key

/-- A colon after a key. -/
def colon (s : Scanner) : Except ReadFault Scanner := do
  match ← s.findKey with
  | some k =>
    -- What stands before the colon was not known to be a key when it was read.
    let s := { s.insert k.position .key k.mark.line with keys := none :: s.keys.tail }
    let s ← s.openBlock k.mark.column k.position .blockMappingStart k.mark.line
    return { s with keyAllowed := false }.take 1 .value
  | none =>
    let s := { s with keys := none :: s.keys.tail }
    if !s.inFlow && !s.keyAllowed then throw (s.faultHere .noValue)
    let s ← s.openBlock s.mark.column s.tokens.size .blockMappingStart s.mark.line
    return { s with keyAllowed := !s.inFlow }.take 1 .value

/-- A character of the name of an anchor. -/
def isNameChar (c : Char) : Bool := c.isAlphanum || c == '_' || c == '-'

/-- The name of an anchor, after its sign. -/
def name (s : Scanner) (kind : String → TokenKind) : Except ReadFault Scanner := do
  let s ← s.saveKey
  let line := s.mark.line
  let (cs, input) := (s.input.skip 1).span isNameChar
  let ends := endsWord input.rest.head?
    || input.rest.head?.any fun c => "?:,]\x7d%@\x60".toList.contains c
  if cs.isEmpty || !ends then throw ({ s with input := input }.fault .noAnchorName line)
  return { s.push (kind (String.ofList cs)) line with input := input, keyAllowed := false }

/-- A scalar in quotes. -/
def quotedScalar (s : Scanner) (double : Bool) : Except ReadFault Scanner := do
  let s ← s.saveKey
  let line := s.mark.line
  let cs := s.input.rest.drop 1
  match ScalarText.quoted double (cs.length + 1) (.blanks []) cs with
  | .error (problem, rest) => throw ({ s with input := s.input.upTo rest }.fault problem line)
  | .ok ((text, _), rest) =>
    return { s.push (.scalar true (String.ofList text)) line with
      input := s.input.upTo rest, keyAllowed := false }

/-- A plain scalar. -/
def plainScalar (s : Scanner) : Except ReadFault Scanner := do
  let s ← s.saveKey
  let line := s.mark.line
  let cs := s.input.rest
  match ScalarText.plain s.inFlow s.indent (cs.length + 1) s.mark.column (.blanks []) cs with
  | .error (problem, rest) => throw ({ s with input := s.input.upTo rest }.fault problem line)
  | .ok ((text, lineEnded), rest) =>
    return { s.push (.scalar false (String.ofList text)) line with
      input := s.input.upTo rest, keyAllowed := lineEnded }

/-- A scalar as a block of lines. -/
def blockScalar (s : Scanner) (literal : Bool) : Except ReadFault Scanner := do
  let s ← s.dropKey
  let line := s.mark.line
  match ScalarText.block literal s.indent (s.input.skip 1) with
  | .error (problem, i) => throw ({ s with input := i }.fault problem line)
  | .ok (text, i) =>
    return { s.push (.scalar true text) line with input := i, keyAllowed := true }

/-- Whether a plain scalar can begin with a character. -/
def startsPlain (flow : Bool) (c : Char) (next : Option Char) : Bool :=
  if c == '-' then !next.any isBlank
  else if c == '?' || c == ':' then !flow && !endsWord next
  else !isBlank c && !(",[]\x7b\x7d#&*!|>'\"%@\x60".toList.contains c)

/-- The next token, with those that stand in front of it. -/
def step (s : Scanner) : Except ReadFault Scanner := do
  let line := s.mark.line
  let (allowed, input) := skipBlanks s.inFlow (s.input.rest.length + 1) s.keyAllowed s.input
  let s := { s with keyAllowed := allowed, input := input }.closeBlocks (some input.mark.column) line
  match input.rest with
  | [] => s.endStream
  | c :: cs =>
    let atStart := input.mark.column == 0
    let next := cs.head?
    if atStart && c == '%' then throw (s.faultHere .unsupported)
    -- A marker is told before the signs below: it would be a plain scalar as well.
    else if atStart && startsDocument '-' (c :: cs) then s.documentMarker .documentStart
    else if atStart && startsDocument '.' (c :: cs) then s.documentMarker .documentEnd
    else if c == '[' then s.openFlow .flowSequenceStart
    else if c == '\x7b' then s.openFlow .flowMappingStart
    else if c == ']' then s.closeFlow .flowSequenceEnd
    else if c == '\x7d' then s.closeFlow .flowMappingEnd
    else if c == ',' then s.flowComma
    else if c == '-' && endsWord next then s.dash
    else if c == '?' && (s.inFlow || endsWord next) then s.questionMark
    else if c == ':' && (s.inFlow || endsWord next) then s.colon
    else if c == '*' then s.name .reference
    else if c == '&' then s.name .anchor
    else if c == '!' then throw (s.faultHere .unsupported)
    else if c == '|' && !s.inFlow then s.blockScalar true
    else if c == '>' && !s.inFlow then s.blockScalar false
    else if c == '\'' then s.quotedScalar false
    else if c == '"' then s.quotedScalar true
    else if startsPlain s.inFlow c next then s.plainScalar
    else throw (s.faultHere .noToken)

/-- A required key that can no longer end. -/
def lostKey? (s : Scanner) : Option PossibleKey :=
  (s.keys.filterMap id).find? fun k => k.required && !s.inReach k

/-- All tokens from here on, and the fault after them, if there is one. Each token takes one unit of
`fuel`. -/
def run : Nat → Scanner → List Token × Option ReadFault
  | 0, s => (s.tokens.toList, none)
  | fuel + 1, s =>
    match s.step with
    | .error f => (s.tokens.toList, some f)
    | .ok s' =>
      match s'.lostKey? with
      | some k => (s'.tokens.toList.take k.position, some (s'.fault .noColon k.mark.line))
      | none =>
        if s'.tokens.back?.any (·.kind == .streamEnd) then (s'.tokens.toList, none) else run fuel s'

end Scanner

/-- The tokens of a text, up to a fault. -/
def Token.ofChars (cs : List Char) : List Token × Option ReadFault :=
  Scanner.run (cs.length + 2) { input := { rest := cs } }

end IrDialects.Yaml
