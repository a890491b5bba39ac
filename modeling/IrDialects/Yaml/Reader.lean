import IrDialects.Yaml.Token

/-!
# Reading YAML

A document is a scalar, a sequence or a mapping of nodes. A node knows the line on which it begins. Only
the first document of a text is read.
-/

namespace IrDialects.Yaml

/-- A node of a YAML document. -/
inductive Node where
  | scalar (line : Nat) (quoted : Bool) (text : String)
  | sequence (line : Nat) (items : List Node)
  | mapping (line : Nat) (entries : List (Node × Node))
deriving Repr, Inhabited

/-- The line on which a node begins, counted from one. -/
def Node.line : Node → Nat
  | scalar l _ _ | sequence l _ | mapping l _ => l

/-- A scalar without a text, where a node could stand. -/
def Node.missing (line : Nat) : Node := .scalar (line + 1) false ""

namespace Reader

/-- The state of reading nodes. -/
structure State where
  /-- The tokens that are left. -/
  tokens : List Token
  /-- The fault after the tokens, if there is one. -/
  fault : Option ReadFault
  /-- The nodes with anchors, latest first; a node that is still being read has no value yet. -/
  anchors : List (String × Option Node) := []

/-- A step of reading nodes. -/
abbrev Read := StateT State (Except ReadFault)

/-- The next token. Two tokens after it are looked at too, so a fault there comes first. -/
def peek : Read Token := do
  let s ← get
  match s.fault, s.tokens with
  | some f, [] => throw f
  | some f, [_] => throw f
  | some f, [_, _] => throw f
  | _, t :: _ => return t
  | none, [] => return ⟨.streamEnd, 0⟩

def advance : Read Unit := modify fun s => { s with tokens := s.tokens.tail }

/-- The node that a name refers to. -/
def refer (name : String) : Read Node := do
  match (← get).anchors.lookup name with
  | some (some n) => return n
  | some none => throw ⟨.ownAnchor name, none⟩
  | none => throw ⟨.unknownAnchor name, none⟩

def define (name : String) (n : Option Node) : Read Unit :=
  modify fun s => { s with anchors := (name, n) :: s.anchors }

/-- The anchor at the next token, if there is one. -/
def anchor? : Read (Option String) := do
  match (← peek).kind with
  | .anchor name =>
    advance
    define name none
    return some name
  | _ => return none

mutual

/-- Reads a node. Outside of flow collections it can be a block collection; as an entry of a block mapping
it can be a sequence with the indentation of the mapping. Every step into a collection or to its next
entry takes one unit of `fuel`. -/
def node (block aligned : Bool) : Nat → Read Node
  | 0 => throw ⟨.noContent, none⟩
  | fuel + 1 => do
    let first ← peek
    match first.kind with
    | .reference name =>
      advance
      refer name
    | _ =>
      let anchor ← anchor?
      let t ← peek
      let line := first.line + 1
      let n ← match t.kind with
        | .scalar quoted text => do
          advance
          pure (Node.scalar line quoted text)
        | .flowSequenceStart => do
          advance
          pure (Node.sequence line (← flowItems t.line true fuel))
        | .flowMappingStart => do
          advance
          pure (Node.mapping line (← flowEntries t.line true fuel))
        | .blockEntry =>
          if aligned then do pure (Node.sequence line (← alignedItems fuel))
          else throw (.inNode .noContent first.line t.line)
        | .blockSequenceStart =>
          if block then do
            advance
            pure (Node.sequence line (← blockItems t.line fuel))
          else throw (.inNode .noContent first.line t.line)
        | .blockMappingStart =>
          if block then do
            advance
            pure (Node.mapping line (← blockEntries t.line fuel))
          else throw (.inNode .noContent first.line t.line)
        | _ =>
          if anchor.isSome then pure (Node.missing first.line)
          else throw (.inNode .noContent first.line t.line)
      -- Until here the name stood for no node, so that no node contains itself.
      if let some name := anchor then define name (some n)
      return n
termination_by structural fuel => fuel

/-- Reads the items of a block sequence that begins at `context`. -/
def blockItems (context : Nat) : Nat → Read (List Node)
  | 0 => throw ⟨.noContent, none⟩
  | fuel + 1 => do
    let t ← peek
    match t.kind with
    | .blockEntry =>
      advance
      let x ← match (← peek).kind with
        | .blockEntry | .blockEnd => pure (Node.missing t.line)
        | _ => node true false fuel
      return x :: (← blockItems context fuel)
    | .blockEnd =>
      advance
      return []
    | _ => throw (.inNode .noDash context t.line)
termination_by structural fuel => fuel

/-- Reads the items of a sequence with the indentation of the mapping around it. -/
def alignedItems : Nat → Read (List Node)
  | 0 => throw ⟨.noContent, none⟩
  | fuel + 1 => do
    let t ← peek
    match t.kind with
    | .blockEntry =>
      advance
      let x ← match (← peek).kind with
        | .blockEntry | .key | .value | .blockEnd => pure (Node.missing t.line)
        | _ => node true false fuel
      return x :: (← alignedItems fuel)
    | _ => return []
termination_by structural fuel => fuel

/-- Reads the entries of a block mapping that begins at `context`. -/
def blockEntries (context : Nat) : Nat → Read (List (Node × Node))
  | 0 => throw ⟨.noContent, none⟩
  | fuel + 1 => do
    let t ← peek
    match t.kind with
    | .key =>
      advance
      let k ← match (← peek).kind with
        | .key | .value | .blockEnd => pure (Node.missing t.line)
        | _ => node true true fuel
      let c ← peek
      let v ← match c.kind with
        | .value => do
          advance
          match (← peek).kind with
          | .key | .value | .blockEnd => pure (Node.missing c.line)
          | _ => node true true fuel
        | _ => pure (Node.missing c.line)
      return (k, v) :: (← blockEntries context fuel)
    | .blockEnd =>
      advance
      return []
    | _ => throw (.inNode .noEntryKey context t.line)
termination_by structural fuel => fuel

/-- Reads the items of a flow sequence that begins at `context`; `start` says that none has been read. An
item can be a mapping with a single entry. -/
def flowItems (context : Nat) (start : Bool) : Nat → Read (List Node)
  | 0 => throw ⟨.noContent, none⟩
  | fuel + 1 => do
    let t ← peek
    match t.kind with
    | .flowSequenceEnd =>
      advance
      return []
    | _ =>
      if !start then
        if t.kind != .flowEntry then throw (.inNode .noFlowItem context t.line)
        advance
      let t ← peek
      match t.kind with
      | .flowSequenceEnd =>
        advance
        return []
      | .key =>
        advance
        let e ← singleEntry fuel
        return .mapping (t.line + 1) [e] :: (← flowItems context false fuel)
      | _ =>
        let x ← node false false fuel
        return x :: (← flowItems context false fuel)
termination_by structural fuel => fuel

/-- Reads the entry of a mapping that is an item of a flow sequence. -/
def singleEntry : Nat → Read (Node × Node)
  | 0 => throw ⟨.noContent, none⟩
  | fuel + 1 => do
    let t ← peek
    let k ← match t.kind with
      | .value | .flowEntry | .flowSequenceEnd => do
        advance
        pure (Node.missing t.line)
      | _ => node false false fuel
    let c ← peek
    match c.kind with
    | .value =>
      advance
      match (← peek).kind with
      | .flowEntry | .flowSequenceEnd => return (k, .missing c.line)
      | _ => return (k, ← node false false fuel)
    | _ => return (k, .missing c.line)
termination_by structural fuel => fuel

/-- Reads the entries of a flow mapping that begins at `context`; `start` says that none has been
read. -/
def flowEntries (context : Nat) (start : Bool) : Nat → Read (List (Node × Node))
  | 0 => throw ⟨.noContent, none⟩
  | fuel + 1 => do
    let t ← peek
    match t.kind with
    | .flowMappingEnd =>
      advance
      return []
    | _ =>
      if !start then
        if t.kind != .flowEntry then throw (.inNode .noFlowEntry context t.line)
        advance
      let t ← peek
      match t.kind with
      | .flowMappingEnd =>
        advance
        return []
      | .key =>
        advance
        let c ← peek
        let k ← match c.kind with
          | .value | .flowEntry | .flowMappingEnd => pure (Node.missing c.line)
          | _ => node false false fuel
        let c ← peek
        let v ← match c.kind with
          | .value => do
            advance
            match (← peek).kind with
            | .flowEntry | .flowMappingEnd => pure (Node.missing c.line)
            | _ => node false false fuel
          | _ => pure (Node.missing c.line)
        return (k, v) :: (← flowEntries context false fuel)
      | _ =>
        let k ← node false false fuel
        let v := Node.missing (← peek).line
        return (k, v) :: (← flowEntries context false fuel)
termination_by structural fuel => fuel

end

def document (fuel : Nat) : Read Node := do
  let n ← match (← peek).kind with
    | .streamEnd => throw ⟨.empty, none⟩
    | .documentStart => do
      advance
      let t ← peek
      match t.kind with
      | .documentStart | .documentEnd | .streamEnd => pure (Node.missing t.line)
      | _ => node true false fuel
    | _ => node true false fuel
  let _ ← peek
  return n

end Reader

/-- The text without the mark at its start. -/
def dropMark : List Char → List Char
  | [] => []
  | c :: cs => if c == byteOrderMark then cs else c :: cs

def read (s : String) : Except ReadFault Node :=
  let cs := dropMark s.toList
  if !cs.all isAllowed then .error ⟨.control, none⟩
  else
    let (tokens, fault) := Token.ofChars cs
    (Reader.document (2 * tokens.length + 2)).run' { tokens := tokens, fault := fault }

end IrDialects.Yaml
