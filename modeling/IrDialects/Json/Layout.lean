import IrDialects.Json.Reader

/-!
# Indented JSON

Laying out a JSON text over several lines. The text is cut into an outline whose strings and numbers
keep their spelling, and the outline is written with two blanks a level; a container without contents
stays on its line.
-/

namespace IrDialects.Json

/-- A JSON text as nested pieces of text. -/
inductive Outline where
  | scalar (text : List Char)
  | array (items : List Outline)
  | object (members : List (List Char × Outline))
deriving Repr

/-- Why a text cannot be laid out. The character is the one found, or `none` at the end. -/
inductive LayoutFault where
  | empty
  | unexpected (found : Option Char)
  | afterItem (found : Option Char)
  | afterKey (found : Option Char)
  | afterMember (found : Option Char)
  | afterValue (found : Option Char)
  | notString (found : Option Char)
  | unclosedString
  | badNumber (text : String) (fault : Number.Fault)
  | cutWord (word : String)
  | wrongWord (word : String)
deriving DecidableEq, Repr

/-- How a message shows a character: the one with the number of its first byte, NUL at the end. -/
def LayoutFault.shown : Option Char → String
  | none => "\x00"
  | some c => match Text.Bytes.encode (String.singleton c) with
    | b :: _ => String.singleton (Char.ofNat b.toNat)
    | [] => "\x00"

def LayoutFault.message : LayoutFault → String
  | .empty => "json:  unexpected end of JSON input"
  | .unexpected c => "unexpected character '" ++ shown c ++ "'"
  | .afterItem c => "invalid character '" ++ shown c ++ "' after array value"
  | .afterKey c => "invalid character '" ++ shown c ++ "' after object key"
  | .afterMember c => "invalid character '" ++ shown c ++ "' after object key:value pair"
  | .afterValue c => "invalid character '" ++ shown c ++ "' after top-level value"
  | .notString none => "json: invalid character as string"
  | .notString (some c) => "json: invalid character " ++ shown (some c) ++ " as string"
  | .unclosedString => "json: string unexpected end of JSON input"
  | .badNumber s f => f.message "ParseFloat" s
  | .cutWord w => "json: " ++ w ++ " unexpected end of JSON input"
  | .wrongWord w => "json: invalid character " ++ String.ofList (w.toList.take 1) ++ " as " ++ w

namespace Layout

/-- A string after its opening quotation mark up to the closing one, and what follows. -/
def closeString : List Char → Except LayoutFault (List Char × List Char)
  | [] => .error .unclosedString
  | '"' :: rest => .ok (['"'], rest)
  | '\\' :: e :: rest => (closeString rest).map fun (s, rest) => ('\\' :: e :: s, rest)
  | c :: rest => (closeString rest).map fun (s, rest) => (c :: s, rest)

/-- A string with its quotation marks, and what follows. -/
def string : List Char → Except LayoutFault (List Char × List Char)
  | '"' :: rest => (closeString rest).map fun (s, rest) => ('"' :: s, rest)
  | cs => .error (.notString cs.head?)

/-- A number, and what follows. -/
def number (cs : List Char) : Except LayoutFault (Outline × List Char) :=
  let run := String.ofList (cs.takeWhile Reader.isNumberChar)
  match (Number.Numeral.read run).toExcept with
  | .ok _ => .ok (.scalar run.toList, cs.dropWhile Reader.isNumberChar)
  | .error f => .error (.badNumber run f)

/-- A fixed word, and what follows. -/
def word (w : String) (cs : List Char) : Except LayoutFault (Outline × List Char) :=
  if w.toList.isPrefixOf cs then .ok (.scalar w.toList, cs.drop w.length)
  else if (String.ofList (cs.take w.length)).utf8ByteSize + 2 ≤ w.length then .error (.cutWord w)
  else .error (.wrongWord w)

mutual

/-- The outline of a value, and what follows. -/
def value : Nat → List Char → Except LayoutFault (Outline × List Char)
  | 0, cs => .error (.unexpected cs.head?)
  | fuel + 1, cs =>
    match Reader.skipBlanks cs with
    | '\x7b' :: rest =>
      match Reader.skipBlanks rest with
      | '\x7d' :: rest => .ok (.object [], rest)
      | rest => (members fuel rest).map fun (ms, rest) => (.object ms, rest)
    | '[' :: rest =>
      match Reader.skipBlanks rest with
      | ']' :: rest => .ok (.array [], rest)
      | rest => (items fuel rest).map fun (vs, rest) => (.array vs, rest)
    | '"' :: rest => (string ('"' :: rest)).map fun (s, rest) => (.scalar s, rest)
    | 't' :: rest => word "true" ('t' :: rest)
    | 'f' :: rest => word "false" ('f' :: rest)
    | 'n' :: rest => word "null" ('n' :: rest)
    | [] => .error (.unexpected none)
    | c :: rest =>
      if c.isDigit || c == '-' then number (c :: rest) else .error (.unexpected (some c))

/-- The outlines of the items of an array up to its closing bracket, and what follows. -/
def items : Nat → List Char → Except LayoutFault (List Outline × List Char)
  | 0, cs => .error (.unexpected cs.head?)
  | fuel + 1, cs => do
    let (v, rest) ← value fuel cs
    match Reader.skipBlanks rest with
    | ']' :: rest => return ([v], rest)
    | ',' :: rest =>
      let (vs, rest) ← items fuel rest
      return (v :: vs, rest)
    | rest => throw (.afterItem rest.head?)

/-- The outlines of the members of an object up to its closing brace, and what follows. -/
def members : Nat → List Char → Except LayoutFault (List (List Char × Outline) × List Char)
  | 0, cs => .error (.unexpected cs.head?)
  | fuel + 1, cs => do
    let (k, rest) ← string (Reader.skipBlanks cs)
    match Reader.skipBlanks rest with
    | ':' :: rest =>
      let (v, rest) ← value fuel rest
      match Reader.skipBlanks rest with
      | '\x7d' :: rest => return ([(k, v)], rest)
      | ',' :: rest =>
        let (ms, rest) ← members fuel rest
        return ((k, v) :: ms, rest)
      | rest => throw (.afterMember rest.head?)
    | rest => throw (.afterKey rest.head?)

end

/-- The start of a line at a level of nesting. -/
def newLine (level : Nat) : String := "\n" ++ String.ofList (List.replicate (2 * level) ' ')

mutual

/-- The text of an outline at a level of nesting. -/
def render (level : Nat) : Outline → String
  | .scalar s => String.ofList s
  | .array [] => "[]"
  | .array (v :: vs) =>
    "[" ++ newLine (level + 1) ++ render (level + 1) v ++ renderItems (level + 1) vs
      ++ newLine level ++ "]"
  | .object [] => "\x7b\x7d"
  | .object ((k, v) :: ms) =>
    "\x7b" ++ newLine (level + 1) ++ String.ofList k ++ ": " ++ render (level + 1) v
      ++ renderMembers (level + 1) ms ++ newLine level ++ "\x7d"

/-- The texts of further items. -/
def renderItems (level : Nat) : List Outline → String
  | [] => ""
  | v :: vs => "," ++ newLine level ++ render level v ++ renderItems level vs

/-- The texts of further members. -/
def renderMembers (level : Nat) : List (List Char × Outline) → String
  | [] => ""
  | (k, v) :: ms =>
    "," ++ newLine level ++ String.ofList k ++ ": " ++ render level v ++ renderMembers level ms

end

def outline (cs : List Char) : Except LayoutFault Outline := do
  if cs.isEmpty then throw .empty
  let (v, rest) ← value (2 * cs.length + 2) (Reader.upToNul cs)
  match Reader.skipBlanks rest with
  | [] => return v
  | c :: _ => throw (.afterValue (some c))

end Layout

/-- A JSON text laid out over several lines. -/
def indent (s : String) : Except LayoutFault String :=
  (Layout.outline s.toList).map (Layout.render 0)

end IrDialects.Json
