import IrDialects.Json.Basic
import IrDialects.Text.Bytes
import IrDialects.Text.Pieces

/-!
# Field names

Fields have hyphenated names such as `then-branch`; documents may also spell them in camel case,
`thenBranch`. Capitals are made byte by byte, so a word that begins with a character beyond ASCII
leaves bytes that are no text, and such a name has no second spelling.
-/

namespace IrDialects.FieldName

/-- The bytes of a word with a capital first byte. A first byte that is no ASCII character is replaced
by the bytes of U+FFFD. -/
def capitalBytes : List Char → List UInt8
  | [] => []
  | c :: cs =>
    let rest := Text.Bytes.encode (String.ofList cs)
    if c.toNat < 0x80 then UInt8.ofNat c.toUpper.toNat :: rest
    else Text.Bytes.encode (String.singleton Text.Bytes.replacement)
      ++ (Text.Bytes.encode (String.singleton c)).drop 1 ++ rest

/-- The bytes of a field name in camel case. -/
def camelBytes (s : String) : List UInt8 :=
  match Text.pieces '-' s.toList with
  | [] => []
  | w :: ws => Text.Bytes.encode (String.ofList w) ++ ws.flatMap capitalBytes

/-- A word with a capital first letter, if that is a text. -/
def capital? : List Char → Option (List Char)
  | [] => some []
  | c :: cs => if c.toNat < 0x80 then some (c.toUpper :: cs) else none

/-- A field name in camel case, if that is a text. -/
def camel? (s : String) : Option String :=
  match Text.pieces '-' s.toList with
  | [] => some ""
  | w :: ws => (ws.mapM capital?).map fun ws => String.ofList (w ++ ws.flatten)

/-- The value of a field and the key under which it stands. -/
def find? (members : Members) (name : String) : Option (String × Json) :=
  match Json.get? members name with
  | some v => some (name, v)
  | none => do
    let key ← camel? name
    let v ← Json.get? members key
    return (key, v)

end IrDialects.FieldName
