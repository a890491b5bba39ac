import IrDialects.Json.Reader

/-!
# Writing JSON

The compact text of a value keeps the order of members; the canonical text sorts them by the UTF-16
code units of their keys and leaves the line separators U+2028 and U+2029 unescaped. Where an object
repeats a key, every member with the key gets the value of the first one.
-/

namespace IrDialects.Json

/-- Where in a value a number stands that has no JSON spelling. -/
inductive WriteFault where
  | badNumber (spelling : String)
  | inItem (index : Nat) (fault : WriteFault)
  | inMember (key : String) (fault : WriteFault)
deriving DecidableEq, Repr

def WriteFault.message : WriteFault → String
  | .badNumber s => "invalid number " ++ Text.Quoted.quote s
  | .inItem i f => "array[" ++ toString i ++ "]: " ++ f.message
  | .inMember k f => "value for key " ++ Text.Quoted.quote k ++ ": " ++ f.message

namespace Writer

/-- Every key with the value of its first member. -/
def firstValues (ms : Members) : Members := ms.map fun (k, v) => (k, (get? ms k).getD v)

mutual

/-- The value with the first member's value at every repeated key. -/
def settle : Json → Json
  | .array vs => .array (settleItems vs)
  | .object ms => .object (firstValues (settleMembers ms))
  | v => v

/-- The items of an array, settled one by one. -/
def settleItems : List Json → List Json
  | [] => []
  | v :: vs => settle v :: settleItems vs

/-- The members of an object, settled one by one. -/
def settleMembers : List (String × Json) → List (String × Json)
  | [] => []
  | (k, v) :: ms => (k, settle v) :: settleMembers ms

end

/-- Members in the order of the UTF-16 code units of their keys. -/
def sortMembers (ms : Members) : Members := ms.mergeSort fun a b => Text.Units.textLe a.1 b.1

mutual

/-- The value with the members of every object sorted. -/
def sort : Json → Json
  | .array vs => .array (sortItems vs)
  | .object ms => .object (sortMembers (sortEach ms))
  | v => v

/-- The items of an array, sorted inside. -/
def sortItems : List Json → List Json
  | [] => []
  | v :: vs => sort v :: sortItems vs

/-- The members of an object, sorted inside. -/
def sortEach : List (String × Json) → List (String × Json)
  | [] => []
  | (k, v) :: ms => (k, sort v) :: sortEach ms

end

mutual

/-- The first number of a value that has no JSON spelling. -/
def fault? : Json → Option WriteFault
  | .number s => if Reader.isStrictText s then none else some (.badNumber s)
  | .array vs => faultInItems? 0 vs
  | .object ms => faultInMembers? ms
  | _ => none

/-- The first such number among items, counted from `i`. -/
def faultInItems? (i : Nat) : List Json → Option WriteFault
  | [] => none
  | v :: vs => ((fault? v).map (.inItem i)).or (faultInItems? (i + 1) vs)

/-- The first such number among members. -/
def faultInMembers? : List (String × Json) → Option WriteFault
  | [] => none
  | (k, v) :: ms => ((fault? v).map (.inMember k)).or (faultInMembers? ms)

end

/-- What the two texts of a value differ in. -/
structure Style where
  /-- Whether U+2028 and U+2029 are escaped. -/
  escapeSeparators : Bool
deriving DecidableEq, Repr

def escapeChar (st : Style) (c : Char) : List Char :=
  if c = '"' then ['\\', '"']
  else if c = '\\' then ['\\', '\\']
  else if c = '\x08' then ['\\', 'b']
  else if c = '\x0c' then ['\\', 'f']
  else if c = '\n' then ['\\', 'n']
  else if c = '\r' then ['\\', 'r']
  else if c = '\t' then ['\\', 't']
  else if c.toNat < 0x20 || (st.escapeSeparators && (c = '\u2028' || c = '\u2029')) then
    '\\' :: 'u' :: Text.Quoted.hex 4 c.toNat
  else [c]

/-- A string with its quotation marks, in front of `rest`. -/
def string (st : Style) (s : String) (rest : List Char) : List Char :=
  '"' :: (s.toList.flatMap (escapeChar st) ++ '"' :: rest)

mutual

/-- The text of a value, in front of `rest`. -/
def value (st : Style) : Json → List Char → List Char
  | .null, rest => 'n' :: 'u' :: 'l' :: 'l' :: rest
  | .bool true, rest => 't' :: 'r' :: 'u' :: 'e' :: rest
  | .bool false, rest => 'f' :: 'a' :: 'l' :: 's' :: 'e' :: rest
  | .number s, rest => s.toList ++ rest
  | .string s, rest => string st s rest
  | .array [], rest => '[' :: ']' :: rest
  | .array (v :: vs), rest => '[' :: value st v (items st vs (']' :: rest))
  | .object [], rest => '\x7b' :: '\x7d' :: rest
  | .object ((k, v) :: ms), rest =>
    '\x7b' :: string st k (':' :: value st v (members st ms ('\x7d' :: rest)))

/-- The texts of further items, in front of `rest`. -/
def items (st : Style) : List Json → List Char → List Char
  | [], rest => rest
  | v :: vs, rest => ',' :: value st v (items st vs rest)

/-- The texts of further members, in front of `rest`. -/
def members (st : Style) : List (String × Json) → List Char → List Char
  | [], rest => rest
  | (k, v) :: ms, rest => ',' :: string st k (':' :: value st v (members st ms rest))

end

/-- The text of a value all of whose numbers can be written. -/
def text (st : Style) (v : Json) : Except WriteFault String :=
  match fault? v with
  | some f => .error f
  | none => .ok (String.ofList (value st v []))

end Writer

/-- The compact text of a value. -/
def marshal (v : Json) : Except WriteFault String := Writer.text ⟨true⟩ (Writer.settle v)

/-- The canonical text of a value. -/
def canonical (v : Json) : Except WriteFault String :=
  Writer.text ⟨false⟩ (Writer.sort (Writer.settle v))

end IrDialects.Json
