import IrDialects.Text.Units

/-!
# JSON values

Values keep what a document says: members stand in document order, and a number is its spelling.
Nothing here forbids an object to repeat a key; the first member with a key is the one that counts.
-/

namespace IrDialects

/-- A JSON value. -/
inductive Json where
  | null
  | bool (value : Bool)
  | number (spelling : String)
  | string (value : String)
  | array (items : List Json)
  | object (members : List (String × Json))
deriving Repr, Inhabited

abbrev Members := List (String × Json)

namespace Json

/-- The kinds of JSON values. -/
inductive Kind where
  | null
  | boolean
  | number
  | string
  | array
  | object
deriving DecidableEq, Repr

def Kind.name : Kind → String
  | .null => "null"
  | .boolean => "boolean"
  | .number => "number"
  | .string => "string"
  | .array => "array"
  | .object => "object"

def kind : Json → Kind
  | null => .null
  | bool _ => .boolean
  | number _ => .number
  | string _ => .string
  | array _ => .array
  | object _ => .object

/-- Whether a value is `null`. -/
def isNull : Json → Bool
  | null => true
  | _ => false

/-- Whether a value is `null` or a container without contents. -/
def isEmpty : Json → Bool
  | null => true
  | array items => items.isEmpty
  | object members => members.isEmpty
  | _ => false

/-- The value of the first member with a key. -/
def get? (members : Members) (key : String) : Option Json := members.lookup key

/-- The keys of an object in document order. -/
def keys (members : Members) : List String := members.map Prod.fst

/-- The keys of an object in the order of their UTF-16 code units. -/
def sortedKeys (members : Members) : List String := (keys members).mergeSort Text.Units.textLe

mutual

/-- How deeply containers are nested in a value. -/
def depth : Json → Nat
  | array items => depthItems items + 1
  | object members => depthMembers members + 1
  | _ => 0

/-- The greatest depth among the items of an array. -/
def depthItems : List Json → Nat
  | [] => 0
  | v :: vs => max (depth v) (depthItems vs)

/-- The greatest depth among the members of an object. -/
def depthMembers : List (String × Json) → Nat
  | [] => 0
  | (_, v) :: ms => max (depth v) (depthMembers ms)

end

mutual

/-- The first key that an object repeats, in the order in which the document shows it. -/
def repeatedKey? : Json → Option String
  | array items => repeatedInItems? items
  | object members => repeatedInMembers? [] members
  | _ => none

/-- The first repeated key among the items of an array. -/
def repeatedInItems? : List Json → Option String
  | [] => none
  | v :: vs => (repeatedKey? v).or (repeatedInItems? vs)

/-- The first repeated key among members, when the keys `seen` stand before them. -/
def repeatedInMembers? : List String → List (String × Json) → Option String
  | _, [] => none
  | seen, (k, v) :: ms =>
    if seen.contains k then some k
    else (repeatedKey? v).or (repeatedInMembers? (k :: seen) ms)

end

mutual

/-- Whether two values are equal, member order and number spelling included. -/
def beq : Json → Json → Bool
  | null, null => true
  | bool a, bool b => a == b
  | number a, number b => a == b
  | string a, string b => a == b
  | array a, array b => beqItems a b
  | object a, object b => beqMembers a b
  | _, _ => false

def beqItems : List Json → List Json → Bool
  | [], [] => true
  | a :: as, b :: bs => beq a b && beqItems as bs
  | _, _ => false

def beqMembers : List (String × Json) → List (String × Json) → Bool
  | [], [] => true
  | (k, a) :: as, (l, b) :: bs => k == l && beq a b && beqMembers as bs
  | _, _ => false

end

instance : BEq Json := ⟨beq⟩

def ofInt (n : Int) : Json := number (toString n)

end Json

end IrDialects
