import IrDialects.Scenario.Basic
import IrDialects.Text.Bytes
import IrDialects.Yaml.Reader

/-!
# Reading scenario files

The members of a scenario file by name. All members that do not fit are reported together; a scalar of
any kind fits where a text is wanted, and a null leaves a member as it is.
-/

namespace IrDialects.Scenario.Reading

open Yaml (Node Meaning)

/-- Collects complaints while a file is read. -/
abbrev Collect := StateM (List String)

/-- Adds a complaint about something on a line. -/
def complain (line : Nat) (text : String) : Collect Unit :=
  modify (· ++ ["line " ++ toString line ++ ": " ++ text])

/-- A text as it is shown in a complaint. -/
def shown (s : String) : String :=
  if 10 < s.utf8ByteSize then Text.Bytes.decode ((Text.Bytes.encode s).take 7) ++ "..." else s

/-- What a scalar stands for; a quoted one is a text. -/
def meaningOf (quoted : Bool) (text : String) : Meaning :=
  if quoted then .text else Yaml.Scalar.meaning text

/-- Complains that a node is not of the wanted kind. -/
def misfit (wanted : String) : Node → Collect Unit
  | .scalar line quoted text =>
    complain line ("cannot unmarshal " ++ (meaningOf quoted text).tag ++ " \x60" ++ shown text
      ++ "\x60 into " ++ wanted)
  | .sequence line _ => complain line ("cannot unmarshal !!seq into " ++ wanted)
  | .mapping line _ => complain line ("cannot unmarshal !!map into " ++ wanted)

/-- The texts of nodes that can be compared. -/
def sameKey : Node → Node → Bool
  | .scalar _ _ a, .scalar _ _ b => a == b
  | .sequence .., .sequence .. => true
  | .mapping .., .mapping .. => true
  | _, _ => false

def keyText : Node → String
  | .scalar _ _ s => s
  | _ => ""

/-- Complains about keys that are repeated, and says whether there are any. -/
def repeated : List (Node × Node) → Collect Bool
  | [] => pure false
  | (k, _) :: es => do
    let again := es.filter fun (k', _) => sameKey k k'
    for (k', _) in again do
      complain k'.line ("mapping key " ++ Text.Quoted.quote (keyText k') ++ " already defined at line "
        ++ toString k.line)
    return (← repeated es) || !again.isEmpty

/-- The entries of a mapping, unless keys are repeated. -/
def entriesOf (es : List (Node × Node)) : Collect (Option (List (Node × Node))) := do
  return if ← repeated es then none else some es

/-- Complains that a node that may be a mapping is not of the wanted kind. -/
def misfitOf (wanted : String) : Node → Collect Unit
  | .mapping line es => do
    if (← entriesOf es).isSome then misfit wanted (.mapping line es)
  | n => misfit wanted n

def text : Node → Collect (Option String)
  | .scalar _ quoted s => pure (if meaningOf quoted s = .null then none else some s)
  | n => do
    misfitOf "string" n
    return none

/-- A truth value; some words of older versions of the format count. -/
def bool : Node → Collect (Option Bool)
  | .scalar line quoted s =>
    match meaningOf quoted s with
    | .null => pure none
    | .bool b => pure (some b)
    | .text =>
      if s ∈ ["y", "Y", "yes", "on"] then pure (some true)
      else if s ∈ ["n", "N", "no", "off"] then pure (some false)
      else do
        misfit "bool" (.scalar line quoted s)
        return none
    | _ => do
      misfit "bool" (.scalar line quoted s)
      return none
  | n => do
    misfitOf "bool" n
    return none

/-- The first number above the range of 64 bits with a sign. -/
def intBound : Int := Int.ofNat (Nat.pow 2 63)

/-- The integer toward zero from a number that is not above the range of 64 bits; below the range it is
the least one. -/
def truncate? : Number.Binary64 → Option Int
  | .finite negative m =>
    let n : Int := (m.units / Nat.pow 2 1074 : Nat)
    let n := if negative then -n else n
    if intBound < n then none
    else some (if n = intBound || n < -intBound then -intBound else n)
  | .infinite negative => if negative then some (-intBound) else none
  | .nan => none

/-- An integer of 64 bits; a fraction is cut off. -/
def int : Node → Collect (Option Int)
  | .scalar line quoted s =>
    let found := match meaningOf quoted s with
      | .int n => if n < intBound then some n else none
      | .float x => truncate? x
      | _ => none
    match found with
    | some n => pure (some n)
    | none => do
      unless meaningOf quoted s = .null do misfit "int" (.scalar line quoted s)
      return none
  | n => do
    misfitOf "int" n
    return none

/-- Reads the members of a mapping into a record; `member` says what a member of a name does, and
`none` that there is no such member. -/
def members {α : Type} (type : String) (member : String → Node → Option (α → Collect α)) :
    List (Node × Node) → α → Collect α
  | [], x => pure x
  | (k, v) :: es, x => do
    match ← text k with
    | none => members type member es x
    | some name =>
      match member name v with
      | some set => members type member es (← set x)
      | none =>
        complain k.line ("field " ++ name ++ " not found in type " ++ type)
        members type member es x

/-- A record, or `none` if the node is no mapping. -/
def record {α : Type} (type : String) (member : String → Node → Option (α → Collect α)) (empty : α) :
    Node → Collect (Option α)
  | .mapping _ es => do
    match ← entriesOf es with
    | some es => return some (← members type member es empty)
    | none => return none
  | .scalar line quoted s => do
    unless meaningOf quoted s = .null do misfit type (.scalar line quoted s)
    return none
  | n => do
    misfit type n
    return none

/-- Sets a member to what was read, if anything. -/
def setting {α β : Type} (read : Collect (Option β)) (set : α → β → α) : Option (α → Collect α) :=
  some fun x => do return ((← read).map (set x)).getD x

def assertionMember (name : String) (v : Node) : Option (AssertionEntry → Collect AssertionEntry) :=
  match name with
  | "type" => setting (text v) fun e s => { e with type := s }
  | "dialect" => setting (text v) fun e s => { e with dialect := s }
  | "kind" => setting (text v) fun e s => { e with kind := s }
  | "path" => setting (text v) fun e s => { e with path := s }
  | "field" => setting (text v) fun e s => { e with field := s }
  | "count" => setting (int v) fun e n => { e with count := n }
  | "text" => setting (text v) fun e s => { e with text := s }
  | _ => none

/-- The assertions of a list; those that are no mappings are left out. -/
def assertionItems : List Node → Collect (List Assertion)
  | [] => pure []
  | n :: ns => do
    let e ← record "harness.Assertion" assertionMember {} n
    let es ← assertionItems ns
    return (e.map AssertionEntry.assertion).toList ++ es

/-- A list of assertions; a null is the empty list. -/
def assertions : Node → Collect (Option (List Assertion))
  | .sequence _ ns => do return some (← assertionItems ns)
  | .scalar line quoted s => do
    if meaningOf quoted s = .null then return some []
    misfit "[]harness.Assertion" (.scalar line quoted s)
    return none
  | n => do
    misfitOf "[]harness.Assertion" n
    return none

def scenarioMember (name : String) (v : Node) : Option (Scenario → Collect Scenario) :=
  match name with
  | "name" => setting (text v) fun s t => { s with name := t }
  | "description" => setting (text v) fun s t => { s with description := t }
  | "input" => setting (text v) fun s t => { s with input := t }
  | "document" => setting (text v) fun s t => { s with document := t }
  | "target" => setting (text v) fun s t => { s with target := t }
  | "expanded" => setting (bool v) fun s b => { s with expanded := b }
  | "assertions" => setting (assertions v) fun s as => { s with assertions := as }
  | _ => none

/-- The scenario that a node describes, or all complaints about it. -/
def scenario (n : Node) : Except (List String) Scenario :=
  let (s, complaints) := (record "harness.Scenario" scenarioMember {} n).run []
  if complaints.isEmpty then .ok (s.getD {}) else .error complaints

end IrDialects.Scenario.Reading
