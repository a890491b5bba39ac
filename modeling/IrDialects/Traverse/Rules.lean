import IrDialects.Traverse.Editor
import IrDialects.Traverse.Recorder
import IrDialects.Tree.Attributes

/-!
# Edit rules

A small vocabulary of edits. The editor that makes them logs the nodes that it enters.
-/

namespace IrDialects

/-- What becomes of attributes. -/
inductive AttrRule where
  | keep
  | clear
  | mark
deriving DecidableEq, Repr

/-- The attribute rule with a given name; a name of no rule keeps attributes. -/
def AttrRule.ofName (s : String) : AttrRule :=
  if s = "clear" then .clear else if s = "mark" then .mark else .keep

/-- How the attributes of a dialect are marked; the default attributes are the empty ones. -/
structure Marking (τ ν : Type) where
  markType : τ → τ
  markValue : ν → ν

/-- A Classic mark replaces the attribute. -/
def Marking.classic : Marking ClassicAttrs ClassicAttrs :=
  let marked : ClassicAttrs := ⟨some (.object [("mark", .ofInt 1)])⟩
  ⟨fun _ => marked, fun _ => marked⟩

/-- A V4 mark replaces the constraints of a type and the inferred type of a value. -/
def Marking.v4 : Marking TypeAttrs ValueAttrs :=
  ⟨fun a => { a with constraints := some (.string "mark") },
    fun a => { a with inferredType := some (.string "mark") }⟩

/-- Which edits to make. -/
structure EditRules where
  attrs : AttrRule := .keep
  /-- Type variables become unit types. -/
  unitTypes : Bool := false
  /-- Bindings become their patterns. -/
  unbind : Bool := false
  /-- Applications become their arguments. -/
  unapply : Bool := false
  /-- A variable gets another name. -/
  rename : Option (Name × Name) := none
  /-- All floating-point values become this number. -/
  float : Option Number.Binary64 := none
  /-- The position at which editing fails, unless it is empty. -/
  stopAt : String := ""

namespace EditRules

variable {α : Type}

/-- The attribute after editing; `empty` is the attribute that says nothing. -/
def editAttr (rules : EditRules) (empty : α) (mark : α → α) (a : α) : α :=
  match rules.attrs with
  | .keep => a
  | .clear => empty
  | .mark => mark a

/-- Logs a node and answers with an edit, unless editing is to fail here. -/
def answer (rules : EditRules) (label : String) (edit : Edit α) (c : Cursor) (log : Array String) :
    Except String (Edit α) × Array String :=
  let log := log.push (Recorder.entry label c)
  if !rules.stopAt.isEmpty && rules.stopAt == c.text then
    (.error (Recorder.stopMessage rules.stopAt), log)
  else (.ok edit, log)

variable {τ ν : Type}

def typeEdit (rules : EditRules) (f : τ → τ) : TypeExpr τ → Edit (TypeExpr τ)
  | .variable a _ => if rules.unitTypes then .replace (.unit (f a)) else .rebuild
  | _ => .rebuild

def patternEdit (rules : EditRules) : Pattern ν → Edit (Pattern ν)
  | .as .. => if rules.unbind then .collapse else .rebuild
  | _ => .rebuild

def valueEdit (rules : EditRules) (g : ν → ν) : Value τ ν → Edit (Value τ ν)
  | .apply .. => if rules.unapply then .collapse else .rebuild
  | .variable a n =>
    match rules.rename with
    | some (before, after) => if n = before then .replace (.variable (g a) after) else .rebuild
    | none => .rebuild
  | .literal a (.float _) =>
    match rules.float with
    | some x => .replace (.literal (g a) (.float x))
    | none => .rebuild
  | _ => .rebuild

/-- The editor that carries out the rules. -/
def editor [Inhabited τ] [Inhabited ν] (rules : EditRules) (m : Marking τ ν) :
    Editor τ ν τ ν (Array String) String :=
  let f := rules.editAttr default m.markType
  let g := rules.editAttr default m.markValue
  { typeAttrs := f
    valueAttrs := g
    onType := fun t => rules.answer t.label (rules.typeEdit f t)
    onPattern := fun p => rules.answer p.label (rules.patternEdit p)
    onValue := fun v => rules.answer v.label (rules.valueEdit g v) }

end EditRules

end IrDialects
