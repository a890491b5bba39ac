import IrDialects.Classic.Document
import IrDialects.Proofs.Wire.Decoding
import Mathlib.Data.List.Basic

/-!
# The grammar of Classic expressions

What stands where in the Classic form of types, patterns and values. Every tag has a row of
contents, and a tagged array has as many fields as the row of its tag is long.

`Reads form v w` says that `v` has the given form and that `w` is how it is written. The two agree
item by item and differ in spelling only: tags, empty attributes, numbers of literals, fields written
as objects, bodies and hints in their other form, and objects with members that nobody reads.
-/

namespace IrDialects.Classic

/-- The forms of the parts of a Classic expression. -/
inductive Form where
  /-- Any text. -/
  | text
  /-- An attribute, which can be any value. -/
  | attrs
  | payload (tag : LiteralTag)
  /-- A tagged array, or another form of the same kind of node. -/
  | node (kind : NodeKind)
  /-- A type, or `null`. -/
  | optionalType
  /-- A name with a type. -/
  | field
  | definition
  | info
  /-- An array of any length whose items have one form. -/
  | list (item : Form)
  /-- An array with as many items as there are forms. -/
  | row (items : List Form)

namespace Form

abbrev literal : Form := node .literal

abbrev type : Form := node .type

abbrev pattern : Form := node .pattern

abbrev value : Form := node .value

abbrev body : Form := node .valueBody

abbrev holeReason : Form := node .holeReason

abbrev incompleteness : Form := node .incompleteness

abbrev hint : Form := node .nativeHint

/-- A name is the array of its words. -/
abbrev name : Form := list text

abbrev fqName : Form := row [list name, list name, name]

/-- A declared argument. -/
abbrev input : Form := row [name, attrs, type]

/-- A name with a value. -/
abbrev entry : Form := row [name, value]

end Form

/-- The contents of a type behind its attribute. -/
def typeContents : TypeTag → List Form
  | .variable => [.name]
  | .reference => [.fqName, .list .type]
  | .tuple => [.list .type]
  | .record => [.list .field]
  | .extensibleRecord => [.name, .list .field]
  | .function => [.type, .type]
  | .unit => []

/-- The contents of a pattern behind its attribute. -/
def patternContents : PatternTag → List Form
  | .wildcard | .emptyList | .unit => []
  | .as => [.pattern, .name]
  | .tuple => [.list .pattern]
  | .constructor => [.fqName, .list .pattern]
  | .headTail => [.pattern, .pattern]
  | .literal => [.literal]

/-- The contents of a value behind its attribute. -/
def valueContents : ValueTag → List Form
  | .literal => [.literal]
  | .constructor | .reference => [.fqName]
  | .tuple | .list => [.list .value]
  | .record => [.list .entry]
  | .variable | .fieldFunction => [.name]
  | .field => [.value, .name]
  | .apply => [.value, .value]
  | .lambda => [.pattern, .value]
  | .letDefinition => [.name, .definition, .value]
  | .letRecursion => [.list (.row [.name, .definition]), .value]
  | .destructure => [.pattern, .value, .value]
  | .ifThenElse => [.value, .value, .value]
  | .patternMatch => [.value, .list (.row [.pattern, .value])]
  | .updateRecord => [.value, .list .entry]
  | .unit => []
  | .hole => [.holeReason, .optionalType]
  | .native => [.fqName, .info]
  | .external => [.text, .text]

/-- The tags of all arrays that have one. -/
inductive NodeTag where
  | literal (tag : LiteralTag)
  | type (tag : TypeTag)
  | pattern (tag : PatternTag)
  | value (tag : ValueTag)
  | body (tag : BodyTag)
  | holeReason (tag : HoleReasonTag)
  | incompleteness (tag : IncompletenessTag)
  | hint (tag : NativeHintTag)

namespace NodeTag

/-- The kind of the nodes with a tag. -/
def kind : NodeTag → NodeKind
  | literal _ => .literal
  | type _ => .type
  | pattern _ => .pattern
  | value _ => .value
  | body _ => .valueBody
  | holeReason _ => .holeReason
  | incompleteness _ => .incompleteness
  | hint _ => .nativeHint

/-- A text is one of the spellings of a tag. -/
def Spelled (s : String) : NodeTag → Prop
  | literal t => LiteralTag.table.find? s = some t
  | type t => TypeTag.table.find? s = some t
  | pattern t => PatternTag.table.find? s = some t
  | value t => ValueTag.table.find? s = some t
  | body t => BodyTag.table.find? s = some t
  | holeReason t => HoleReasonTag.table.find? s = some t
  | incompleteness t => IncompletenessTag.table.find? s = some t
  | hint t => NativeHintTag.table.find? s = some t

/-- The spelling in which a tag is written. Integers keep their older tag, and the body that is an
expression is written without one. -/
def written? : NodeTag → Option String
  | literal .integer => some "WholeNumberLiteral"
  | literal t => some t.name
  | type t => some t.name
  | pattern t => some t.name
  | value t => some t.name
  | body .expression => none
  | body t => some t.name
  | holeReason t => some t.name
  | incompleteness t => some t.name
  | hint t => some t.name

/-- What stands behind a tag. -/
def contents : NodeTag → List Form
  | literal t => [.payload t]
  | type t => .attrs :: typeContents t
  | pattern t => .attrs :: patternContents t
  | value t => .attrs :: valueContents t
  | body .expression => [.value]
  | body .native => [.info]
  | body .external => [.text, .text]
  | body .incomplete => [.incompleteness]
  | holeReason .unresolvedReference => [.fqName]
  | holeReason .deletedDuringRefactor => [.text]
  | holeReason .typeMismatch => [.text, .text]
  | holeReason .draft => []
  | incompleteness .hole => [.holeReason]
  | incompleteness .draft => []
  | hint .platformSpecific => [.text]
  | hint _ => []

/-- A spelling has one tag among those of a kind. -/
theorem eq_of_spelled {s : String} {tag tag' : NodeTag} (hkind : tag.kind = tag'.kind)
    (h : tag.Spelled s) (h' : tag'.Spelled s) : tag = tag' := by
  cases tag <;> cases tag' <;> simp_all [kind, Spelled]

end NodeTag

/-- A value of a given form, and the value that is written in its place. -/
inductive Reads : Form → Json → Json → Prop
  | text (s : String) : Reads .text (.string s) (.string s)
  | blank {v : Json} : v.isEmpty = true → Reads .attrs v (.object [])
  | kept {v : Json} : v.isEmpty = false → Reads .attrs v v
  | bool (b : Bool) : Reads (.payload .bool) (.bool b) (.bool b)
  | char (c : Char) : Reads (.payload .char) (.string (.singleton c)) (.string (.singleton c))
  | string (s : String) : Reads (.payload .string) (.string s) (.string s)
  | integer {s : String} {n : Int} : Shape.wholeNumber? s = some n →
      Reads (.payload .integer) (.number s) (.ofInt n)
  | float {s : String} {x : Number.Binary64} : Number.Numeral.read s = .value x →
      Reads (.payload .float) (.number s) (.number (Number.FloatLayout.document.text x))
  | decimal {s : String} : Number.Decimal.checkOrMessage s = .ok () →
      Reads (.payload .decimal) (.string s) (.string s)
  | decimalNumber {s : String} : Number.Decimal.checkOrMessage s = .ok () →
      Reads (.payload .decimal) (.number s) (.string s)
  | nil : Reads (.row []) (.array []) (.array [])
  | cons {form : Form} {forms : List Form} {v w : Json} {vs ws : List Json} :
      Reads form v w → Reads (.row forms) (.array vs) (.array ws) →
        Reads (.row (form :: forms)) (.array (v :: vs)) (.array (w :: ws))
  | empty (form : Form) : Reads (.list form) (.array []) (.array [])
  | more {form : Form} {v w : Json} {vs ws : List Json} :
      Reads form v w → Reads (.list form) (.array vs) (.array ws) →
        Reads (.list form) (.array (v :: vs)) (.array (w :: ws))
  /-- The fields of a tagged array are read one by one, and the tag is spelled anew. -/
  | node {kind : NodeKind} (tag : NodeTag) {s t : String} {vs ws : List Json} :
      tag.kind = kind → tag.Spelled s → tag.written? = some t →
        Reads (.row tag.contents) (.array vs) (.array ws) →
          Reads (.node kind) (.array (.string s :: vs)) (.array (.string t :: ws))
  | noType : Reads .optionalType .null .null
  | someType {v w : Json} : Reads .type v w → Reads .optionalType v w
  | pair {v w : Json} : Reads (.row [.name, .type]) v w → Reads .field v w
  /-- A field can be an object with its name and, under one of three keys, its type. -/
  | fieldObject {ms : Members} {key : String} {n t w : Json} :
      Json.get? ms "name" = some n → fieldTypeKey? ms = some (key, t) →
        Reads (.row [.name, .type]) (.array [n, t]) w → Reads .field (.object ms) w
  | definition {ms : Members} {is is' t t' b b' : Json} :
      Json.get? ms "inputTypes" = some is → Json.get? ms "outputType" = some t →
        Json.get? ms "body" = some b → Reads (.list .input) is is' → Reads .type t t' →
          Reads .body b b' → Reads .definition (.object ms)
            (.object [("inputTypes", is'), ("outputType", t'), ("body", b')])
  | bareBody {v w : Json} : bodyTag? v = none → Reads .value v w → Reads .body v w
  | expression {s : String} {v w : Json} : (NodeTag.body .expression).Spelled s →
      Reads .value v w → Reads .body (.array [.string s, v]) w
  | bareHint {s : String} {w : Json} :
      Reads .hint (.array [.string s]) w → Reads .hint (.string s) w
  | bareInfo {ms : Members} {h h' : Json} : Json.get? ms "hint" = some h → Reads .hint h h' →
      (∀ d, Json.get? ms "description" = some d → d = .null ∨ d = .string "") →
        Reads .info (.object ms) (.object [("hint", h')])
  | info {ms : Members} {h h' : Json} {d : String} : Json.get? ms "hint" = some h →
      Reads .hint h h' → Json.get? ms "description" = some (.string d) → d ≠ "" →
        Reads .info (.object ms) (.object [("hint", h'), ("description", .string d)])

/-- A place in a value of a given form: the form that is asked for there, and the value. -/
inductive Place : Form → Json → Form → Json → Prop
  | here (form : Form) (v : Json) : Place form v form v
  | contents {kind : NodeKind} {form' part : Form} {v' x : Json} (tag : NodeTag) {s : String}
      {vs : List Json} {i : Nat} : tag.kind = kind → tag.Spelled s →
        tag.contents[i]? = some part → vs[i]? = some x → Place part x form' v' →
          Place (.node kind) (.array (.string s :: vs)) form' v'
  | row {form' part : Form} {forms : List Form} {v' x : Json} {vs : List Json} {i : Nat} :
      forms[i]? = some part → vs[i]? = some x → Place part x form' v' →
        Place (.row forms) (.array vs) form' v'
  | item {form form' : Form} {v' x : Json} {vs : List Json} :
      x ∈ vs → Place form x form' v' → Place (.list form) (.array vs) form' v'
  | someType {form' : Form} {v v' : Json} :
      v.isNull = false → Place .type v form' v' → Place .optionalType v form' v'
  | pair {form' : Form} {v' : Json} {vs : List Json} :
      Place (.row [.name, .type]) (.array vs) form' v' → Place .field (.array vs) form' v'
  | fieldName {form' : Form} {v' n : Json} {ms : Members} : Json.get? ms "name" = some n →
      Place .name n form' v' → Place .field (.object ms) form' v'
  | fieldType {form' : Form} {v' t : Json} {ms : Members} {key : String} :
      fieldTypeKey? ms = some (key, t) → Place .type t form' v' →
        Place .field (.object ms) form' v'
  | inputTypes {form' : Form} {v' is : Json} {ms : Members} :
      Json.get? ms "inputTypes" = some is → Place (.list .input) is form' v' →
        Place .definition (.object ms) form' v'
  | outputType {form' : Form} {v' t : Json} {ms : Members} :
      Json.get? ms "outputType" = some t → Place .type t form' v' →
        Place .definition (.object ms) form' v'
  | body {form' : Form} {v' b : Json} {ms : Members} : Json.get? ms "body" = some b →
      Place .body b form' v' → Place .definition (.object ms) form' v'
  | bareBody {form' : Form} {v v' : Json} : bodyTag? v = none → Place .value v form' v' →
      Place .body v form' v'
  | infoHint {form' : Form} {v' h : Json} {ms : Members} : Json.get? ms "hint" = some h →
      Place .hint h form' v' → Place .info (.object ms) form' v'

/-- At every place of a value, an array has as many fields as its tag requires, and an array without
a tag as many items as its form. -/
structure Aligned (form : Form) (v : Json) : Prop where
  tagged : ∀ (tag : NodeTag) (s : String) (vs : List Json),
    Place form v (.node tag.kind) (.array (.string s :: vs)) → tag.Spelled s →
      vs.length = tag.contents.length
  untagged : ∀ (forms : List Form) (vs : List Json),
    Place form v (.row forms) (.array vs) → vs.length = forms.length

theorem bodyTag?_eq_some {s : String} {tag : BodyTag} (h : (NodeTag.body tag).Spelled s)
    (vs : List Json) : bodyTag? (.array (.string s :: vs)) = some (tag, vs) := by
  have hfind : BodyTag.table.find? s = some tag := h
  rw [bodyTag?, hfind, Option.map_some]

namespace Reads

theorem length_eq {forms : List Form} {vs : List Json} {w : Json}
    (h : Reads (.row forms) (.array vs) w) : vs.length = forms.length := by
  induction forms generalizing vs w with
  | nil =>
    cases h with
    | nil => rfl
  | cons form forms ih =>
    cases h with
    | cons _ h => rw [List.length_cons, List.length_cons, ih h]

theorem row_getElem? {forms : List Form} {vs : List Json} {w x : Json} {i : Nat} {part : Form}
    (h : Reads (.row forms) (.array vs) w) (hpart : forms[i]? = some part)
    (hx : vs[i]? = some x) : ∃ w', Reads part x w' := by
  induction forms generalizing vs w i with
  | nil => simp at hpart
  | cons form forms ih =>
    cases h with
    | cons hv h =>
      cases i with
      | zero =>
        cases hpart
        cases hx
        exact ⟨_, hv⟩
      | succ i =>
        rw [List.getElem?_cons_succ] at hpart hx
        exact ih h hpart hx

theorem list_mem {form : Form} {vs : List Json} {w x : Json}
    (h : Reads (.list form) (.array vs) w) (hx : x ∈ vs) : ∃ w', Reads form x w' := by
  induction vs generalizing w with
  | nil => cases hx
  | cons v vs ih =>
    cases h with
    | more hv h =>
      obtain rfl | hx := List.mem_cons.1 hx
      · exact ⟨_, hv⟩
      · exact ih h hx

/-- Behind a tag stands what its contents say, in the body that is an expression as well. -/
theorem fields {tag : NodeTag} {s : String} {vs : List Json} {w : Json}
    (h : Reads (.node tag.kind) (.array (.string s :: vs)) w) (hs : tag.Spelled s) :
    ∃ ws, Reads (.row tag.contents) (.array vs) ws := by
  -- The kind is made a variable first: the tag that was read is another one with the same spelling.
  generalize hkind : tag.kind = kind at h
  cases h with
  | node tag' hkind' hs' _ h =>
    obtain rfl := NodeTag.eq_of_spelled (hkind.trans hkind'.symm) hs hs'
    exact ⟨_, h⟩
  | bareBody hnone =>
    cases tag with
    | body tag =>
      rw [bodyTag?_eq_some hs] at hnone
      cases hnone
    | _ => cases hkind
  | expression hs' h =>
    obtain rfl : tag = .body .expression := NodeTag.eq_of_spelled hkind hs hs'
    exact ⟨_, .cons h .nil⟩

/-- What is read is read at each of its places. -/
theorem exists_of_place {form form' : Form} {v v' w : Json} (h : Reads form v w)
    (hplace : Place form v form' v') : ∃ w', Reads form' v' w' := by
  -- Each step down a place undoes the step of reading that has the same form and the same value.
  induction hplace generalizing w with
  | here => exact ⟨w, h⟩
  | contents tag hkind hs hpart hx _ ih =>
    subst hkind
    obtain ⟨ws, hfields⟩ := h.fields hs
    obtain ⟨w', hw'⟩ := hfields.row_getElem? hpart hx
    exact ih hw'
  | row hpart hx _ ih =>
    obtain ⟨w', hw'⟩ := h.row_getElem? hpart hx
    exact ih hw'
  | item hx _ ih =>
    obtain ⟨w', hw'⟩ := h.list_mem hx
    exact ih hw'
  | someType hnull _ ih =>
    cases h with
    | noType => cases hnull
    | someType h => exact ih h
  | pair _ ih =>
    cases h with
    | pair h => exact ih h
  | fieldName hn _ ih =>
    cases h with
    | pair h => cases h
    | fieldObject hn' _ h =>
      cases hn.symm.trans hn'
      cases h with
      | cons hname _ => exact ih hname
  | fieldType ht _ ih =>
    cases h with
    | pair h => cases h
    | fieldObject _ ht' h =>
      cases ht.symm.trans ht'
      cases h with
      | cons _ h =>
        cases h with
        | cons htype _ => exact ih htype
  | inputTypes his _ ih =>
    cases h with
    | definition his' _ _ h _ _ =>
      cases his.symm.trans his'
      exact ih h
  | outputType ht _ ih =>
    cases h with
    | definition _ ht' _ _ h _ =>
      cases ht.symm.trans ht'
      exact ih h
  | body hb _ ih =>
    cases h with
    | definition _ _ hb' _ _ h =>
      cases hb.symm.trans hb'
      exact ih h
  | bareBody hnone _ ih =>
    cases h with
    | bareBody _ h => exact ih h
    | node tag hkind hs =>
      cases tag with
      | body tag =>
        rw [bodyTag?_eq_some hs] at hnone
        cases hnone
      | _ => cases hkind
    | expression hs =>
      rw [bodyTag?_eq_some hs] at hnone
      cases hnone
  | infoHint hh _ ih =>
    cases h with
    | bareInfo hh' h =>
      cases hh.symm.trans hh'
      exact ih h
    | info hh' h =>
      cases hh.symm.trans hh'
      exact ih h

theorem aligned {form : Form} {v w : Json} (h : Reads form v w) : Aligned form v where
  tagged tag s vs hplace hs := by
    obtain ⟨w', hw'⟩ := h.exists_of_place hplace
    obtain ⟨ws, hfields⟩ := hw'.fields hs
    exact hfields.length_eq
  untagged forms vs hplace := by
    obtain ⟨w', hw'⟩ := h.exists_of_place hplace
    exact hw'.length_eq

end Reads

end IrDialects.Classic
