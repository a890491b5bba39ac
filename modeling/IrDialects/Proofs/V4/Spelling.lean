import IrDialects.Proofs.V4.Value

/-!
# Spellings of V4 trees

Readers accept more than writers write. A node is an object whose only key spells its tag; its members
stand in any order, under hyphenated names or in camel case, among others that mean nothing, and what
is empty may be left out. Every node may be written in the Classic form instead, together with all
that is below it, and a variable or a reference that says nothing else may be a bare text.

The relations below tell which JSON values spell a tree when each node makes this choice for itself.
They are built from one relation for each way in which a node holds its parts.
-/

namespace IrDialects.V4

variable {α β : Type}

/-- A value stands under a hyphenated name, or in camel case if that name is not a key. -/
inductive StandsUnder (ms : Members) (name : String) (v : Json) : Prop
  | hyphenated (h : (name, v) ∈ ms)
  | camel {key : String} (hn : name ∉ Json.keys ms) (hc : FieldName.camel? name = some key)
      (h : (key, v) ∈ ms)

/-- Nothing stands under a name in either spelling, or only `null`. -/
inductive LeavesOut (ms : Members) (name : String) : Prop
  | missing (h : name ∉ Json.keys ms) (hc : ∀ key ∈ FieldName.camel? name, key ∉ Json.keys ms)
  | null (h : StandsUnder ms name .null)

/-- An object whose only key spells a tag, and the object with the members of that node. -/
inductive Wraps (table : TagTable α) (tag : α) : Json → Json → Prop
  | object {key ms} (h : table.find? key = some tag) (hk : (Json.keys ms).Nodup) :
      Wraps table tag (.object [(key, .object ms)]) (.object ms)
  | null {key} (h : table.find? key = some tag) : Wraps table tag (.object [(key, .null)]) (.object [])

/-- An object has something as a field. -/
inductive Has (R : Json → α → Prop) : Json → String → α → Prop
  | mk {ms name v x} (hv : StandsUnder ms name v) (h : R v x) : Has R (.object ms) name x

/-- An object has something as a field, or leaves out the default. -/
inductive MayHave (R : Json → α → Prop) (default : α) : Json → String → α → Prop
  | given {ms name v x} (hv : StandsUnder ms name v) (h : R v x) :
      MayHave R default (.object ms) name x
  | omitted {ms name} (h : LeavesOut ms name) : MayHave R default (.object ms) name default

/-- An array spells a list item by item. -/
inductive Items (R : Json → α → Prop) : Json → List α → Prop
  | nil : Items R (.array []) []
  | cons {v vs x xs} (h : R v x) (hs : Items R (.array vs) xs) :
      Items R (.array (v :: vs)) (x :: xs)

/-- An array of two spells a pair. -/
inductive Pair (R : Json → α → Prop) (S : Json → β → Prop) : Json → α × β → Prop
  | mk {v w x y} (hx : R v x) (hy : S w y) : Pair R S (.array [v, w]) (x, y)

/-- An object spells a list of things that have canonical names, with these names as its keys. -/
inductive Keyed (name : α → Name) (R : Json → α → Prop) : Json → List α → Prop
  | nil : Keyed name R (.object []) []
  | cons {v ms x xs} (hn : (name x).Canonical) (h : R v x) (hs : Keyed name R (.object ms) xs) :
      Keyed name R (.object (((name x).kebab, v) :: ms)) (x :: xs)

/-- What is spelled is there. -/
inductive Present (R : Json → α → Prop) : Json → Option α → Prop
  | mk {v x} (h : R v x) : Present R v (some x)

/-- A string spells a text. -/
inductive SpellsText : Json → String → Prop
  | mk {s} : SpellsText (.string s) s

/-- A name is a text if it is canonical, or the array of its words. -/
inductive SpellsName : Json → Name → Prop
  | text {n} (h : n.Canonical) : SpellsName (.string n.kebab) n
  | words {n} : SpellsName (Classic.encodeName n) n

/-- A canonical qualified name has two texts. -/
inductive SpellsQualifiedText : String → FQName → Prop
  | hash {f} (h : f.Canonical) : SpellsQualifiedText f.hashText f
  | colons {f} (h : f.Canonical) : SpellsQualifiedText f.text f

/-- A qualified name is one of its texts, or the array of its three parts. -/
inductive SpellsFQName : Json → FQName → Prop
  | text {s f} (h : SpellsQualifiedText s f) : SpellsFQName (.string s) f
  | words {f} : SpellsFQName (Classic.encodeFQName f) f

section Attributes

/-- An object spells a source location. -/
inductive SpellsLocation : Json → SourceLocation → Prop
  | mk {ms l} (h : l.WrittenIn ms) : SpellsLocation (.object ms) l

/-- A value other than `null` is kept as it is. -/
inductive Keeps : Json → Json → Prop
  | mk {v} (h : v ≠ .null) : Keeps v v

/-- The members of an object are kept as they are. -/
inductive KeepsMembers : Json → Members → Prop
  | mk {ms} : KeepsMembers (.object ms) ms

/-- The attribute of a type node. -/
inductive SpellsTypeAttrs : Json → TypeAttrs → Prop
  | empty {v} (h : v.isEmpty) : SpellsTypeAttrs v {}
  | object {ms source constraints extensions} (hk : (Json.keys ms).Nodup)
      (hs : MayHave (Present SpellsLocation) none (.object ms) "source" source)
      (hc : MayHave (Present Keeps) none (.object ms) "constraints" constraints)
      (he : MayHave KeepsMembers [] (.object ms) "extensions" extensions) :
      SpellsTypeAttrs (.object ms) ⟨source, constraints, extensions⟩

/-- The attribute of a value or pattern node. -/
inductive SpellsValueAttrs : Json → ValueAttrs → Prop
  | empty {v} (h : v.isEmpty) : SpellsValueAttrs v {}
  | object {ms source inferredType extensions} (hk : (Json.keys ms).Nodup)
      (hs : MayHave (Present SpellsLocation) none (.object ms) "source" source)
      (ht : MayHave (Present Keeps) none (.object ms) "inferred-type" inferredType)
      (he : MayHave KeepsMembers [] (.object ms) "extensions" extensions) :
      SpellsValueAttrs (.object ms) ⟨source, inferredType, extensions⟩

/-- The Classic form of a tree whose attributes stand beside the values that are written for them. -/
def spelledForm : Classic.Codec (Json × TypeAttrs) (Json × ValueAttrs) where
  typeAttrs := ⟨fun v => return (v, ← decodeTypeAttrs v), Prod.fst⟩
  valueAttrs := ⟨fun v => return (v, ← decodeValueAttrs v), Prod.fst⟩

/-- Each attribute stands beside a spelling of it, and every literal can be written. -/
def spelled : Conditions (Json × TypeAttrs) (Json × ValueAttrs) where
  typeAttrs a := SpellsTypeAttrs a.1 a.2
  valueAttrs a := SpellsValueAttrs a.1 a.2
  literal := Literal.Writable

end Attributes

/-- The payload of a literal that can be written. -/
inductive SpellsPayload : Json → Literal → Prop
  | mk {l} (h : l.Writable) : SpellsPayload (Classic.encodePayload l) l

/-- A value spells a literal. -/
inductive SpellsLiteral : Json → Literal → Prop
  | node {v o l} (hw : Wraps LiteralTag.table (Classic.literalTag l) v o)
      (hl : Has SpellsPayload o "value" l) : SpellsLiteral v l
  | classic {l} (h : l.Writable) : SpellsLiteral (Classic.encodeLiteral l) l

/-- The members of a type node beside its attribute; `R` spells the types inside it. -/
inductive TypeMembers (R : Json → V4Type → Prop) : TypeTag → Json → V4Type → Prop
  | variable {o a n} (hn : Has SpellsName o "name" n) : TypeMembers R .variable o (.variable a n)
  | reference {o a f ts} (hf : Has SpellsFQName o "fqname" f)
      (hts : MayHave (Items R) [] o "args" ts) : TypeMembers R .reference o (.reference a f ts)
  | tuple {o a ts} (hts : Has (Items R) o "elements" ts) : TypeMembers R .tuple o (.tuple a ts)
  | record {o a fs} (hfs : Has (Keyed Prod.fst fun v f => R v f.2) o "fields" fs) :
      TypeMembers R .record o (.record a fs)
  | extensibleRecord {o a n fs} (hn : Has SpellsName o "variable" n)
      (hfs : Has (Keyed Prod.fst fun v f => R v f.2) o "fields" fs) :
      TypeMembers R .extensibleRecord o (.extensibleRecord a n fs)
  | function {o a x y} (hx : Has R o "arg" x) (hy : Has R o "result" y) :
      TypeMembers R .function o (.function a x y)
  | unit {o a} : TypeMembers R .unit o (.unit a)

/-- A value spells a type. -/
inductive SpellsType : Json → V4Type → Prop
  | node {tag v o t} (hw : Wraps TypeTag.table tag v o)
      (ha : MayHave SpellsTypeAttrs {} o "attrs" t.attributes) (hm : TypeMembers SpellsType tag o t) :
      SpellsType v t
  | classic {t} (h : t.Satisfies spelled) :
      SpellsType (Classic.encodeType spelledForm.typeAttrs t) (t.mapAttrs Prod.snd)
  | name {n} (hn : n.Canonical) (hw : n.words ≠ []) : SpellsType (.string n.kebab) (.variable {} n)
  | qualified {s f} (h : SpellsQualifiedText s f) : SpellsType (.string s) (.reference {} f [])

/-- The members of a pattern node beside its attribute; `R` spells the patterns inside it. -/
inductive PatternMembers (R : Json → Pattern ValueAttrs → Prop) :
    PatternTag → Json → Pattern ValueAttrs → Prop
  | wildcard {o a} : PatternMembers R .wildcard o (.wildcard a)
  | as {o a p n} (hp : Has R o "pattern" p) (hn : Has SpellsName o "name" n) :
      PatternMembers R .as o (.as a p n)
  | tuple {o a ps} (hps : Has (Items R) o "elements" ps) : PatternMembers R .tuple o (.tuple a ps)
  | constructor {o a f ps} (hf : Has SpellsFQName o "fqname" f)
      (hps : MayHave (Items R) [] o "args" ps) : PatternMembers R .constructor o (.constructor a f ps)
  | emptyList {o a} : PatternMembers R .emptyList o (.emptyList a)
  | headTail {o a p q} (hp : Has R o "head" p) (hq : Has R o "tail" q) :
      PatternMembers R .headTail o (.headTail a p q)
  | literal {o a l} (hl : Has SpellsLiteral o "literal" l) :
      PatternMembers R .literal o (.literal a l)
  | unit {o a} : PatternMembers R .unit o (.unit a)

/-- A value spells a pattern. -/
inductive SpellsPattern : Json → Pattern ValueAttrs → Prop
  | node {tag v o p} (hw : Wraps PatternTag.table tag v o)
      (ha : MayHave SpellsValueAttrs {} o "attrs" p.attributes)
      (hm : PatternMembers SpellsPattern tag o p) : SpellsPattern v p
  | classic {p} (h : p.Satisfies spelled) :
      SpellsPattern (Classic.encodePattern spelledForm.valueAttrs p) (p.mapAttrs Prod.snd)

section Incomplete

/-- A value spells the reason for a hole. -/
inductive SpellsHoleReason : Json → HoleReason → Prop
  | unresolvedReference {v o f} (hw : Wraps HoleReasonTag.table .unresolvedReference v o)
      (hf : Has SpellsFQName o "target" f) : SpellsHoleReason v (.unresolvedReference f)
  | deletedDuringRefactor {v o s} (hw : Wraps HoleReasonTag.table .deletedDuringRefactor v o)
      (hs : Has SpellsText o "tx-id" s) : SpellsHoleReason v (.deletedDuringRefactor s)
  | typeMismatch {v o s t} (hw : Wraps HoleReasonTag.table .typeMismatch v o)
      (hs : Has SpellsText o "expected" s) (ht : Has SpellsText o "found" t) :
      SpellsHoleReason v (.typeMismatch s t)
  | draft {v o} (hw : Wraps HoleReasonTag.table .draft v o) : SpellsHoleReason v .draft
  | classic {r} : SpellsHoleReason (Classic.encodeHoleReason r) r

/-- A value spells in which way a definition is unfinished. -/
inductive SpellsIncompleteness : Json → Incompleteness → Prop
  | hole {v o r} (hw : Wraps IncompletenessTag.table .hole v o)
      (hr : Has SpellsHoleReason o "reason" r) : SpellsIncompleteness v (.hole r)
  | draft {v o} (hw : Wraps IncompletenessTag.table .draft v o) : SpellsIncompleteness v .draft
  | classic {i} : SpellsIncompleteness (Classic.encodeIncompleteness i) i

/-- A value spells a hint. -/
inductive SpellsNativeHint : Json → NativeHint → Prop
  | arithmetic {v o} (hw : Wraps NativeHintTag.table .arithmetic v o) : SpellsNativeHint v .arithmetic
  | comparison {v o} (hw : Wraps NativeHintTag.table .comparison v o) : SpellsNativeHint v .comparison
  | stringOp {v o} (hw : Wraps NativeHintTag.table .stringOp v o) : SpellsNativeHint v .stringOp
  | collectionOp {v o} (hw : Wraps NativeHintTag.table .collectionOp v o) :
      SpellsNativeHint v .collectionOp
  | platformSpecific {v o s} (hw : Wraps NativeHintTag.table .platformSpecific v o)
      (hs : Has SpellsText o "platform" s) : SpellsNativeHint v (.platformSpecific s)
  | classic {h} : SpellsNativeHint (Classic.encodeNativeHint h) h

/-- An object spells the description of a native operation. -/
inductive SpellsNativeInfo : Json → NativeInfo → Prop
  | mk {ms hint description} (hk : (Json.keys ms).Nodup)
      (hh : Has SpellsNativeHint (.object ms) "hint" hint)
      (hd : MayHave SpellsText "" (.object ms) "description" description) :
      SpellsNativeInfo (.object ms) ⟨hint, description⟩

end Incomplete

section Definitions

/-- An object spells what is declared about an argument beside its name. -/
inductive SpellsInput : Json → Input TypeAttrs ValueAttrs → Prop
  | mk {ms n a t} (hk : (Json.keys ms).Nodup)
      (ha : MayHave SpellsValueAttrs {} (.object ms) "type-attributes" a)
      (ht : Has SpellsType (.object ms) "type" t) : SpellsInput (.object ms) ⟨n, a, t⟩

/-- A value spells a body; `R` spells values, and such a value may stand for itself. -/
inductive SpellsBody (R : Json → V4Value → Prop) : Json → V4Body → Prop
  | expression {v o x} (hw : Wraps BodyTag.table .expression v o) (hx : Has R o "body" x) :
      SpellsBody R v (.expression x)
  | native {v o i} (hw : Wraps BodyTag.table .native v o) (hi : Has SpellsNativeInfo o "info" i) :
      SpellsBody R v (.native i)
  | external {v o s t} (hw : Wraps BodyTag.table .external v o)
      (hs : Has SpellsText o "external-name" s) (ht : Has SpellsText o "target-platform" t) :
      SpellsBody R v (.external s t)
  | incomplete {v o i} (hw : Wraps BodyTag.table .incomplete v o)
      (hi : Has SpellsIncompleteness o "incompleteness" i) : SpellsBody R v (.incomplete i)
  | bare {v x} (h : R v x) : SpellsBody R v (.expression x)
  | classic {b} (h : b.Satisfies spelled) :
      SpellsBody R (Classic.encodeBody spelledForm b) (b.mapAttrs Prod.snd Prod.snd)

/-- An object spells a value definition; `R` spells values. -/
inductive SpellsDefinition (R : Json → V4Value → Prop) : Json → V4Definition → Prop
  | mk {ms is t b} (hk : (Json.keys ms).Nodup)
      (his : Has (Keyed Input.name SpellsInput) (.object ms) "input-types" is)
      (ht : Has SpellsType (.object ms) "output-type" t)
      (hb : Has (SpellsBody R) (.object ms) "body" b) : SpellsDefinition R (.object ms) (.mk is t b)

end Definitions

/-- The members of a value node beside its attribute; `R` spells the values inside it. -/
inductive ValueMembers (R : Json → V4Value → Prop) : ValueTag → Json → V4Value → Prop
  | literal {o a l} (hl : Has SpellsLiteral o "literal" l) : ValueMembers R .literal o (.literal a l)
  | constructor {o a f} (hf : Has SpellsFQName o "fqname" f) :
      ValueMembers R .constructor o (.constructor a f)
  | tuple {o a vs} (hvs : Has (Items R) o "elements" vs) : ValueMembers R .tuple o (.tuple a vs)
  | list {o a vs} (hvs : Has (Items R) o "items" vs) : ValueMembers R .list o (.list a vs)
  | record {o a fs} (hfs : Has (Keyed Prod.fst fun v f => R v f.2) o "fields" fs) :
      ValueMembers R .record o (.record a fs)
  | variable {o a n} (hn : Has SpellsName o "name" n) : ValueMembers R .variable o (.variable a n)
  | reference {o a f} (hf : Has SpellsFQName o "fqname" f) :
      ValueMembers R .reference o (.reference a f)
  | field {o a x n} (hx : Has R o "value" x) (hn : Has SpellsName o "name" n) :
      ValueMembers R .field o (.field a x n)
  | fieldFunction {o a n} (hn : Has SpellsName o "name" n) :
      ValueMembers R .fieldFunction o (.fieldFunction a n)
  | apply {o a f x} (hf : Has R o "function" f) (hx : Has R o "argument" x) :
      ValueMembers R .apply o (.apply a f x)
  | lambda {o a p b} (hp : Has SpellsPattern o "pattern" p) (hb : Has R o "body" b) :
      ValueMembers R .lambda o (.lambda a p b)
  | letDefinition {o a n d b} (hn : Has SpellsName o "name" n)
      (hd : Has (SpellsDefinition R) o "definition" d) (hb : Has R o "body" b) :
      ValueMembers R .letDefinition o (.letDefinition a n d b)
  | letRecursion {o a ds b}
      (hds : Has (Items (Pair SpellsName (SpellsDefinition R))) o "bindings" ds)
      (hb : Has R o "body" b) : ValueMembers R .letRecursion o (.letRecursion a ds b)
  | destructure {o a p x b} (hp : Has SpellsPattern o "pattern" p) (hx : Has R o "value" x)
      (hb : Has R o "body" b) : ValueMembers R .destructure o (.destructure a p x b)
  | ifThenElse {o a c x y} (hc : Has R o "condition" c) (hx : Has R o "then-branch" x)
      (hy : Has R o "else-branch" y) : ValueMembers R .ifThenElse o (.ifThenElse a c x y)
  | patternMatch {o a x cs} (hx : Has R o "subject" x)
      (hcs : Has (Items (Pair SpellsPattern R)) o "cases" cs) :
      ValueMembers R .patternMatch o (.patternMatch a x cs)
  | updateRecord {o a x us} (hx : Has R o "record" x)
      (hus : Has (Items (Pair SpellsName R)) o "updates" us) :
      ValueMembers R .updateRecord o (.updateRecord a x us)
  | unit {o a} : ValueMembers R .unit o (.unit a)
  | hole {o a r t} (hr : Has SpellsHoleReason o "reason" r)
      (ht : MayHave (Present SpellsType) none o "tpe" t) : ValueMembers R .hole o (.hole a r t)
  | native {o a f i} (hf : Has SpellsFQName o "fqname" f) (hi : Has SpellsNativeInfo o "info" i) :
      ValueMembers R .native o (.native a f i)
  | external {o a s t} (hs : Has SpellsText o "external-name" s)
      (ht : Has SpellsText o "target-platform" t) : ValueMembers R .external o (.external a s t)

/-- A JSON value spells a value. -/
inductive SpellsValue : Json → V4Value → Prop
  | node {tag v o x} (hw : Wraps ValueTag.table tag v o)
      (ha : MayHave SpellsValueAttrs {} o "attrs" x.attributes)
      (hm : ValueMembers SpellsValue tag o x) : SpellsValue v x
  | classic {x} (h : x.Satisfies spelled) :
      SpellsValue (Classic.encodeValue spelledForm x) (x.mapAttrs Prod.snd Prod.snd)
  | name {n} (hn : n.Canonical) (hw : n.words ≠ []) :
      SpellsValue (.string n.kebab) (.variable {} n)
  | qualified {s f} (h : SpellsQualifiedText s f) : SpellsValue (.string s) (.reference {} f)

end IrDialects.V4
