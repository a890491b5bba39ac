import IrDialects.Text.LowerCase
import IrDialects.Wire.Issue

/-!
# Tags

The nodes of a tree are written with tags. A tag is recognised in any case and with hyphens or
underscores anywhere in it; some nodes have further spellings from older documents.
-/

namespace IrDialects

/-- The kinds of nodes that are told apart by tags. -/
inductive NodeKind where
  | literal | type | pattern | value | valueBody | typeDefinition | typeSpecification
  | distribution | holeReason | incompleteness | nativeHint
  /-- A kind that has no tags. -/
  | untagged (name : String)
deriving DecidableEq, Repr

/-- The name of a kind of nodes in messages. -/
def NodeKind.name : NodeKind → String
  | .literal => "literal"
  | .type => "type"
  | .pattern => "pattern"
  | .value => "value"
  | .valueBody => "value body"
  | .typeDefinition => "type definition"
  | .typeSpecification => "type specification"
  | .distribution => "distribution"
  | .holeReason => "hole reason"
  | .incompleteness => "incompleteness"
  | .nativeHint => "native hint"
  | .untagged name => name

def NodeKind.ofName : String → NodeKind
  | "literal" => .literal
  | "type" => .type
  | "pattern" => .pattern
  | "value" => .value
  | "value body" => .valueBody
  | "type definition" => .typeDefinition
  | "type specification" => .typeSpecification
  | "distribution" => .distribution
  | "hole reason" => .holeReason
  | "incompleteness" => .incompleteness
  | "native hint" => .nativeHint
  | name => .untagged name

/-- The tags of literals. -/
inductive LiteralTag where
  | bool | char | string | integer | float | decimal
deriving DecidableEq, Repr

/-- The tags of types. -/
inductive TypeTag where
  | variable | reference | tuple | record | extensibleRecord | function | unit
deriving DecidableEq, Repr

/-- The tags of patterns. -/
inductive PatternTag where
  | wildcard | as | tuple | constructor | emptyList | headTail | literal | unit
deriving DecidableEq, Repr

/-- The tags of values. -/
inductive ValueTag where
  | literal | constructor | tuple | list | record | variable | reference | field | fieldFunction
  | apply | lambda | letDefinition | letRecursion | destructure | ifThenElse | patternMatch
  | updateRecord | unit | hole | native | external
deriving DecidableEq, Repr

/-- The tags of the bodies of value definitions. -/
inductive BodyTag where
  | expression | native | external | incomplete
deriving DecidableEq, Repr

/-- The tags of type definitions. -/
inductive TypeDefinitionTag where
  | synonym | custom | incomplete
deriving DecidableEq, Repr

/-- The tags of type specifications. -/
inductive TypeSpecificationTag where
  | synonym | abstract | custom
deriving DecidableEq, Repr

/-- The tags of distributions. -/
inductive DistributionTag where
  | library | specs | application
deriving DecidableEq, Repr

/-- The tags of the reasons for holes. -/
inductive HoleReasonTag where
  | unresolvedReference | deletedDuringRefactor | typeMismatch | draft
deriving DecidableEq, Repr

/-- The tags of the ways in which a definition can be incomplete. -/
inductive IncompletenessTag where
  | hole | draft
deriving DecidableEq, Repr

/-- The tags of the hints about native values. -/
inductive NativeHintTag where
  | arithmetic | comparison | stringOp | collectionOp | platformSpecific
deriving DecidableEq, Repr

/-- The tags of one kind of nodes with their spellings. -/
structure TagTable (α : Type) where
  kind : NodeKind
  /-- The spelling in which each tag is written. -/
  canonical : List (String × α)
  /-- Further spellings that are read. -/
  aliases : List (String × α) := []

namespace TagTable

variable {α β : Type}

/-- The form in which two spellings of one tag agree. -/
def fold (s : String) : List Char :=
  (s.toList.filter fun c => c != '_' && c != '-').map Text.LowerCase.lowerChar

/-- The folded spellings of all tags. -/
def index (t : TagTable α) : List (List Char × α) :=
  (t.canonical ++ t.aliases).map fun (s, a) => (fold s, a)

def find? (t : TagTable α) (s : String) : Option α := t.index.lookup (fold s)

/-- The table with its tags given by their canonical spelling. -/
def map (f : α → β) (t : TagTable α) : TagTable β :=
  ⟨t.kind, t.canonical.map fun (s, a) => (s, f a), t.aliases.map fun (s, a) => (s, f a)⟩

end TagTable

def LiteralTag.name : LiteralTag → String
  | .bool => "BoolLiteral"
  | .char => "CharLiteral"
  | .string => "StringLiteral"
  | .integer => "IntegerLiteral"
  | .float => "FloatLiteral"
  | .decimal => "DecimalLiteral"

def LiteralTag.table : TagTable LiteralTag :=
  ⟨.literal, [.bool, .char, .string, .integer, .float, .decimal].map fun t => (name t, t),
    [("WholeNumberLiteral", .integer), ("IntLiteral", .integer)]⟩

def TypeTag.name : TypeTag → String
  | .variable => "Variable"
  | .reference => "Reference"
  | .tuple => "Tuple"
  | .record => "Record"
  | .extensibleRecord => "ExtensibleRecord"
  | .function => "Function"
  | .unit => "Unit"

def TypeTag.table : TagTable TypeTag :=
  ⟨.type, [.variable, .reference, .tuple, .record, .extensibleRecord, .function, .unit].map
    fun t => (name t, t), []⟩

def PatternTag.name : PatternTag → String
  | .wildcard => "WildcardPattern"
  | .as => "AsPattern"
  | .tuple => "TuplePattern"
  | .constructor => "ConstructorPattern"
  | .emptyList => "EmptyListPattern"
  | .headTail => "HeadTailPattern"
  | .literal => "LiteralPattern"
  | .unit => "UnitPattern"

def PatternTag.table : TagTable PatternTag :=
  ⟨.pattern, [.wildcard, .as, .tuple, .constructor, .emptyList, .headTail, .literal, .unit].map
    fun t => (name t, t), []⟩

def ValueTag.name : ValueTag → String
  | .literal => "Literal"
  | .constructor => "Constructor"
  | .tuple => "Tuple"
  | .list => "List"
  | .record => "Record"
  | .variable => "Variable"
  | .reference => "Reference"
  | .field => "Field"
  | .fieldFunction => "FieldFunction"
  | .apply => "Apply"
  | .lambda => "Lambda"
  | .letDefinition => "LetDefinition"
  | .letRecursion => "LetRecursion"
  | .destructure => "Destructure"
  | .ifThenElse => "IfThenElse"
  | .patternMatch => "PatternMatch"
  | .updateRecord => "UpdateRecord"
  | .unit => "Unit"
  | .hole => "Hole"
  | .native => "Native"
  | .external => "External"

def ValueTag.table : TagTable ValueTag :=
  ⟨.value, [.literal, .constructor, .tuple, .list, .record, .variable, .reference, .field,
    .fieldFunction, .apply, .lambda, .letDefinition, .letRecursion, .destructure, .ifThenElse,
    .patternMatch, .updateRecord, .unit, .hole, .native, .external].map fun t => (name t, t),
    [("Update", .updateRecord)]⟩

def BodyTag.name : BodyTag → String
  | .expression => "ExpressionBody"
  | .native => "NativeBody"
  | .external => "ExternalBody"
  | .incomplete => "IncompleteBody"

def BodyTag.table : TagTable BodyTag :=
  ⟨.valueBody, [.expression, .native, .external, .incomplete].map fun t => (name t, t), []⟩

def TypeDefinitionTag.name : TypeDefinitionTag → String
  | .synonym => "TypeAliasDefinition"
  | .custom => "CustomTypeDefinition"
  | .incomplete => "IncompleteTypeDefinition"

def TypeDefinitionTag.table : TagTable TypeDefinitionTag :=
  ⟨.typeDefinition, [.synonym, .custom, .incomplete].map fun t => (name t, t), []⟩

def TypeSpecificationTag.name : TypeSpecificationTag → String
  | .synonym => "TypeAliasSpecification"
  | .abstract => "OpaqueTypeSpecification"
  | .custom => "CustomTypeSpecification"

def TypeSpecificationTag.table : TagTable TypeSpecificationTag :=
  ⟨.typeSpecification, [.synonym, .abstract, .custom].map fun t => (name t, t), []⟩

def DistributionTag.name : DistributionTag → String
  | .library => "Library"
  | .specs => "Specs"
  | .application => "Application"

def DistributionTag.table : TagTable DistributionTag :=
  ⟨.distribution, [.library, .specs, .application].map fun t => (name t, t), []⟩

def HoleReasonTag.name : HoleReasonTag → String
  | .unresolvedReference => "UnresolvedReference"
  | .deletedDuringRefactor => "DeletedDuringRefactor"
  | .typeMismatch => "TypeMismatch"
  | .draft => "Draft"

def HoleReasonTag.table : TagTable HoleReasonTag :=
  ⟨.holeReason, [.unresolvedReference, .deletedDuringRefactor, .typeMismatch, .draft].map
    fun t => (name t, t), []⟩

def IncompletenessTag.name : IncompletenessTag → String
  | .hole => "Hole"
  | .draft => "Draft"

def IncompletenessTag.table : TagTable IncompletenessTag :=
  ⟨.incompleteness, [.hole, .draft].map fun t => (name t, t), []⟩

def NativeHintTag.name : NativeHintTag → String
  | .arithmetic => "Arithmetic"
  | .comparison => "Comparison"
  | .stringOp => "StringOp"
  | .collectionOp => "CollectionOp"
  | .platformSpecific => "PlatformSpecific"

def NativeHintTag.table : TagTable NativeHintTag :=
  ⟨.nativeHint, [.arithmetic, .comparison, .stringOp, .collectionOp, .platformSpecific].map
    fun t => (name t, t), []⟩

namespace NodeKind

/-- The tags of a kind of nodes, given by their canonical spellings. -/
def table : NodeKind → TagTable String
  | literal => LiteralTag.table.map LiteralTag.name
  | type => TypeTag.table.map TypeTag.name
  | pattern => PatternTag.table.map PatternTag.name
  | value => ValueTag.table.map ValueTag.name
  | valueBody => BodyTag.table.map BodyTag.name
  | typeDefinition => TypeDefinitionTag.table.map TypeDefinitionTag.name
  | typeSpecification => TypeSpecificationTag.table.map TypeSpecificationTag.name
  | distribution => DistributionTag.table.map DistributionTag.name
  | holeReason => HoleReasonTag.table.map HoleReasonTag.name
  | incompleteness => IncompletenessTag.table.map IncompletenessTag.name
  | nativeHint => NativeHintTag.table.map NativeHintTag.name
  | untagged name => ⟨.untagged name, [], []⟩

/-- The canonical spellings of the tags of a kind of nodes. -/
def canonicalTags (k : NodeKind) : List String := k.table.canonical.map Prod.fst

/-- The canonical spelling of the tag that `s` spells. -/
def lookup? (k : NodeKind) (s : String) : Option String := k.table.find? s

/-- The kinds whose tags are recognised when they stand in a foreign place, in order of precedence. -/
def recognized : List NodeKind :=
  [type, value, pattern, literal, typeDefinition, typeSpecification, distribution]

/-- The complaint about a tag that the kind does not have. -/
def unknownTag (k : NodeKind) (tag : String) : Complaint :=
  match recognized.find? fun other => other != k && (other.lookup? tag).isSome with
  | some other => .foreignTag k.name other.name tag
  | none => .unknownTag k.name tag

end NodeKind

end IrDialects
