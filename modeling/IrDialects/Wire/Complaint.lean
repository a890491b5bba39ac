import IrDialects.Json.Basic
import IrDialects.Text.Quoted

/-!
# Complaints of the decoders

What can be wrong with a piece of a document, each with its class and its wording.
-/

namespace IrDialects

/-- The classes of decoding issues. -/
inductive IssueKind where
  /-- A wrong JSON kind, a wrong number of fields, an unknown tag or a missing field. -/
  | malformedShape
  /-- A format version that the dialect does not support. -/
  | unknownFormatVersion
  /-- A node of another kind, or a scalar outside its domain. -/
  | fieldTypeMismatch
deriving DecidableEq, Repr

def IssueKind.code : IssueKind → String
  | .malformedShape => "MALFORMED_SHAPE"
  | .unknownFormatVersion => "UNKNOWN_FORMAT_VERSION"
  | .fieldTypeMismatch => "FIELD_TYPE_MISMATCH"

def IssueKind.words : IssueKind → String
  | .malformedShape => "malformed shape"
  | .unknownFormatVersion => "unknown format version"
  | .fieldTypeMismatch => "field type mismatch"

/-- What is wrong with a piece of a document. -/
inductive Complaint where
  /-- A JSON value of another kind than `wanted`. -/
  | expected (wanted what : String) (got : Json.Kind)
  | emptyArray (what : String)
  | wrapperKeys (what : String) (count : Nat)
  /-- A tagged node with a wrong number of fields. -/
  | fieldCount (tag : String) (wanted got : Nat)
  /-- An untagged sequence with a wrong number of elements. -/
  | elementCount (what : String) (wanted got : Nat)
  | partCount (got : Nat)
  | missingField (what field : String)
  | unknownTag (what tag : String)
  /-- A tag of a node of the kind `other`. -/
  | foreignTag (what other tag : String)
  | notWhole (what spelling : String)
  | notFloat (what spelling : String)
  | notOneCharacter (text : String)
  | badDecimal (reason : String)
  | unknownAccess (text : String)
  | unknownEntryKind (text : String)
  | namelessVariable (text : String)
  | badQualifiedName (text : String)
  | unrecognized (got : Json.Kind)
  /-- A version of a kind that `subject` never has; `wanted` says which kinds it has. -/
  | versionKind (subject wanted : String) (got : Json.Kind)
  | unsupportedVersion (subject version : String)
  /-- A document nested more deeply than the decoder was told. -/
  | tooDeep
  /-- Any other complaint, in the words of the caller. -/
  | custom (kind : IssueKind) (text : String)
deriving DecidableEq, Repr

namespace Complaint

def kind : Complaint → IssueKind
  | foreignTag .. | notWhole .. | notFloat .. | notOneCharacter _ | badDecimal _ | unknownAccess _
  | unknownEntryKind _ => .fieldTypeMismatch
  | versionKind .. | unsupportedVersion .. => .unknownFormatVersion
  | custom k _ => k
  | _ => .malformedShape

def text : Complaint → String
  | expected wanted what got => "expected " ++ wanted ++ " for " ++ what ++ ", got " ++ got.name
  | emptyArray what => "empty array for " ++ what
  | wrapperKeys what n =>
    "expected single-key object wrapper for " ++ what ++ ", got " ++ toString n ++ " keys"
  | fieldCount tag wanted got =>
    tag ++ " expects " ++ toString wanted ++ " fields, got " ++ toString got
  | elementCount what wanted got =>
    what ++ " expects " ++ toString wanted ++ " elements, got " ++ toString got
  | partCount got => "fully qualified name expects 3 parts, got " ++ toString got
  | missingField what field => what ++ " is missing field " ++ Text.Quoted.quote field
  | unknownTag what tag => "unknown " ++ what ++ " tag " ++ Text.Quoted.quote tag
  | foreignTag what other tag =>
    "expected " ++ what ++ ", found " ++ other ++ " tag " ++ Text.Quoted.quote tag
  | notWhole what s => "expected whole number for " ++ what ++ ", got " ++ s
  | notFloat what s => "number " ++ s ++ " out of range for " ++ what
  | notOneCharacter s => "CharLiteral expects a single character, got " ++ Text.Quoted.quote s
  | badDecimal reason => reason
  | unknownAccess s => "unknown access level " ++ Text.Quoted.quote s
  | unknownEntryKind s => "unknown entry point kind " ++ Text.Quoted.quote s
  | namelessVariable s => "variable shorthand " ++ Text.Quoted.quote s ++ " has no name"
  | badQualifiedName s => "invalid fully qualified name " ++ Text.Quoted.quote s
  | unrecognized got =>
    "unrecognized format: expected a format version envelope or a distribution, got " ++ got.name
  | versionKind subject wanted got => subject ++ " must be " ++ wanted ++ ", got " ++ got.name
  | unsupportedVersion subject version => "unsupported " ++ subject ++ " " ++ version
  | tooDeep => "nesting is too deep"
  | custom _ s => s

end Complaint

end IrDialects
