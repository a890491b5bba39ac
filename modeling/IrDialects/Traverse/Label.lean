import IrDialects.Tree.Module

/-!
# Labels

The names of node variants in reports.
-/

namespace IrDialects

variable {τ ν : Type}

def TypeExpr.label : TypeExpr τ → String
  | .variable .. => "VariableType"
  | .reference .. => "ReferenceType"
  | .tuple .. => "TupleType"
  | .record .. => "RecordType"
  | .extensibleRecord .. => "ExtensibleRecordType"
  | .function .. => "FunctionType"
  | .unit _ => "UnitType"

def Pattern.label : Pattern ν → String
  | .wildcard _ => "WildcardPattern"
  | .as .. => "AsPattern"
  | .tuple .. => "TuplePattern"
  | .constructor .. => "ConstructorPattern"
  | .emptyList _ => "EmptyListPattern"
  | .headTail .. => "HeadTailPattern"
  | .literal .. => "LiteralPattern"
  | .unit _ => "UnitPattern"

def Value.label : Value τ ν → String
  | .literal .. => "LiteralValue"
  | .constructor .. => "ConstructorValue"
  | .tuple .. => "TupleValue"
  | .list .. => "ListValue"
  | .record .. => "RecordValue"
  | .variable .. => "VariableValue"
  | .reference .. => "ReferenceValue"
  | .field .. => "FieldValue"
  | .fieldFunction .. => "FieldFunctionValue"
  | .apply .. => "ApplyValue"
  | .lambda .. => "LambdaValue"
  | .letDefinition .. => "LetDefinitionValue"
  | .letRecursion .. => "LetRecursionValue"
  | .destructure .. => "DestructureValue"
  | .ifThenElse .. => "IfThenElseValue"
  | .patternMatch .. => "PatternMatchValue"
  | .updateRecord .. => "UpdateRecordValue"
  | .unit _ => "UnitValue"
  | .hole .. => "HoleValue"
  | .native .. => "NativeValue"
  | .external .. => "ExternalValue"

def ValueBody.label : ValueBody τ ν → String
  | .expression _ => "ExpressionBody"
  | .native _ => "NativeBody"
  | .external .. => "ExternalBody"
  | .incomplete _ => "IncompleteBody"

def TypeDefinition.label : TypeDefinition τ → String
  | .synonym .. => "TypeAliasDefinition"
  | .custom .. => "CustomTypeDefinition"
  | .incomplete .. => "IncompleteTypeDefinition"

def TypeSpecification.label : TypeSpecification τ → String
  | .synonym .. => "TypeAliasSpecification"
  | .abstract _ => "OpaqueTypeSpecification"
  | .custom .. => "CustomTypeSpecification"

end IrDialects
