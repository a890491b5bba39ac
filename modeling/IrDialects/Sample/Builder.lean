import IrDialects.Tree.Attributes
import IrDialects.Tree.Distribution

/-!
# Building trees

Short forms for trees whose attributes are all alike.
-/

namespace IrDialects

/-- The attributes of the nodes to be built. -/
structure Builder (τ ν : Type) where
  onTypes : τ
  onValues : ν

namespace Builder

/-- Classic trees without attributes. -/
def classic : Builder ClassicAttrs ClassicAttrs := ⟨{}, {}⟩

/-- V4 trees without attributes. -/
def v4 : Builder TypeAttrs ValueAttrs := ⟨{}, {}⟩

variable {τ ν : Type} (b : Builder τ ν)

def typeVariable (name : String) : TypeExpr τ := .variable b.onTypes (.parse name)

def typeReference (name : FQName) (arguments : List (TypeExpr τ)) : TypeExpr τ :=
  .reference b.onTypes name arguments

/-- The type of functions of several arguments, taken one at a time. -/
def functionType (arguments : List (TypeExpr τ)) (result : TypeExpr τ) : TypeExpr τ :=
  arguments.foldr (.function b.onTypes) result

def tupleType (elements : List (TypeExpr τ)) : TypeExpr τ := .tuple b.onTypes elements

def unitType : TypeExpr τ := .unit b.onTypes

def var (name : String) : Value τ ν := .variable b.onValues (.parse name)

def reference (name : FQName) : Value τ ν := .reference b.onValues name

def constructor (name : FQName) : Value τ ν := .constructor b.onValues name

def literal (l : Literal) : Value τ ν := .literal b.onValues l

def integer (n : Int) : Value τ ν := b.literal (.integer n)

/-- A function applied to arguments one at a time. -/
def apply (f : Value τ ν) (arguments : List (Value τ ν)) : Value τ ν :=
  arguments.foldl (.apply b.onValues) f

def lambda (p : Pattern ν) (body : Value τ ν) : Value τ ν := .lambda b.onValues p body

def tuple (elements : List (Value τ ν)) : Value τ ν := .tuple b.onValues elements

def list (items : List (Value τ ν)) : Value τ ν := .list b.onValues items

def field (v : Value τ ν) (name : String) : Value τ ν := .field b.onValues v (.parse name)

def unit : Value τ ν := .unit b.onValues

def patternMatch (subject : Value τ ν) (cases : List (Pattern ν × Value τ ν)) : Value τ ν :=
  .patternMatch b.onValues subject cases

def hole (reason : HoleReason) (expected : Option (TypeExpr τ)) : Value τ ν :=
  .hole b.onValues reason expected

def wildcard : Pattern ν := .wildcard b.onValues

/-- The pattern that binds anything to a name. -/
def bind (name : String) : Pattern ν := .as b.onValues b.wildcard (.parse name)

def input (name : String) (t : TypeExpr τ) : Input τ ν := ⟨.parse name, b.onValues, t⟩

end Builder

def ValueDefinition.ofExpression {τ ν : Type} (inputs : List (Input τ ν)) (output : TypeExpr τ)
    (body : Value τ ν) : ValueDefinition τ ν :=
  .mk inputs output (.expression body)

end IrDialects
