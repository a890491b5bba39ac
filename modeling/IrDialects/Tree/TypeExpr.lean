import IrDialects.Naming.FQName

/-!
# Type expressions

Types with an attribute of type `τ` at every node.
-/

namespace IrDialects

inductive TypeExpr (τ : Type) where
  | variable (attrs : τ) (name : Name)
  | reference (attrs : τ) (name : FQName) (arguments : List (TypeExpr τ))
  | tuple (attrs : τ) (elements : List (TypeExpr τ))
  | record (attrs : τ) (fields : List (Name × TypeExpr τ))
  /-- A record type that is open over a type variable. -/
  | extensibleRecord (attrs : τ) (rest : Name) (fields : List (Name × TypeExpr τ))
  | function (attrs : τ) (argument result : TypeExpr τ)
  | unit (attrs : τ)
deriving Repr, Inhabited

abbrev TypeFields (τ : Type) := List (Name × TypeExpr τ)

namespace TypeExpr

variable {τ σ : Type}

/-- The attribute of the node at the top. -/
def attributes : TypeExpr τ → τ
  | .variable a _ | .reference a _ _ | .tuple a _ | .record a _ | .extensibleRecord a _ _
  | .function a _ _ | .unit a => a

mutual

def mapAttrs (f : τ → σ) : TypeExpr τ → TypeExpr σ
  | .variable a n => .variable (f a) n
  | .reference a n ts => .reference (f a) n (mapAttrsList f ts)
  | .tuple a ts => .tuple (f a) (mapAttrsList f ts)
  | .record a fs => .record (f a) (mapAttrsFields f fs)
  | .extensibleRecord a r fs => .extensibleRecord (f a) r (mapAttrsFields f fs)
  | .function a x y => .function (f a) (mapAttrs f x) (mapAttrs f y)
  | .unit a => .unit (f a)

def mapAttrsList (f : τ → σ) : List (TypeExpr τ) → List (TypeExpr σ)
  | [] => []
  | t :: ts => mapAttrs f t :: mapAttrsList f ts

def mapAttrsFields (f : τ → σ) : List (Name × TypeExpr τ) → List (Name × TypeExpr σ)
  | [] => []
  | (n, t) :: fs => (n, mapAttrs f t) :: mapAttrsFields f fs

end

end TypeExpr

end IrDialects
