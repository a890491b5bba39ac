import IrDialects.Naming.FQName
import IrDialects.Tree.Literal

/-!
# Patterns

Match patterns with an attribute of type `ν` at every node.
-/

namespace IrDialects

inductive Pattern (ν : Type) where
  | wildcard (attrs : ν)
  /-- Binds what `pattern` matches to a name. -/
  | as (attrs : ν) (pattern : Pattern ν) (name : Name)
  | tuple (attrs : ν) (elements : List (Pattern ν))
  | constructor (attrs : ν) (name : FQName) (arguments : List (Pattern ν))
  | emptyList (attrs : ν)
  | headTail (attrs : ν) (head tail : Pattern ν)
  | literal (attrs : ν) (literal : Literal)
  | unit (attrs : ν)
deriving Repr, Inhabited

namespace Pattern

variable {ν μ : Type}

/-- The attribute of the node at the top. -/
def attributes : Pattern ν → ν
  | wildcard a | as a _ _ | tuple a _ | constructor a _ _ | emptyList a | headTail a _ _
  | literal a _ | unit a => a

mutual

def mapAttrs (g : ν → μ) : Pattern ν → Pattern μ
  | .wildcard a => .wildcard (g a)
  | .as a p n => .as (g a) (mapAttrs g p) n
  | .tuple a ps => .tuple (g a) (mapAttrsList g ps)
  | .constructor a n ps => .constructor (g a) n (mapAttrsList g ps)
  | .emptyList a => .emptyList (g a)
  | .headTail a h t => .headTail (g a) (mapAttrs g h) (mapAttrs g t)
  | .literal a l => .literal (g a) l
  | .unit a => .unit (g a)

def mapAttrsList (g : ν → μ) : List (Pattern ν) → List (Pattern μ)
  | [] => []
  | p :: ps => mapAttrs g p :: mapAttrsList g ps

end

end Pattern

end IrDialects
