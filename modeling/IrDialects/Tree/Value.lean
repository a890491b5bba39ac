import IrDialects.Tree.Incomplete
import IrDialects.Tree.Pattern
import IrDialects.Tree.TypeExpr

/-!
# Values and value definitions

Value expressions with an attribute of type `ν` at every value and pattern node and one of type `τ`
at every type node. Definitions bound by `let` are value definitions like those of a module, so the
two notions are defined together.
-/

namespace IrDialects

/-- A declared argument of a value definition. -/
structure Input (τ ν : Type) where
  name : Name
  attrs : ν
  type : TypeExpr τ
deriving Repr

mutual

inductive Value (τ ν : Type) where
  | literal (attrs : ν) (literal : Literal)
  | constructor (attrs : ν) (name : FQName)
  | tuple (attrs : ν) (elements : List (Value τ ν))
  | list (attrs : ν) (items : List (Value τ ν))
  | record (attrs : ν) (fields : List (Name × Value τ ν))
  | variable (attrs : ν) (name : Name)
  | reference (attrs : ν) (name : FQName)
  | field (attrs : ν) (subject : Value τ ν) (name : Name)
  /-- The function that selects a field. -/
  | fieldFunction (attrs : ν) (name : Name)
  | apply (attrs : ν) (function argument : Value τ ν)
  | lambda (attrs : ν) (pattern : Pattern ν) (body : Value τ ν)
  | letDefinition (attrs : ν) (name : Name) (definition : ValueDefinition τ ν) (body : Value τ ν)
  /-- Binds definitions that may refer to each other. -/
  | letRecursion (attrs : ν) (bindings : List (Name × ValueDefinition τ ν)) (body : Value τ ν)
  | destructure (attrs : ν) (pattern : Pattern ν) (subject body : Value τ ν)
  | ifThenElse (attrs : ν) (condition thenBranch elseBranch : Value τ ν)
  | patternMatch (attrs : ν) (subject : Value τ ν) (cases : List (Pattern ν × Value τ ν))
  | updateRecord (attrs : ν) (subject : Value τ ν) (updates : List (Name × Value τ ν))
  | unit (attrs : ν)
  | hole (attrs : ν) (reason : HoleReason) (expected : Option (TypeExpr τ))
  | native (attrs : ν) (name : FQName) (info : NativeInfo)
  /-- A symbol of a target platform. -/
  | external (attrs : ν) (symbol platform : String)

inductive ValueDefinition (τ ν : Type) where
  | mk (inputs : List (Input τ ν)) (output : TypeExpr τ) (body : ValueBody τ ν)

/-- What a definition is given by. -/
inductive ValueBody (τ ν : Type) where
  | expression (value : Value τ ν)
  | native (info : NativeInfo)
  | external (symbol platform : String)
  | incomplete (incompleteness : Incompleteness)

end

variable {τ ν σ μ : Type}

def Input.mapAttrs (f : τ → σ) (g : ν → μ) (i : Input τ ν) : Input σ μ :=
  ⟨i.name, g i.attrs, i.type.mapAttrs f⟩

/-- The attribute of the node at the top. -/
def Value.attributes : Value τ ν → ν
  | .literal a _ | .constructor a _ | .tuple a _ | .list a _ | .record a _ | .variable a _
  | .reference a _ | .field a _ _ | .fieldFunction a _ | .apply a _ _ | .lambda a _ _
  | .letDefinition a _ _ _ | .letRecursion a _ _ | .destructure a _ _ _ | .ifThenElse a _ _ _
  | .patternMatch a _ _ | .updateRecord a _ _ | .unit a | .hole a _ _ | .native a _ _
  | .external a _ _ => a

namespace ValueDefinition

def inputs : ValueDefinition τ ν → List (Input τ ν)
  | mk is _ _ => is

def output : ValueDefinition τ ν → TypeExpr τ
  | mk _ t _ => t

def body : ValueDefinition τ ν → ValueBody τ ν
  | mk _ _ b => b

end ValueDefinition

mutual

def Value.mapAttrs (f : τ → σ) (g : ν → μ) : Value τ ν → Value σ μ
  | .literal a l => .literal (g a) l
  | .constructor a n => .constructor (g a) n
  | .tuple a vs => .tuple (g a) (Value.mapAttrsList f g vs)
  | .list a vs => .list (g a) (Value.mapAttrsList f g vs)
  | .record a fs => .record (g a) (Value.mapAttrsFields f g fs)
  | .variable a n => .variable (g a) n
  | .reference a n => .reference (g a) n
  | .field a v n => .field (g a) (Value.mapAttrs f g v) n
  | .fieldFunction a n => .fieldFunction (g a) n
  | .apply a x y => .apply (g a) (Value.mapAttrs f g x) (Value.mapAttrs f g y)
  | .lambda a p b => .lambda (g a) (p.mapAttrs g) (Value.mapAttrs f g b)
  | .letDefinition a n d b =>
    .letDefinition (g a) n (ValueDefinition.mapAttrs f g d) (Value.mapAttrs f g b)
  | .letRecursion a ds b =>
    .letRecursion (g a) (ValueDefinition.mapAttrsBindings f g ds) (Value.mapAttrs f g b)
  | .destructure a p v b =>
    .destructure (g a) (p.mapAttrs g) (Value.mapAttrs f g v) (Value.mapAttrs f g b)
  | .ifThenElse a c t e =>
    .ifThenElse (g a) (Value.mapAttrs f g c) (Value.mapAttrs f g t) (Value.mapAttrs f g e)
  | .patternMatch a v cs => .patternMatch (g a) (Value.mapAttrs f g v) (Value.mapAttrsCases f g cs)
  | .updateRecord a v us => .updateRecord (g a) (Value.mapAttrs f g v) (Value.mapAttrsFields f g us)
  | .unit a => .unit (g a)
  | .hole a r t => .hole (g a) r (t.map (TypeExpr.mapAttrs f))
  | .native a n i => .native (g a) n i
  | .external a s p => .external (g a) s p

def Value.mapAttrsList (f : τ → σ) (g : ν → μ) : List (Value τ ν) → List (Value σ μ)
  | [] => []
  | v :: vs => Value.mapAttrs f g v :: Value.mapAttrsList f g vs

def Value.mapAttrsFields (f : τ → σ) (g : ν → μ) :
    List (Name × Value τ ν) → List (Name × Value σ μ)
  | [] => []
  | (n, v) :: fs => (n, Value.mapAttrs f g v) :: Value.mapAttrsFields f g fs

def Value.mapAttrsCases (f : τ → σ) (g : ν → μ) :
    List (Pattern ν × Value τ ν) → List (Pattern μ × Value σ μ)
  | [] => []
  | (p, v) :: cs => (p.mapAttrs g, Value.mapAttrs f g v) :: Value.mapAttrsCases f g cs

def ValueDefinition.mapAttrs (f : τ → σ) (g : ν → μ) : ValueDefinition τ ν → ValueDefinition σ μ
  | .mk is t b => .mk (is.map (Input.mapAttrs f g)) (t.mapAttrs f) (ValueBody.mapAttrs f g b)

def ValueDefinition.mapAttrsBindings (f : τ → σ) (g : ν → μ) :
    List (Name × ValueDefinition τ ν) → List (Name × ValueDefinition σ μ)
  | [] => []
  | (n, d) :: ds => (n, ValueDefinition.mapAttrs f g d) :: ValueDefinition.mapAttrsBindings f g ds

def ValueBody.mapAttrs (f : τ → σ) (g : ν → μ) : ValueBody τ ν → ValueBody σ μ
  | .expression v => .expression (Value.mapAttrs f g v)
  | .native i => .native i
  | .external s p => .external s p
  | .incomplete i => .incomplete i

end

end IrDialects
