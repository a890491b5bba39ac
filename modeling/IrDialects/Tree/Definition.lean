import IrDialects.Text.LowerCase
import IrDialects.Tree.Value

/-!
# Definitions and specifications

What a module says about its types and values: definitions in full, specifications as seen from
outside.
-/

namespace IrDialects

/-- Who can see a definition. -/
inductive Access where
  | everyone
  | packageOnly
deriving DecidableEq, Repr

namespace Access

def name : Access → String
  | everyone => "Public"
  | packageOnly => "Private"

/-- The access level with a given name, in any case. -/
def parse? (s : String) : Option Access :=
  let t := s.toList.map Char.toLower
  if t = "public".toList then some everyone
  else if t = "private".toList then some packageOnly
  else none

end Access

variable {τ σ : Type}

/-- A constructor of a custom type, with named arguments. -/
structure Constructor (τ : Type) where
  name : Name
  arguments : TypeFields τ
deriving Repr

def Constructor.mapAttrs (f : τ → σ) (c : Constructor τ) : Constructor σ :=
  ⟨c.name, TypeExpr.mapAttrsFields f c.arguments⟩

inductive TypeDefinition (τ : Type) where
  | synonym (params : List Name) (type : TypeExpr τ)
  /-- A tagged union; the access level is that of its constructors. -/
  | custom (params : List Name) (access : Access) (constructors : List (Constructor τ))
  | incomplete (params : List Name) (incompleteness : Incompleteness) (known : Option (TypeExpr τ))
deriving Repr

namespace TypeDefinition

def params : TypeDefinition τ → List Name
  | synonym ps _ | custom ps _ _ | incomplete ps _ _ => ps

def mapAttrs (f : τ → σ) : TypeDefinition τ → TypeDefinition σ
  | synonym ps t => synonym ps (t.mapAttrs f)
  | custom ps a cs => custom ps a (cs.map (Constructor.mapAttrs f))
  | incomplete ps i t => incomplete ps i (t.map (TypeExpr.mapAttrs f))

end TypeDefinition

/-- The public view of a type. -/
inductive TypeSpecification (τ : Type) where
  | synonym (params : List Name) (type : TypeExpr τ)
  /-- A type whose structure is hidden. -/
  | abstract (params : List Name)
  | custom (params : List Name) (constructors : List (Constructor τ))
deriving Repr

namespace TypeSpecification

def mapAttrs (f : τ → σ) : TypeSpecification τ → TypeSpecification σ
  | synonym ps t => synonym ps (t.mapAttrs f)
  | abstract ps => abstract ps
  | custom ps cs => custom ps (cs.map (Constructor.mapAttrs f))

end TypeSpecification

/-- The signature of a value. -/
structure ValueSpecification (τ : Type) where
  inputs : TypeFields τ
  output : TypeExpr τ
deriving Repr

def ValueSpecification.mapAttrs (f : τ → σ) (s : ValueSpecification τ) : ValueSpecification σ :=
  ⟨TypeExpr.mapAttrsFields f s.inputs, s.output.mapAttrs f⟩

end IrDialects
