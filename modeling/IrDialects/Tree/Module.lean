import IrDialects.Tree.Definition

/-!
# Modules and packages

A module holds types and values, a package holds modules. Both come as definitions, with access
levels and bodies, and as specifications.
-/

namespace IrDialects

variable {τ ν σ μ : Type}

structure TypeEntry (τ : Type) where
  name : Name
  access : Access
  doc : String
  definition : TypeDefinition τ
deriving Repr

structure ValueEntry (τ ν : Type) where
  name : Name
  access : Access
  doc : String
  definition : ValueDefinition τ ν

/-- The full contents of a module. -/
structure ModuleDefinition (τ ν : Type) where
  types : List (TypeEntry τ) := []
  values : List (ValueEntry τ ν) := []
  doc : String := ""

structure TypeSpecEntry (τ : Type) where
  name : Name
  doc : String
  specification : TypeSpecification τ
deriving Repr

structure ValueSpecEntry (τ : Type) where
  name : Name
  doc : String
  specification : ValueSpecification τ
deriving Repr

/-- The public interface of a module. -/
structure ModuleSpecification (τ : Type) where
  types : List (TypeSpecEntry τ) := []
  values : List (ValueSpecEntry τ) := []
  doc : String := ""
deriving Repr

structure ModuleEntry (τ ν : Type) where
  name : Path
  access : Access
  definition : ModuleDefinition τ ν

/-- The full contents of a package. -/
structure PackageDefinition (τ ν : Type) where
  modules : List (ModuleEntry τ ν) := []

structure ModuleSpecEntry (τ : Type) where
  name : Path
  specification : ModuleSpecification τ
deriving Repr

/-- The public interface of a package. -/
structure PackageSpecification (τ : Type) where
  modules : List (ModuleSpecEntry τ) := []
deriving Repr

def TypeEntry.mapAttrs (f : τ → σ) (e : TypeEntry τ) : TypeEntry σ :=
  ⟨e.name, e.access, e.doc, e.definition.mapAttrs f⟩

def ValueEntry.mapAttrs (f : τ → σ) (g : ν → μ) (e : ValueEntry τ ν) : ValueEntry σ μ :=
  ⟨e.name, e.access, e.doc, e.definition.mapAttrs f g⟩

def TypeSpecEntry.mapAttrs (f : τ → σ) (e : TypeSpecEntry τ) : TypeSpecEntry σ :=
  ⟨e.name, e.doc, e.specification.mapAttrs f⟩

def ValueSpecEntry.mapAttrs (f : τ → σ) (e : ValueSpecEntry τ) : ValueSpecEntry σ :=
  ⟨e.name, e.doc, e.specification.mapAttrs f⟩

namespace ModuleDefinition

def mapAttrs (f : τ → σ) (g : ν → μ) (m : ModuleDefinition τ ν) : ModuleDefinition σ μ :=
  ⟨m.types.map (TypeEntry.mapAttrs f), m.values.map (ValueEntry.mapAttrs f g), m.doc⟩

/-- The first type with a given name. -/
def type? (m : ModuleDefinition τ ν) (name : Name) : Option (TypeEntry τ) :=
  m.types.find? (·.name = name)

/-- The first value with a given name. -/
def value? (m : ModuleDefinition τ ν) (name : Name) : Option (ValueEntry τ ν) :=
  m.values.find? (·.name = name)

end ModuleDefinition

def ModuleSpecification.mapAttrs (f : τ → σ) (m : ModuleSpecification τ) : ModuleSpecification σ :=
  ⟨m.types.map (TypeSpecEntry.mapAttrs f), m.values.map (ValueSpecEntry.mapAttrs f), m.doc⟩

def ModuleEntry.mapAttrs (f : τ → σ) (g : ν → μ) (e : ModuleEntry τ ν) : ModuleEntry σ μ :=
  ⟨e.name, e.access, e.definition.mapAttrs f g⟩

def ModuleSpecEntry.mapAttrs (f : τ → σ) (e : ModuleSpecEntry τ) : ModuleSpecEntry σ :=
  ⟨e.name, e.specification.mapAttrs f⟩

namespace PackageDefinition

def mapAttrs (f : τ → σ) (g : ν → μ) (p : PackageDefinition τ ν) : PackageDefinition σ μ :=
  ⟨p.modules.map (ModuleEntry.mapAttrs f g)⟩

/-- The first module with a given name. -/
def module? (p : PackageDefinition τ ν) (name : Path) : Option (ModuleEntry τ ν) :=
  p.modules.find? (·.name = name)

end PackageDefinition

def PackageSpecification.mapAttrs (f : τ → σ) (p : PackageSpecification τ) :
    PackageSpecification σ :=
  ⟨p.modules.map (ModuleSpecEntry.mapAttrs f)⟩

end IrDialects
