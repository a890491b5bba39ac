import IrDialects.Number.Whole
import IrDialects.Text.Pieces
import IrDialects.Tree.Module

/-!
# Distributions and documents

A distribution is what a document carries: a library, the public interfaces of a package, or an
application with entry points. A document adds the version of its format.
-/

namespace IrDialects

inductive EntryKind where
  | main
  | command
  | handler
deriving DecidableEq, Repr

namespace EntryKind

def name : EntryKind → String
  | main => "main"
  | command => "command"
  | handler => "handler"

/-- The kind with a given name, in any case. -/
def parse? (s : String) : Option EntryKind :=
  let t := Text.LowerCase.lower s
  if t = "main" then some main
  else if t = "command" then some command
  else if t = "handler" then some handler
  else none

end EntryKind

/-- A value from which an application can be started. -/
structure EntryPoint where
  name : Name
  target : FQName
  kind : EntryKind
  doc : String := ""
deriving DecidableEq, Repr

/-- The interface of a package that a distribution depends on. -/
structure Dependency (τ : Type) where
  name : Path
  specification : PackageSpecification τ
deriving Repr

/-- What a document carries. -/
inductive Distribution (τ ν : Type) where
  | library (package : Path) (dependencies : List (Dependency τ))
      (definition : PackageDefinition τ ν)
  | specs (package : Path) (dependencies : List (Dependency τ))
      (specification : PackageSpecification τ)
  | application (package : Path) (dependencies : List (Dependency τ))
      (definition : PackageDefinition τ ν) (entryPoints : List EntryPoint)

variable {τ ν σ μ : Type}

def Dependency.mapAttrs (f : τ → σ) (d : Dependency τ) : Dependency σ :=
  ⟨d.name, d.specification.mapAttrs f⟩

namespace Distribution

def package : Distribution τ ν → Path
  | library p _ _ | specs p _ _ | application p _ _ _ => p

def dependencies : Distribution τ ν → List (Dependency τ)
  | library _ ds _ | specs _ ds _ | application _ ds _ _ => ds

/-- The package definition; a distribution of interfaces counts as an empty package. -/
def definition : Distribution τ ν → PackageDefinition τ ν
  | library _ _ d | application _ _ d _ => d
  | specs .. => {}

def kindName : Distribution τ ν → String
  | library .. => "Library"
  | specs .. => "Specs"
  | application .. => "Application"

def mapAttrs (f : τ → σ) (g : ν → μ) : Distribution τ ν → Distribution σ μ
  | library p ds d => library p (ds.map (Dependency.mapAttrs f)) (d.mapAttrs f g)
  | specs p ds s => specs p (ds.map (Dependency.mapAttrs f)) (s.mapAttrs f)
  | application p ds d es => application p (ds.map (Dependency.mapAttrs f)) (d.mapAttrs f g) es

end Distribution

/-- The version of a document's format, an integer or a text that is not empty. -/
inductive FormatVersion where
  | number (n : Int)
  | text (s : String)
deriving DecidableEq, Repr

namespace FormatVersion

/-- The version given by a text; the empty text is no version and counts as the number zero. -/
def ofText (s : String) : FormatVersion := if s.isEmpty then number 0 else text s

/-- The version that a new Classic document gets. -/
def defaultClassic : FormatVersion := number 3

/-- The version that a new V4 document gets. -/
def defaultV4 : FormatVersion := text "4.0.0"

def isText : FormatVersion → Bool
  | number _ => false
  | text _ => true

/-- The number before the first point. -/
def major? : FormatVersion → Option Int
  | number n => some n
  | text s =>
    let cs := s.toList
    let head := ((Text.cut? '.' cs).map Prod.fst).getD cs
    match Number.Whole.signed 64 head with
    | .ok n => some n
    | .error _ => none

/-- The message about a version text without a number at its start. -/
def invalidMessage (s : String) : String := "invalid format version " ++ Text.Quoted.quote s

def toText : FormatVersion → String
  | number n => toString n
  | text s => s

end FormatVersion

/-- A distribution with the version of its format. -/
structure Document (τ ν : Type) where
  version : FormatVersion
  distribution : Distribution τ ν

def Document.mapAttrs (f : τ → σ) (g : ν → μ) (d : Document τ ν) : Document σ μ :=
  ⟨d.version, d.distribution.mapAttrs f g⟩

end IrDialects
