import IrDialects.Traverse.Walk
import IrDialects.Tree.Distribution

/-!
# Visiting trees

A visitor sees every node before the parts of the node, at its position, and says whether to go on to
the parts. Dependencies come before the package, types before values, inputs before the output, and
the output before the body.
-/

namespace IrDialects

/-- What a visitor sees. -/
inductive Visit (τ ν : Type) where
  | moduleDefinition (name : Path) (definition : ModuleDefinition τ ν)
  | moduleSpecification (name : Path) (specification : ModuleSpecification τ)
  | typeDefinition (name : Name) (definition : TypeDefinition τ)
  | typeSpecification (name : Name) (specification : TypeSpecification τ)
  | valueDefinition (name : Name) (definition : ValueDefinition τ ν)
  | valueSpecification (name : Name) (specification : ValueSpecification τ)
  | type (type : TypeExpr τ)
  | pattern (pattern : Pattern ν)
  | value (value : Value τ ν)

/-- Something that looks at nodes, with a state of type `σ` and failures of type `ε`. -/
structure Visitor (τ ν σ ε : Type) where
  /-- Looks at a node and says whether to go on to its parts. -/
  visit : Visit τ ν → Cursor → σ → Except ε Bool × σ

namespace Visitor

open Walk (within)

variable {τ ν σ ε : Type}

/-- Visits a node, and then its parts if the visitor says so. -/
def meet (v : Visitor τ ν σ ε) (node : Visit τ ν) (parts : Walk σ ε Unit) : Walk σ ε Unit := do
  if ← Walk.ask (v.visit node) then parts

mutual

def typeParts (v : Visitor τ ν σ ε) : TypeExpr τ → Walk σ ε Unit
  | .variable .. | .unit _ => pure ()
  | .reference _ _ ts => within "args" (types v 0 ts)
  | .tuple _ ts => within "elements" (types v 0 ts)
  | .record _ fs | .extensibleRecord _ _ fs => within "fields" (typeFields v fs)
  | .function _ x y => do
    within "arg" (v.meet (.type x) (typeParts v x))
    within "result" (v.meet (.type y) (typeParts v y))

def types (v : Visitor τ ν σ ε) : Nat → List (TypeExpr τ) → Walk σ ε Unit
  | _, [] => pure ()
  | i, t :: ts => do
    within (toString i) (v.meet (.type t) (typeParts v t))
    types v (i + 1) ts

def typeFields (v : Visitor τ ν σ ε) : List (Name × TypeExpr τ) → Walk σ ε Unit
  | [] => pure ()
  | (n, t) :: fs => do
    within n.kebab (v.meet (.type t) (typeParts v t))
    typeFields v fs

end

def type (v : Visitor τ ν σ ε) (t : TypeExpr τ) : Walk σ ε Unit := v.meet (.type t) (v.typeParts t)

def type? (v : Visitor τ ν σ ε) : Option (TypeExpr τ) → Walk σ ε Unit
  | none => pure ()
  | some t => v.type t

mutual

def patternParts (v : Visitor τ ν σ ε) : Pattern ν → Walk σ ε Unit
  | .wildcard _ | .emptyList _ | .literal .. | .unit _ => pure ()
  | .as _ p _ => within "pattern" (v.meet (.pattern p) (patternParts v p))
  | .tuple _ ps => within "elements" (patterns v 0 ps)
  | .constructor _ _ ps => within "args" (patterns v 0 ps)
  | .headTail _ x y => do
    within "head" (v.meet (.pattern x) (patternParts v x))
    within "tail" (v.meet (.pattern y) (patternParts v y))

def patterns (v : Visitor τ ν σ ε) : Nat → List (Pattern ν) → Walk σ ε Unit
  | _, [] => pure ()
  | i, p :: ps => do
    within (toString i) (v.meet (.pattern p) (patternParts v p))
    patterns v (i + 1) ps

end

def pattern (v : Visitor τ ν σ ε) (p : Pattern ν) : Walk σ ε Unit :=
  v.meet (.pattern p) (v.patternParts p)

/-- Visits the types of declared arguments under their names. -/
def inputs (v : Visitor τ ν σ ε) : List (Input τ ν) → Walk σ ε Unit
  | [] => pure ()
  | i :: is => do
    within i.name.kebab (v.type i.type)
    inputs v is

mutual

def valueParts (v : Visitor τ ν σ ε) : Value τ ν → Walk σ ε Unit
  | .literal .. | .constructor .. | .variable .. | .reference .. | .fieldFunction .. | .unit _
  | .native .. | .external .. => pure ()
  | .tuple _ xs => within "elements" (values v 0 xs)
  | .list _ xs => within "items" (values v 0 xs)
  | .record _ fs => within "fields" (valueFields v fs)
  | .field _ x _ => within "value" (v.meet (.value x) (valueParts v x))
  | .apply _ f x => do
    within "function" (v.meet (.value f) (valueParts v f))
    within "argument" (v.meet (.value x) (valueParts v x))
  | .lambda _ p b => do
    within "pattern" (v.pattern p)
    within "body" (v.meet (.value b) (valueParts v b))
  | .letDefinition _ n d b => do
    within "definition" (v.meet (.valueDefinition n d) (definitionParts v d))
    within "body" (v.meet (.value b) (valueParts v b))
  | .letRecursion _ ds b => do
    within "bindings" (bindings v ds)
    within "body" (v.meet (.value b) (valueParts v b))
  | .destructure _ p x b => do
    within "pattern" (v.pattern p)
    within "value" (v.meet (.value x) (valueParts v x))
    within "body" (v.meet (.value b) (valueParts v b))
  | .ifThenElse _ c t e => do
    within "condition" (v.meet (.value c) (valueParts v c))
    within "then-branch" (v.meet (.value t) (valueParts v t))
    within "else-branch" (v.meet (.value e) (valueParts v e))
  | .patternMatch _ x cs => do
    within "subject" (v.meet (.value x) (valueParts v x))
    within "cases" (cases v 0 cs)
  | .updateRecord _ x us => do
    within "record" (v.meet (.value x) (valueParts v x))
    within "updates" (valueFields v us)
  | .hole _ _ t => within "tpe" (v.type? t)

def values (v : Visitor τ ν σ ε) : Nat → List (Value τ ν) → Walk σ ε Unit
  | _, [] => pure ()
  | i, x :: xs => do
    within (toString i) (v.meet (.value x) (valueParts v x))
    values v (i + 1) xs

def valueFields (v : Visitor τ ν σ ε) : List (Name × Value τ ν) → Walk σ ε Unit
  | [] => pure ()
  | (n, x) :: fs => do
    within n.kebab (v.meet (.value x) (valueParts v x))
    valueFields v fs

/-- Visits the cases of a match under consecutive indices. -/
def cases (v : Visitor τ ν σ ε) : Nat → List (Pattern ν × Value τ ν) → Walk σ ε Unit
  | _, [] => pure ()
  | i, (p, x) :: cs => do
    within (toString i) do
      within "0" (v.pattern p)
      within "1" (v.meet (.value x) (valueParts v x))
    cases v (i + 1) cs

def bindings (v : Visitor τ ν σ ε) : List (Name × ValueDefinition τ ν) → Walk σ ε Unit
  | [] => pure ()
  | (n, d) :: ds => do
    within n.kebab (v.meet (.valueDefinition n d) (definitionParts v d))
    bindings v ds

def definitionParts (v : Visitor τ ν σ ε) : ValueDefinition τ ν → Walk σ ε Unit
  | .mk is t b => do
    within "input-types" (v.inputs is)
    within "output-type" (v.type t)
    within "body" (bodyParts v b)

/-- Visits the value of a body, if it has one. -/
def bodyParts (v : Visitor τ ν σ ε) : ValueBody τ ν → Walk σ ε Unit
  | .expression x => v.meet (.value x) (valueParts v x)
  | .native _ | .external .. | .incomplete _ => pure ()

end

def value (v : Visitor τ ν σ ε) (x : Value τ ν) : Walk σ ε Unit :=
  v.meet (.value x) (v.valueParts x)

def named {α : Type} (name : α → String) (visit : α → Walk σ ε Unit) : List α → Walk σ ε Unit
  | [] => pure ()
  | x :: xs => do
    within (name x) (visit x)
    named name visit xs

def constructors (v : Visitor τ ν σ ε) (cs : List (Constructor τ)) : Walk σ ε Unit :=
  within "constructors" (named (·.name.kebab) (fun c => within "args" (v.typeFields c.arguments)) cs)

def typeDefinition (v : Visitor τ ν σ ε) (e : TypeEntry τ) : Walk σ ε Unit :=
  v.meet (.typeDefinition e.name e.definition) <|
    match e.definition with
    | .synonym _ t => within "type-exp" (v.type t)
    | .custom _ _ cs => v.constructors cs
    | .incomplete _ _ t => within "partial" (v.type? t)

def typeSpecification (v : Visitor τ ν σ ε) (e : TypeSpecEntry τ) : Walk σ ε Unit :=
  v.meet (.typeSpecification e.name e.specification) <|
    match e.specification with
    | .synonym _ t => within "type-exp" (v.type t)
    | .abstract _ => pure ()
    | .custom _ cs => v.constructors cs

def valueDefinition (v : Visitor τ ν σ ε) (e : ValueEntry τ ν) : Walk σ ε Unit :=
  v.meet (.valueDefinition e.name e.definition) (v.definitionParts e.definition)

def valueSpecification (v : Visitor τ ν σ ε) (e : ValueSpecEntry τ) : Walk σ ε Unit :=
  v.meet (.valueSpecification e.name e.specification) do
    within "inputs" (v.typeFields e.specification.inputs)
    within "output" (v.type e.specification.output)

def moduleDefinition (v : Visitor τ ν σ ε) (e : ModuleEntry τ ν) : Walk σ ε Unit :=
  v.meet (.moduleDefinition e.name e.definition) do
    within "types" (named (·.name.kebab) v.typeDefinition e.definition.types)
    within "values" (named (·.name.kebab) v.valueDefinition e.definition.values)

def moduleSpecification (v : Visitor τ ν σ ε) (e : ModuleSpecEntry τ) : Walk σ ε Unit :=
  v.meet (.moduleSpecification e.name e.specification) do
    within "types" (named (·.name.kebab) v.typeSpecification e.specification.types)
    within "values" (named (·.name.kebab) v.valueSpecification e.specification.values)

def package (v : Visitor τ ν σ ε) (p : PackageDefinition τ ν) : Walk σ ε Unit :=
  within "modules" (named (·.name.text) v.moduleDefinition p.modules)

/-- Visits the interfaces of the modules of a package. -/
def packageSpecification (v : Visitor τ ν σ ε) (p : PackageSpecification τ) : Walk σ ε Unit :=
  within "modules" (named (·.name.text) v.moduleSpecification p.modules)

def distribution (v : Visitor τ ν σ ε) (d : Distribution τ ν) : Walk σ ε Unit := do
  within "dependencies"
    (named (·.name.text) (fun dep => v.packageSpecification dep.specification) d.dependencies)
  match d with
  | .library _ _ p | .application _ _ p _ => within "def" (v.package p)
  | .specs _ _ p => within "spec" (v.packageSpecification p)

def document (v : Visitor τ ν σ ε) (d : Document τ ν) : Walk σ ε Unit :=
  within "distribution" (v.distribution d.distribution)

end Visitor

end IrDialects
