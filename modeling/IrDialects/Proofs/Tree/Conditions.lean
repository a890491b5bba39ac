import IrDialects.Tree.Distribution
import Mathlib.Data.List.Basic

/-!
# Conditions on trees

What a document is asked for is asked of its parts: of attributes, literals and names wherever they
occur, and of the names of siblings that a dialect may use as keys. `Conditions` collects these
demands, and `Satisfies` says of each kind of node that all its parts meet them.
-/

namespace IrDialects

/-- What is asked of the parts of a tree. -/
structure Conditions (τ ν : Type) where
  typeAttrs : τ → Prop := fun _ => True
  valueAttrs : ν → Prop := fun _ => True
  literal : Literal → Prop := fun _ => True
  name : Name → Prop := fun _ => True
  path : Path → Prop := fun _ => True
  qualified : FQName → Prop := fun _ => True
  /-- Asked of the names of fields, arguments and entries that stand side by side. -/
  names : List Name → Prop := fun _ => True
  /-- Asked of the paths of modules and of packages that stand side by side. -/
  paths : List Path → Prop := fun _ => True

variable {τ ν : Type}

namespace Conditions

/-- The names of siblings, each alone and all together. -/
structure Keyed (P : Conditions τ ν) (ns : List Name) : Prop where
  each : ∀ n ∈ ns, P.name n
  all : P.names ns

/-- The paths of siblings, each alone and all together. -/
structure KeyedPaths (P : Conditions τ ν) (ps : List Path) : Prop where
  each : ∀ p ∈ ps, P.path p
  all : P.paths ps

end Conditions

/-- Every part of a type meets the conditions. -/
inductive TypeExpr.Satisfies (P : Conditions τ ν) : TypeExpr τ → Prop
  | variable {a n} : P.typeAttrs a → P.name n → Satisfies P (.variable a n)
  | reference {a f ts} : P.typeAttrs a → P.qualified f → (∀ t ∈ ts, Satisfies P t) →
      Satisfies P (.reference a f ts)
  | tuple {a ts} : P.typeAttrs a → (∀ t ∈ ts, Satisfies P t) → Satisfies P (.tuple a ts)
  | record {a fs} : P.typeAttrs a → P.Keyed (fs.map Prod.fst) → (∀ f ∈ fs, Satisfies P f.2) →
      Satisfies P (.record a fs)
  | extensibleRecord {a n fs} : P.typeAttrs a → P.name n → P.Keyed (fs.map Prod.fst) →
      (∀ f ∈ fs, Satisfies P f.2) → Satisfies P (.extensibleRecord a n fs)
  | function {a x y} : P.typeAttrs a → Satisfies P x → Satisfies P y →
      Satisfies P (.function a x y)
  | unit {a} : P.typeAttrs a → Satisfies P (.unit a)

/-- Every part of a pattern meets the conditions. -/
inductive Pattern.Satisfies (P : Conditions τ ν) : Pattern ν → Prop
  | wildcard {a} : P.valueAttrs a → Satisfies P (.wildcard a)
  | as {a p n} : P.valueAttrs a → Satisfies P p → P.name n → Satisfies P (.as a p n)
  | tuple {a ps} : P.valueAttrs a → (∀ p ∈ ps, Satisfies P p) → Satisfies P (.tuple a ps)
  | constructor {a f ps} : P.valueAttrs a → P.qualified f → (∀ p ∈ ps, Satisfies P p) →
      Satisfies P (.constructor a f ps)
  | emptyList {a} : P.valueAttrs a → Satisfies P (.emptyList a)
  | headTail {a h t} : P.valueAttrs a → Satisfies P h → Satisfies P t →
      Satisfies P (.headTail a h t)
  | literal {a l} : P.valueAttrs a → P.literal l → Satisfies P (.literal a l)
  | unit {a} : P.valueAttrs a → Satisfies P (.unit a)

/-- The reference of a reason for a hole meets the conditions. -/
def HoleReason.Satisfies (P : Conditions τ ν) (r : HoleReason) : Prop :=
  ∀ f, r = .unresolvedReference f → P.qualified f

/-- The reason of an unfinished definition meets the conditions. -/
def Incompleteness.Satisfies (P : Conditions τ ν) (i : Incompleteness) : Prop :=
  ∀ r, i = .hole r → r.Satisfies P

/-- The attribute and the type of an argument meet the conditions; its name is asked for with those
of the other arguments. -/
structure Input.Satisfies (P : Conditions τ ν) (i : Input τ ν) : Prop where
  attrs : P.valueAttrs i.attrs
  type : i.type.Satisfies P

/-- Everything of a definition but the values inside it meets the conditions. -/
structure ValueDefinition.Framed (P : Conditions τ ν) (d : ValueDefinition τ ν) : Prop where
  keys : P.Keyed (d.inputs.map Input.name)
  inputs : ∀ i ∈ d.inputs, i.Satisfies P
  output : d.output.Satisfies P
  incomplete : ∀ i, d.body = .incomplete i → i.Satisfies P

/-- Every part of a value meets the conditions. -/
inductive Value.Satisfies (P : Conditions τ ν) : Value τ ν → Prop
  | literal {a l} : P.valueAttrs a → P.literal l → Satisfies P (.literal a l)
  | constructor {a f} : P.valueAttrs a → P.qualified f → Satisfies P (.constructor a f)
  | tuple {a vs} : P.valueAttrs a → (∀ v ∈ vs, Satisfies P v) → Satisfies P (.tuple a vs)
  | list {a vs} : P.valueAttrs a → (∀ v ∈ vs, Satisfies P v) → Satisfies P (.list a vs)
  | record {a fs} : P.valueAttrs a → P.Keyed (fs.map Prod.fst) → (∀ f ∈ fs, Satisfies P f.2) →
      Satisfies P (.record a fs)
  | variable {a n} : P.valueAttrs a → P.name n → Satisfies P (.variable a n)
  | reference {a f} : P.valueAttrs a → P.qualified f → Satisfies P (.reference a f)
  | field {a v n} : P.valueAttrs a → Satisfies P v → P.name n → Satisfies P (.field a v n)
  | fieldFunction {a n} : P.valueAttrs a → P.name n → Satisfies P (.fieldFunction a n)
  | apply {a f x} : P.valueAttrs a → Satisfies P f → Satisfies P x → Satisfies P (.apply a f x)
  | lambda {a p b} : P.valueAttrs a → p.Satisfies P → Satisfies P b → Satisfies P (.lambda a p b)
  | letDefinition {a n d b} : P.valueAttrs a → P.name n → d.Framed P →
      (∀ v, d.body = .expression v → Satisfies P v) → Satisfies P b →
      Satisfies P (.letDefinition a n d b)
  | letRecursion {a ds b} : P.valueAttrs a → (∀ d ∈ ds, P.name d.1) → (∀ d ∈ ds, d.2.Framed P) →
      (∀ d ∈ ds, ∀ v, d.2.body = .expression v → Satisfies P v) → Satisfies P b →
      Satisfies P (.letRecursion a ds b)
  | destructure {a p v b} : P.valueAttrs a → p.Satisfies P → Satisfies P v → Satisfies P b →
      Satisfies P (.destructure a p v b)
  | ifThenElse {a x t e} : P.valueAttrs a → Satisfies P x → Satisfies P t → Satisfies P e →
      Satisfies P (.ifThenElse a x t e)
  | patternMatch {a v cs} : P.valueAttrs a → Satisfies P v → (∀ c ∈ cs, c.1.Satisfies P) →
      (∀ c ∈ cs, Satisfies P c.2) → Satisfies P (.patternMatch a v cs)
  | updateRecord {a v us} : P.valueAttrs a → Satisfies P v → (∀ u ∈ us, P.name u.1) →
      (∀ u ∈ us, Satisfies P u.2) → Satisfies P (.updateRecord a v us)
  | unit {a} : P.valueAttrs a → Satisfies P (.unit a)
  | hole {a r t} : P.valueAttrs a → r.Satisfies P → (∀ t' ∈ t, t'.Satisfies P) →
      Satisfies P (.hole a r t)
  | native {a f i} : P.valueAttrs a → P.qualified f → Satisfies P (.native a f i)
  | external {a s p} : P.valueAttrs a → Satisfies P (.external a s p)

/-- Every part of a definition meets the conditions. -/
structure ValueDefinition.Satisfies (P : Conditions τ ν) (d : ValueDefinition τ ν) : Prop where
  framed : d.Framed P
  expression : ∀ v, d.body = .expression v → v.Satisfies P

/-- Every part of a body meets the conditions. -/
structure ValueBody.Satisfies (P : Conditions τ ν) (b : ValueBody τ ν) : Prop where
  incomplete : ∀ i, b = .incomplete i → i.Satisfies P
  expression : ∀ v, b = .expression v → v.Satisfies P

namespace ValueBody

variable {P : Conditions τ ν}

@[simp] theorem satisfies_expression {v : Value τ ν} :
    (expression v).Satisfies P ↔ v.Satisfies P :=
  ⟨fun h => h.expression v rfl, fun h => ⟨by simp, by simpa using h⟩⟩

@[simp] theorem satisfies_incomplete {i : Incompleteness} :
    (incomplete i : ValueBody τ ν).Satisfies P ↔ i.Satisfies P :=
  ⟨fun h => h.incomplete i rfl, fun h => ⟨by simpa using h, by simp⟩⟩

@[simp] theorem satisfies_native (i : NativeInfo) : (native i : ValueBody τ ν).Satisfies P :=
  ⟨by simp, by simp⟩

@[simp] theorem satisfies_external (s p : String) :
    (external s p : ValueBody τ ν).Satisfies P :=
  ⟨by simp, by simp⟩

end ValueBody

/-- Every part of a constructor meets the conditions. -/
structure Constructor.Satisfies (P : Conditions τ ν) (c : Constructor τ) : Prop where
  name : P.name c.name
  names : ∀ f ∈ c.arguments, P.name f.1
  types : ∀ f ∈ c.arguments, f.2.Satisfies P

/-- Every part of a type definition meets the conditions. -/
inductive TypeDefinition.Satisfies (P : Conditions τ ν) : TypeDefinition τ → Prop
  | synonym {ps t} : (∀ p ∈ ps, P.name p) → t.Satisfies P → Satisfies P (.synonym ps t)
  | custom {ps a cs} : (∀ p ∈ ps, P.name p) → (∀ c ∈ cs, c.Satisfies P) →
      Satisfies P (.custom ps a cs)
  | incomplete {ps i t} : (∀ p ∈ ps, P.name p) → i.Satisfies P → (∀ t' ∈ t, t'.Satisfies P) →
      Satisfies P (.incomplete ps i t)

/-- Every part of a type specification meets the conditions. -/
inductive TypeSpecification.Satisfies (P : Conditions τ ν) : TypeSpecification τ → Prop
  | synonym {ps t} : (∀ p ∈ ps, P.name p) → t.Satisfies P → Satisfies P (.synonym ps t)
  | abstract {ps} : (∀ p ∈ ps, P.name p) → Satisfies P (.abstract ps)
  | custom {ps cs} : (∀ p ∈ ps, P.name p) → (∀ c ∈ cs, c.Satisfies P) →
      Satisfies P (.custom ps cs)

/-- Every part of a signature meets the conditions. -/
structure ValueSpecification.Satisfies (P : Conditions τ ν) (s : ValueSpecification τ) : Prop where
  keys : P.Keyed (s.inputs.map Prod.fst)
  inputs : ∀ f ∈ s.inputs, f.2.Satisfies P
  output : s.output.Satisfies P

/-- Every part of a module meets the conditions. -/
structure ModuleDefinition.Satisfies (P : Conditions τ ν) (m : ModuleDefinition τ ν) : Prop where
  typeKeys : P.Keyed (m.types.map TypeEntry.name)
  types : ∀ e ∈ m.types, e.definition.Satisfies P
  valueKeys : P.Keyed (m.values.map ValueEntry.name)
  values : ∀ e ∈ m.values, e.definition.Satisfies P

/-- Every part of the interface of a module meets the conditions. -/
structure ModuleSpecification.Satisfies (P : Conditions τ ν) (m : ModuleSpecification τ) : Prop where
  typeKeys : P.Keyed (m.types.map TypeSpecEntry.name)
  types : ∀ e ∈ m.types, e.specification.Satisfies P
  valueKeys : P.Keyed (m.values.map ValueSpecEntry.name)
  values : ∀ e ∈ m.values, e.specification.Satisfies P

/-- Every part of a package meets the conditions. -/
structure PackageDefinition.Satisfies (P : Conditions τ ν) (p : PackageDefinition τ ν) : Prop where
  keys : P.KeyedPaths (p.modules.map ModuleEntry.name)
  modules : ∀ e ∈ p.modules, e.definition.Satisfies P

/-- Every part of the interface of a package meets the conditions. -/
structure PackageSpecification.Satisfies (P : Conditions τ ν) (p : PackageSpecification τ) :
    Prop where
  keys : P.KeyedPaths (p.modules.map ModuleSpecEntry.name)
  modules : ∀ e ∈ p.modules, e.specification.Satisfies P

/-- The packages depended on meet the conditions. -/
structure Dependency.AllSatisfy (P : Conditions τ ν) (ds : List (Dependency τ)) : Prop where
  keys : P.KeyedPaths (ds.map Dependency.name)
  specifications : ∀ d ∈ ds, d.specification.Satisfies P

/-- The entry points of an application meet the conditions. -/
structure EntryPoint.AllSatisfy (P : Conditions τ ν) (es : List EntryPoint) : Prop where
  keys : P.Keyed (es.map EntryPoint.name)
  targets : ∀ e ∈ es, P.qualified e.target

/-- Every part of a distribution meets the conditions. -/
inductive Distribution.Satisfies (P : Conditions τ ν) : Distribution τ ν → Prop
  | library {p ds d} : P.path p → Dependency.AllSatisfy P ds → d.Satisfies P →
      Satisfies P (.library p ds d)
  | specs {p ds s} : P.path p → Dependency.AllSatisfy P ds → s.Satisfies P →
      Satisfies P (.specs p ds s)
  | application {p ds d es} : P.path p → Dependency.AllSatisfy P ds → d.Satisfies P →
      EntryPoint.AllSatisfy P es → Satisfies P (.application p ds d es)

end IrDialects
