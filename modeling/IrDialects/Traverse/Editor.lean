import IrDialects.Traverse.Walk
import IrDialects.Tree.Distribution

/-!
# Editing trees

An editor maps attributes and is asked, at every type, pattern and value, whether to rebuild the node
from its edited parts, to put another node in its place, or to collapse it. It asks in the order in
which a visitor visits.
-/

namespace IrDialects

/-- What becomes of a node. -/
inductive Edit (α : Type) where
  /-- The node is built again from its edited parts. -/
  | rebuild
  /-- The node becomes another one. -/
  | replace (node : α)
  /-- The node becomes what it wraps: a binding becomes its pattern and an application its argument,
  edited at the position of the node. Any other node is built again. -/
  | collapse

/-- Something that edits trees, with a state of type `σ` and failures of type `ε`. -/
structure Editor (τ ν τ' ν' σ ε : Type) where
  typeAttrs : τ → τ'
  valueAttrs : ν → ν'
  onType : TypeExpr τ → Cursor → σ → Except ε (Edit (TypeExpr τ')) × σ
  onPattern : Pattern ν → Cursor → σ → Except ε (Edit (Pattern ν')) × σ
  onValue : Value τ ν → Cursor → σ → Except ε (Edit (Value τ' ν')) × σ

namespace Editor

open Walk (within)

variable {τ ν τ' ν' σ ε : Type}

/-- Carries out an edit of a node, given how to build it again and how to collapse it. -/
def carryOut {α : Type} (rebuild collapse : Unit → Walk σ ε α) : Edit α → Walk σ ε α
  | .rebuild => rebuild ()
  | .replace x => pure x
  | .collapse => collapse ()

/-- Asks about a type and carries out the answer. -/
def meetType (r : Editor τ ν τ' ν' σ ε) (t : TypeExpr τ)
    (rebuild : Unit → Walk σ ε (TypeExpr τ')) : Walk σ ε (TypeExpr τ') := do
  carryOut rebuild rebuild (← Walk.ask (r.onType t))

/-- Asks about a pattern and carries out the answer. -/
def meetPattern (r : Editor τ ν τ' ν' σ ε) (p : Pattern ν)
    (rebuild collapse : Unit → Walk σ ε (Pattern ν')) : Walk σ ε (Pattern ν') := do
  carryOut rebuild collapse (← Walk.ask (r.onPattern p))

/-- Asks about a value and carries out the answer. -/
def meetValue (r : Editor τ ν τ' ν' σ ε) (v : Value τ ν)
    (rebuild collapse : Unit → Walk σ ε (Value τ' ν')) : Walk σ ε (Value τ' ν') := do
  carryOut rebuild collapse (← Walk.ask (r.onValue v))

mutual

def type (r : Editor τ ν τ' ν' σ ε) : TypeExpr τ → Walk σ ε (TypeExpr τ')
  | .variable a n => r.meetType (.variable a n) fun _ => pure (.variable (r.typeAttrs a) n)
  | .reference a n ts => r.meetType (.reference a n ts) fun _ => do
    return .reference (r.typeAttrs a) n (← within "args" (types r 0 ts))
  | .tuple a ts => r.meetType (.tuple a ts) fun _ => do
    return .tuple (r.typeAttrs a) (← within "elements" (types r 0 ts))
  | .record a fs => r.meetType (.record a fs) fun _ => do
    return .record (r.typeAttrs a) (← within "fields" (typeFields r fs))
  | .extensibleRecord a n fs => r.meetType (.extensibleRecord a n fs) fun _ => do
    return .extensibleRecord (r.typeAttrs a) n (← within "fields" (typeFields r fs))
  | .function a x y => r.meetType (.function a x y) fun _ => do
    let x' ← within "arg" (type r x)
    return .function (r.typeAttrs a) x' (← within "result" (type r y))
  | .unit a => r.meetType (.unit a) fun _ => pure (.unit (r.typeAttrs a))

def types (r : Editor τ ν τ' ν' σ ε) : Nat → List (TypeExpr τ) → Walk σ ε (List (TypeExpr τ'))
  | _, [] => pure []
  | i, t :: ts => do
    let t' ← within (toString i) (type r t)
    return t' :: (← types r (i + 1) ts)

def typeFields (r : Editor τ ν τ' ν' σ ε) :
    List (Name × TypeExpr τ) → Walk σ ε (List (Name × TypeExpr τ'))
  | [] => pure []
  | (n, t) :: fs => do
    let t' ← within n.kebab (type r t)
    return (n, t') :: (← typeFields r fs)

end

def type? (r : Editor τ ν τ' ν' σ ε) : Option (TypeExpr τ) → Walk σ ε (Option (TypeExpr τ'))
  | none => pure none
  | some t => do return some (← r.type t)

mutual

def pattern (r : Editor τ ν τ' ν' σ ε) : Pattern ν → Walk σ ε (Pattern ν')
  | .wildcard a => r.meetPattern (.wildcard a) (fun _ => pure (.wildcard (r.valueAttrs a)))
      fun _ => pure (.wildcard (r.valueAttrs a))
  | .as a p n => r.meetPattern (.as a p n)
      (fun _ => do return .as (r.valueAttrs a) (← within "pattern" (pattern r p)) n)
      fun _ => pattern r p
  | .tuple a ps =>
    let rebuild := fun _ => do
      return .tuple (r.valueAttrs a) (← within "elements" (patterns r 0 ps))
    r.meetPattern (.tuple a ps) rebuild rebuild
  | .constructor a n ps =>
    let rebuild := fun _ => do
      return .constructor (r.valueAttrs a) n (← within "args" (patterns r 0 ps))
    r.meetPattern (.constructor a n ps) rebuild rebuild
  | .emptyList a => r.meetPattern (.emptyList a) (fun _ => pure (.emptyList (r.valueAttrs a)))
      fun _ => pure (.emptyList (r.valueAttrs a))
  | .headTail a x y =>
    let rebuild := fun _ => do
      let x' ← within "head" (pattern r x)
      return .headTail (r.valueAttrs a) x' (← within "tail" (pattern r y))
    r.meetPattern (.headTail a x y) rebuild rebuild
  | .literal a l => r.meetPattern (.literal a l) (fun _ => pure (.literal (r.valueAttrs a) l))
      fun _ => pure (.literal (r.valueAttrs a) l)
  | .unit a => r.meetPattern (.unit a) (fun _ => pure (.unit (r.valueAttrs a)))
      fun _ => pure (.unit (r.valueAttrs a))

def patterns (r : Editor τ ν τ' ν' σ ε) : Nat → List (Pattern ν) → Walk σ ε (List (Pattern ν'))
  | _, [] => pure []
  | i, p :: ps => do
    let p' ← within (toString i) (pattern r p)
    return p' :: (← patterns r (i + 1) ps)

end

def inputs (r : Editor τ ν τ' ν' σ ε) : List (Input τ ν) → Walk σ ε (List (Input τ' ν'))
  | [] => pure []
  | i :: is => do
    let t ← within i.name.kebab (r.type i.type)
    return ⟨i.name, r.valueAttrs i.attrs, t⟩ :: (← inputs r is)

/-- Asks about a value that cannot be collapsed and carries out the answer. -/
def meetPlain (r : Editor τ ν τ' ν' σ ε) (v : Value τ ν)
    (rebuild : Unit → Walk σ ε (Value τ' ν')) : Walk σ ε (Value τ' ν') :=
  r.meetValue v rebuild rebuild

mutual

def value (r : Editor τ ν τ' ν' σ ε) : Value τ ν → Walk σ ε (Value τ' ν')
  | .literal a l => r.meetPlain (.literal a l) fun _ => pure (.literal (r.valueAttrs a) l)
  | .constructor a n => r.meetPlain (.constructor a n) fun _ =>
    pure (.constructor (r.valueAttrs a) n)
  | .tuple a vs => r.meetPlain (.tuple a vs) fun _ => do
    return .tuple (r.valueAttrs a) (← within "elements" (values r 0 vs))
  | .list a vs => r.meetPlain (.list a vs) fun _ => do
    return .list (r.valueAttrs a) (← within "items" (values r 0 vs))
  | .record a fs => r.meetPlain (.record a fs) fun _ => do
    return .record (r.valueAttrs a) (← within "fields" (valueFields r fs))
  | .variable a n => r.meetPlain (.variable a n) fun _ => pure (.variable (r.valueAttrs a) n)
  | .reference a n => r.meetPlain (.reference a n) fun _ => pure (.reference (r.valueAttrs a) n)
  | .field a v n => r.meetPlain (.field a v n) fun _ => do
    return .field (r.valueAttrs a) (← within "value" (value r v)) n
  | .fieldFunction a n => r.meetPlain (.fieldFunction a n) fun _ =>
    pure (.fieldFunction (r.valueAttrs a) n)
  | .apply a f x => r.meetValue (.apply a f x)
      (fun _ => do
        let f' ← within "function" (value r f)
        return .apply (r.valueAttrs a) f' (← within "argument" (value r x)))
      fun _ => value r x
  | .lambda a p b => r.meetPlain (.lambda a p b) fun _ => do
    let p' ← within "pattern" (r.pattern p)
    return .lambda (r.valueAttrs a) p' (← within "body" (value r b))
  | .letDefinition a n d b => r.meetPlain (.letDefinition a n d b) fun _ => do
    let d' ← within "definition" (definition r d)
    return .letDefinition (r.valueAttrs a) n d' (← within "body" (value r b))
  | .letRecursion a ds b => r.meetPlain (.letRecursion a ds b) fun _ => do
    let ds' ← within "bindings" (bindings r ds)
    return .letRecursion (r.valueAttrs a) ds' (← within "body" (value r b))
  | .destructure a p v b => r.meetPlain (.destructure a p v b) fun _ => do
    let p' ← within "pattern" (r.pattern p)
    let v' ← within "value" (value r v)
    return .destructure (r.valueAttrs a) p' v' (← within "body" (value r b))
  | .ifThenElse a c t e => r.meetPlain (.ifThenElse a c t e) fun _ => do
    let c' ← within "condition" (value r c)
    let t' ← within "then-branch" (value r t)
    return .ifThenElse (r.valueAttrs a) c' t' (← within "else-branch" (value r e))
  | .patternMatch a v cs => r.meetPlain (.patternMatch a v cs) fun _ => do
    let v' ← within "subject" (value r v)
    return .patternMatch (r.valueAttrs a) v' (← within "cases" (cases r 0 cs))
  | .updateRecord a v us => r.meetPlain (.updateRecord a v us) fun _ => do
    let v' ← within "record" (value r v)
    return .updateRecord (r.valueAttrs a) v' (← within "updates" (valueFields r us))
  | .unit a => r.meetPlain (.unit a) fun _ => pure (.unit (r.valueAttrs a))
  | .hole a h t => r.meetPlain (.hole a h t) fun _ => do
    return .hole (r.valueAttrs a) h (← within "tpe" (r.type? t))
  | .native a n i => r.meetPlain (.native a n i) fun _ => pure (.native (r.valueAttrs a) n i)
  | .external a s p => r.meetPlain (.external a s p) fun _ =>
    pure (.external (r.valueAttrs a) s p)

def values (r : Editor τ ν τ' ν' σ ε) : Nat → List (Value τ ν) → Walk σ ε (List (Value τ' ν'))
  | _, [] => pure []
  | i, v :: vs => do
    let v' ← within (toString i) (value r v)
    return v' :: (← values r (i + 1) vs)

def valueFields (r : Editor τ ν τ' ν' σ ε) :
    List (Name × Value τ ν) → Walk σ ε (List (Name × Value τ' ν'))
  | [] => pure []
  | (n, v) :: fs => do
    let v' ← within n.kebab (value r v)
    return (n, v') :: (← valueFields r fs)

/-- Edits the cases of a match under consecutive indices. -/
def cases (r : Editor τ ν τ' ν' σ ε) :
    Nat → List (Pattern ν × Value τ ν) → Walk σ ε (List (Pattern ν' × Value τ' ν'))
  | _, [] => pure []
  | i, (p, v) :: cs => do
    let c ← within (toString i) do
      let p' ← within "0" (r.pattern p)
      return (p', ← within "1" (value r v))
    return c :: (← cases r (i + 1) cs)

def bindings (r : Editor τ ν τ' ν' σ ε) :
    List (Name × ValueDefinition τ ν) → Walk σ ε (List (Name × ValueDefinition τ' ν'))
  | [] => pure []
  | (n, d) :: ds => do
    let d' ← within n.kebab (definition r d)
    return (n, d') :: (← bindings r ds)

def definition (r : Editor τ ν τ' ν' σ ε) :
    ValueDefinition τ ν → Walk σ ε (ValueDefinition τ' ν')
  | .mk is t b => do
    let is' ← within "input-types" (r.inputs is)
    let t' ← within "output-type" (r.type t)
    return .mk is' t' (← within "body" (body r b))

def body (r : Editor τ ν τ' ν' σ ε) : ValueBody τ ν → Walk σ ε (ValueBody τ' ν')
  | .expression v => do return .expression (← value r v)
  | .native i => pure (.native i)
  | .external s p => pure (.external s p)
  | .incomplete i => pure (.incomplete i)

end

def named {α β : Type} (name : α → String) (edit : α → Walk σ ε β) : List α → Walk σ ε (List β)
  | [] => pure []
  | x :: xs => do
    let y ← within (name x) (edit x)
    return y :: (← named name edit xs)

def constructors (r : Editor τ ν τ' ν' σ ε) (cs : List (Constructor τ)) :
    Walk σ ε (List (Constructor τ')) :=
  within "constructors" <| named (·.name.kebab)
    (fun c => do return ⟨c.name, ← within "args" (r.typeFields c.arguments)⟩) cs

def typeDefinition (r : Editor τ ν τ' ν' σ ε) : TypeDefinition τ → Walk σ ε (TypeDefinition τ')
  | .synonym ps t => do return .synonym ps (← within "type-exp" (r.type t))
  | .custom ps a cs => do return .custom ps a (← r.constructors cs)
  | .incomplete ps i t => do return .incomplete ps i (← within "partial" (r.type? t))

def typeSpecification (r : Editor τ ν τ' ν' σ ε) :
    TypeSpecification τ → Walk σ ε (TypeSpecification τ')
  | .synonym ps t => do return .synonym ps (← within "type-exp" (r.type t))
  | .abstract ps => pure (.abstract ps)
  | .custom ps cs => do return .custom ps (← r.constructors cs)

def valueSpecification (r : Editor τ ν τ' ν' σ ε) (s : ValueSpecification τ) :
    Walk σ ε (ValueSpecification τ') := do
  let is ← within "inputs" (r.typeFields s.inputs)
  return ⟨is, ← within "output" (r.type s.output)⟩

def moduleDefinition (r : Editor τ ν τ' ν' σ ε) (m : ModuleDefinition τ ν) :
    Walk σ ε (ModuleDefinition τ' ν') := do
  let ts ← within "types" <| named (·.name.kebab)
    (fun e => do return ⟨e.name, e.access, e.doc, ← r.typeDefinition e.definition⟩) m.types
  let vs ← within "values" <| named (·.name.kebab)
    (fun e => do return ⟨e.name, e.access, e.doc, ← r.definition e.definition⟩) m.values
  return ⟨ts, vs, m.doc⟩

def moduleSpecification (r : Editor τ ν τ' ν' σ ε) (m : ModuleSpecification τ) :
    Walk σ ε (ModuleSpecification τ') := do
  let ts ← within "types" <| named (·.name.kebab)
    (fun e => do return ⟨e.name, e.doc, ← r.typeSpecification e.specification⟩) m.types
  let vs ← within "values" <| named (·.name.kebab)
    (fun e => do return ⟨e.name, e.doc, ← r.valueSpecification e.specification⟩) m.values
  return ⟨ts, vs, m.doc⟩

def package (r : Editor τ ν τ' ν' σ ε) (p : PackageDefinition τ ν) :
    Walk σ ε (PackageDefinition τ' ν') := do
  return ⟨← within "modules" <| named (·.name.text)
    (fun e => do return ⟨e.name, e.access, ← r.moduleDefinition e.definition⟩) p.modules⟩

def packageSpecification (r : Editor τ ν τ' ν' σ ε) (p : PackageSpecification τ) :
    Walk σ ε (PackageSpecification τ') := do
  return ⟨← within "modules" <| named (·.name.text)
    (fun e => do return ⟨e.name, ← r.moduleSpecification e.specification⟩) p.modules⟩

/-- Edits the interfaces that a distribution depends on. -/
def dependencies (r : Editor τ ν τ' ν' σ ε) (ds : List (Dependency τ)) :
    Walk σ ε (List (Dependency τ')) :=
  within "dependencies" <| named (·.name.text)
    (fun d => do return ⟨d.name, ← r.packageSpecification d.specification⟩) ds

def distribution (r : Editor τ ν τ' ν' σ ε) : Distribution τ ν → Walk σ ε (Distribution τ' ν')
  | .library p ds d => do
    let ds' ← r.dependencies ds
    return .library p ds' (← within "def" (r.package d))
  | .specs p ds s => do
    let ds' ← r.dependencies ds
    return .specs p ds' (← within "spec" (r.packageSpecification s))
  | .application p ds d es => do
    let ds' ← r.dependencies ds
    return .application p ds' (← within "def" (r.package d)) es

/-- Edits a document; its version stays. -/
def document (r : Editor τ ν τ' ν' σ ε) (d : Document τ ν) : Walk σ ε (Document τ' ν') := do
  return ⟨d.version, ← within "distribution" (r.distribution d.distribution)⟩

end Editor

end IrDialects
