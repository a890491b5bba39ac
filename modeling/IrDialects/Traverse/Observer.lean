import IrDialects.Traverse.Visitor

/-!
# Observers

A visitor made of callbacks, one for each kind of nodes, which may be left out. A callback is called
before the parts of its node are visited, and the parts are visited unless it fails.
-/

namespace IrDialects

/-- Callbacks that see nodes at their positions, with a state of type `σ` and failures of type `ε`. -/
structure Observer (τ ν σ ε : Type) where
  moduleDefinition : Option (Cursor → Path → ModuleDefinition τ ν → σ → Except ε Unit × σ) := none
  moduleSpecification : Option (Cursor → Path → ModuleSpecification τ → σ → Except ε Unit × σ) := none
  typeDefinition : Option (Cursor → Name → TypeDefinition τ → σ → Except ε Unit × σ) := none
  typeSpecification : Option (Cursor → Name → TypeSpecification τ → σ → Except ε Unit × σ) := none
  valueDefinition : Option (Cursor → Name → ValueDefinition τ ν → σ → Except ε Unit × σ) := none
  valueSpecification : Option (Cursor → Name → ValueSpecification τ → σ → Except ε Unit × σ) := none
  type : Option (Cursor → TypeExpr τ → σ → Except ε Unit × σ) := none
  pattern : Option (Cursor → Pattern ν → σ → Except ε Unit × σ) := none
  value : Option (Cursor → Value τ ν → σ → Except ε Unit × σ) := none

namespace Observer

variable {τ ν σ ε α : Type}

/-- Calls a callback if there is one. -/
def attempt (callback : Option α) (call : α → Except ε Unit × σ) (s : σ) : Except ε Unit × σ :=
  match callback with
  | some f => call f
  | none => (.ok (), s)

def call (o : Observer τ ν σ ε) (node : Visit τ ν) (c : Cursor) (s : σ) : Except ε Unit × σ :=
  match node with
  | .moduleDefinition n d => attempt o.moduleDefinition (· c n d s) s
  | .moduleSpecification n d => attempt o.moduleSpecification (· c n d s) s
  | .typeDefinition n d => attempt o.typeDefinition (· c n d s) s
  | .typeSpecification n d => attempt o.typeSpecification (· c n d s) s
  | .valueDefinition n d => attempt o.valueDefinition (· c n d s) s
  | .valueSpecification n d => attempt o.valueSpecification (· c n d s) s
  | .type t => attempt o.type (· c t s) s
  | .pattern p => attempt o.pattern (· c p s) s
  | .value v => attempt o.value (· c v s) s

/-- The visitor that calls the callbacks and goes on to the parts of every node. -/
def visitor (o : Observer τ ν σ ε) : Visitor τ ν σ ε where
  visit node c s :=
    match o.call node c s with
    | (.ok _, s) => (.ok true, s)
    | (.error e, s) => (.error e, s)

end Observer

end IrDialects
