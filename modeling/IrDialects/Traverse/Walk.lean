import IrDialects.Traverse.Cursor

/-!
# Walks

A walk moves a cursor through a tree, keeps a state and may fail. Going into a segment and coming back
are one operation, so that a failure cannot leave the cursor inside.
-/

namespace IrDialects

/-- A computation at a position, with a state of type `σ` and failures of type `ε`. -/
abbrev Walk (σ ε α : Type) := ExceptT ε (StateM (Cursor × σ)) α

namespace Walk

variable {σ ε α : Type}

/-- Runs a walk one level further in, and comes back whether or not it fails. -/
def within (segment : String) (w : Walk σ ε α) : Walk σ ε α :=
  ExceptT.mk fun (c, s) =>
    let (r, c', s') := w.run (c.enter segment, s)
    (r, c'.exit, s')

/-- Asks a function that sees the position and the state, and leaves the position as it is. -/
def ask (f : Cursor → σ → Except ε α × σ) : Walk σ ε α :=
  ExceptT.mk fun (c, s) =>
    let (r, s') := f c s
    (r, c, s')

def runFrom (w : Walk σ ε α) (s : σ) : Except ε α × (Cursor × σ) := w.run ({}, s)

/-- The outcome of a walk from the root and the state in which it ends. -/
def outcome (w : Walk σ ε α) (s : σ) : Except ε α × σ :=
  let (r, _, s') := w.runFrom s
  (r, s')

end Walk

end IrDialects
