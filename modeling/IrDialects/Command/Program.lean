import IrDialects.Files.FileTree

/-!
# Programs

What a command does outside of itself, step by step: it reads files and standard input and writes
files. A program is run against a value that stands for its surroundings, or against the world.
-/

namespace IrDialects.Command

/-- A program with a result. -/
inductive Program (α : Type) where
  | done (result : α)
  | readFile (path : String) (next : Except FileFault (List UInt8) → Program α)
  | readInput (next : List UInt8 → Program α)
  | writeFile (path : String) (bytes : List UInt8) (next : Except FileFault Unit → Program α)

/-- What a program can reach. -/
structure Surroundings where
  files : FileTree := {}
  /-- What standard input still has. -/
  input : List UInt8 := []

namespace Program

variable {α β : Type}

/-- A program, and then another one. -/
def bind : Program α → (α → Program β) → Program β
  | done a, f => f a
  | readFile path next, f => readFile path fun r => (next r).bind f
  | readInput next, f => readInput fun r => (next r).bind f
  | writeFile path bytes next, f => writeFile path bytes fun r => (next r).bind f

instance : Monad Program where
  pure := done
  bind := bind

/-- Runs a program; gives its result and what it leaves. -/
def run : Program α → Surroundings → α × Surroundings
  | done a, s => (a, s)
  | readFile path next, s => (next (s.files.read path)).run s
  | readInput next, s => (next s.input).run { s with input := [] }
  | writeFile path bytes next, s =>
    match s.files.write path bytes with
    | .ok files => (next (.ok ())).run { s with files := files }
    | .error f => (next (.error f)).run s

@[simp] theorem run_done (a : α) (s : Surroundings) : (done a).run s = (a, s) := rfl

@[simp] theorem run_bind (p : Program α) (f : α → Program β) (s : Surroundings) :
    (p.bind f).run s = (f (p.run s).1).run (p.run s).2 := by
  induction p generalizing s with
  | done a => rfl
  | readFile path next ih => exact ih _ _
  | readInput next ih => exact ih _ _
  | writeFile path bytes next ih =>
    simp only [bind, run]
    cases s.files.write path bytes <;> exact ih _ _

end Program

end IrDialects.Command
