import IrDialects.Command.Run

/-!
# The program

Runs commands against the world.
-/

namespace IrDialects

/-- What an error of the system says about a file. -/
def fileFault (path : String) : IO.Error → FileFault
  | .noFileOrDirectory .. => .missing path
  | .inappropriateType .. => .readDirectory path
  | e => .other (toString e)

/-- The outcome of an action on a file. -/
def attempt {α : Type} (path : String) (action : IO α) : IO (Except FileFault α) := do
  try
    return .ok (← action)
  catch e => return .error (fileFault path e)

def perform {α : Type} : Command.Program α → IO α
  | .done a => return a
  | .readFile path next => do
    let r ← attempt path (IO.FS.readBinFile path)
    perform (next (r.map (·.toList)))
  | .readInput next => do
    let bytes ← (← IO.getStdin).readBinToEnd
    perform (next bytes.toList)
  | .writeFile path bytes next => do
    let r ← attempt path (IO.FS.writeBinFile path ⟨bytes.toArray⟩)
    perform (next r)

end IrDialects

def main (args : List String) : IO UInt32 := do
  let o ← IrDialects.perform (IrDialects.Command.program args)
  IO.print o.output
  IO.eprint o.diagnostics
  if let some e := o.exit then IO.eprintln e.text
  return o.code.toUInt32
