import IrDialects.Command.Job
import IrDialects.Command.Program

/-!
# Running commands

From a command line to what is printed, written to files and returned. A command line is checked before
anything is read.
-/

namespace IrDialects.Command

open Report

/-- What a run leaves to its caller. -/
structure Outcome where
  /-- Standard output. -/
  output : String := ""
  /-- The diagnostic stream. -/
  diagnostics : String := ""
  /-- How the run failed, if it did. -/
  exit : Option Exit := none
deriving DecidableEq, Repr

namespace Outcome

def code (o : Outcome) : Nat :=
  match o.exit with
  | some e => e.code
  | none => 0

/-- The outcome of a faulty command line. -/
def ofUsage (f : UsageFault) : Outcome := { exit := some ⟨Exit.unable, f.message, none⟩ }

def ofFault (r : Reporter) (notes : List String) (f : JobFault) : Outcome where
  output := f.report r
  diagnostics := String.join (notes.map r.note)
  exit := some f.exit

/-- The outcome of a job that succeeded. -/
def ofSuccess (r : Reporter) (notes : List String) (output : String) : Outcome where
  output := output
  diagnostics := String.join (notes.map r.note)

end Outcome

/-- A result in the format that was asked for. -/
def resultText (r : Reporter) (data : Datum) (text : String) : String :=
  if r.isStructured then r.success data else text

/-- Reads a document; a dash stands for standard input. -/
def readDocument (path : String) : Program (Except JobFault (List UInt8)) :=
  if path = "-" then .readInput fun bytes => .done (.ok bytes)
  else .readFile path fun
    | .ok bytes => .done (.ok bytes)
    | .error f => .done (.error (if f.isMissing then .missing path else .unreadable path f))

/-- Hands over what a job has made. -/
def deliver (r : Reporter) (notes : List String) : Delivery → Program Outcome
  | .result data text => .done (.ofSuccess r notes (resultText r data text))
  | .document text => .done (.ofSuccess r notes text)
  | .file path text data message => .writeFile path (Text.Bytes.encode text) fun
    | .ok _ => .done (.ofSuccess r notes (resultText r data message))
    | .error f => .done (.ofFault r notes (.unwritable path f))

/-- The note about a document that has been read. -/
def readNote (path : String) (bytes : List UInt8) : String :=
  "Read " ++ toString bytes.length ++ " bytes from " ++ path

def Job.program (job : Job) (r : Reporter) : Program Outcome := do
  match ← readDocument job.path with
  | .error f => return .ofFault r [] f
  | .ok bytes =>
    let read := readNote job.path bytes
    match job.work bytes with
    | .error f => return .ofFault r [read] f
    | .ok work => deliver r (read :: work.notes) work.delivery

def Request.program (r : Request) : Program Outcome :=
  match r.job with
  | .error f => .done (.ofFault r.reporter [] f)
  | .ok job => job.program r.reporter

/-- Does what a command line asks for. -/
def program (args : List String) : Program Outcome :=
  match Request.parse args with
  | .error f => .done (.ofUsage f)
  | .ok none => .done {}
  | .ok (some r) => r.program

end IrDialects.Command
