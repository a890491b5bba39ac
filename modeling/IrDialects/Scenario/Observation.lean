import IrDialects.Document.Finding
import IrDialects.Document.Summary
import IrDialects.Files.FileTree

/-!
# Observing documents

A run detects the dialect of the document, decodes it and, if there is a target, encodes it and decodes
the output. Each of these stages leaves a line in the trace. A document that cannot be read is part of
what is observed, not a fault of the run.
-/

namespace IrDialects

/-- A stage of a run. -/
inductive Stage where
  | detect | decode | encode | redecode
deriving DecidableEq, Repr

def Stage.name : Stage → String
  | detect => "detect"
  | decode => "decode"
  | encode => "encode"
  | redecode => "redecode"

/-- A line of the trace. -/
structure TraceEvent where
  stage : Stage
  dialect : Option Dialect
  detail : String := ""
deriving DecidableEq, Repr

/-- The stage, the dialect and the detail, without the empty ones. -/
def TraceEvent.text (e : TraceEvent) : String :=
  " ".intercalate ([e.stage.name, (e.dialect.map Dialect.name).getD "", e.detail].filter
    (!·.isEmpty))

/-- What a run has found out about the document, before any assertion. -/
structure Observation where
  trace : List TraceEvent
  /-- The dialect of the document, if it was told. -/
  source : Option Dialect := none
  /-- Why the document cannot be read. -/
  issue : Option Finding := none
  document : Option AnyDocument := none
  output : Option String := none
  /-- Why the output is no document. -/
  unreadable : Option Failure := none

/-- Why a scenario could not be run. -/
inductive RunFault where
  | input (fault : FileFault)
  | target (name : String)
  | encode (dialect : Dialect) (failure : Failure)
deriving DecidableEq, Repr

namespace RunFault

/-- What stands in front of the failure in a message. -/
def context : RunFault → String
  | input _ => "failed to read input: "
  | target _ => "invalid target: "
  | encode d _ => "failed to encode " ++ d.name ++ " output: "

/-- The failure of a document operation, if that is the reason. -/
def failure? : RunFault → Option Failure
  | encode _ f => some f
  | _ => none

def message (f : RunFault) : String :=
  f.context ++ match f with
    | input e => e.message
    | target s => Dialect.invalidMessage s
    | encode _ e => e.message

end RunFault

namespace Observation

/-- The observation that a document cannot be read, at a stage after those of `trace`. -/
def failed (trace : List TraceEvent) (stage : Stage) (dialect : Option Dialect) (f : Finding) :
    Observation where
  trace := trace ++ [⟨stage, dialect, f.kind ++ if f.path.isEmpty then "" else " " ++ f.path⟩]
  source := dialect
  issue := some f

/-- The observation of a document that was read, with what becomes of it. -/
def migrated (seen : Observation) (doc : AnyDocument) : Option Target → Except RunFault Observation
  | none => .ok seen
  | some t =>
    match doc.encode t.dialect t.mode with
    | .error f => .error (.encode t.dialect f)
    | .ok out =>
      let trace := seen.trace ++ [⟨.encode, some t.dialect, ""⟩]
      match AnyDocument.decode (Text.Bytes.encode out) with
      | .error f => .ok { seen with
          trace := trace ++ [⟨.redecode, some t.dialect, "failed"⟩]
          output := some out
          unreadable := some f }
      | .ok again => .ok { seen with
          trace := trace ++ [⟨.redecode, some again.dialect, ""⟩]
          output := some out }

/-- Detects, decodes and migrates a document. -/
def ofBytes (bytes : List UInt8) (target : Option Target) : Except RunFault Observation :=
  match Json.parseBytes bytes with
  | .error e => .ok (failed [] .detect none (.ofFault (.plain e.message)))
  | .ok j =>
    match Dialect.detect j with
    | .error e => .ok (failed [] .detect none (.ofFault (.issue e)))
    | .ok d =>
      let trace : List TraceEvent := [⟨.detect, some d, ""⟩]
      match AnyDocument.decodeIn d j with
      | .error e => .ok (failed trace .decode (some d) (.ofFault (.issue e)))
      | .ok doc =>
        migrated
          { trace := trace ++ [⟨.decode, some d, doc.kindName ++ " " ++ doc.package.text⟩]
            source := some d
            document := some doc } doc target

end Observation

end IrDialects
