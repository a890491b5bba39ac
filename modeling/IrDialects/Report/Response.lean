import IrDialects.Report.Json
import IrDialects.Report.Yaml

/-!
# Responses

What a command answers, in the format that was asked for. Structured formats show a response as a
record: its status, its data and its problem, each only if it is there.
-/

namespace IrDialects.Report

/-- A format of reports. -/
inductive Format where
  | text | json | yaml
deriving DecidableEq, Repr

namespace Format

def name : Format → String
  | text => "text"
  | json => "json"
  | yaml => "yaml"

/-- The formats in the order in which they are listed. -/
def all : List Format := [text, json, yaml]

def ofName? (s : String) : Option Format := all.find? (·.name == s)

/-- Whether reports are read by programs. -/
def isStructured : Format → Bool
  | text => false
  | json | yaml => true

end Format

/-- Details of a problem. -/
structure Details where
  /-- For structured reports. -/
  data : Datum
  /-- For text reports. -/
  line : String

/-- The details that a datum gives; `null` gives none. -/
def Details.ofDatum? : Datum → Option Details
  | .null => none
  | d => some ⟨d, d.line⟩

/-- What went wrong. -/
structure Problem where
  code : String
  message : String
  details : Option Details := none

def Problem.datum (p : Problem) : Datum :=
  .record ([("code", .text p.code), ("message", .text p.message)]
    ++ (p.details.toList.map fun d => ("details", d.data)))

/-- The answer of a command. -/
structure Response where
  status : String
  /-- `null` if there are none. -/
  data : Datum := .null
  problem : Option Problem := none

def Response.datum (r : Response) : Datum :=
  .record ([("status", .text r.status)]
    ++ (match r.data with
      | .null => []
      | d => [("data", d)])
    ++ (r.problem.toList.map fun p => ("error", p.datum)))

/-- How to report. -/
structure Reporter where
  format : Format := .text
  verbose : Bool := false
deriving DecidableEq, Repr

namespace Reporter

/-- Whether reports are read by programs. -/
def isStructured (r : Reporter) : Bool := r.format.isStructured

/-- A whole response, which is structured whatever the format. -/
def respond (r : Reporter) (response : Response) : String :=
  match r.format with
  | .yaml => response.datum.yaml
  | .text | .json => response.datum.json

def success (r : Reporter) (data : Datum) : String :=
  if r.isStructured then r.respond ⟨"ok", data, none⟩ else data.line ++ "\n"

/-- The report of a problem. Texts give details only if they are verbose. -/
def failure (r : Reporter) (p : Problem) : String :=
  if r.isStructured then r.respond ⟨"error", .null, some p⟩
  else
    "Error [" ++ p.code ++ "]: " ++ p.message ++ "\n"
      ++ (match p.details with
        | some d => if r.verbose then "Details: " ++ d.line ++ "\n" else ""
        | none => "")

/-- A diagnostic line, which only verbose runs give. -/
def note (r : Reporter) (message : String) : String := if r.verbose then message ++ "\n" else ""

end Reporter

end IrDialects.Report
