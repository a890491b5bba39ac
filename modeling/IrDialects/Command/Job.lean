import IrDialects.Command.Fault
import IrDialects.Document.Summary

/-!
# Jobs

What a command makes of the bytes of a document.
-/

namespace IrDialects.Command

open Report

/-- What to do with a document. -/
inductive Task where
  | detect | inspect | validate
  /-- The output goes to a file if that has a name, and to standard output otherwise. -/
  | migrate (target : Target) (pretty : Bool) (output : String)
deriving DecidableEq, Repr

/-- A task for the document at a path. -/
structure Job where
  path : String
  task : Task
deriving DecidableEq, Repr

def Options.migrationTarget (o : Options) : Except JobFault Target :=
  match Dialect.parse? o.target with
  | none => .error (.target o.target)
  | some .v4 => .ok ⟨.v4, if o.expanded then .expanded else .compact⟩
  | some .classic => if o.expanded then .error .expandedClassic else .ok ⟨.classic, .compact⟩

def Request.job (r : Request) : Except JobFault Job :=
  match r.verb with
  | .detect => .ok ⟨r.path, .detect⟩
  | .inspect => .ok ⟨r.path, .inspect⟩
  | .validate => .ok ⟨r.path, .validate⟩
  | .migrate => do
    return ⟨r.path, .migrate (← r.options.migrationTarget) r.options.pretty r.options.output⟩

/-- What a job hands over. -/
inductive Delivery where
  /-- A result, as data and as text. -/
  | result (data : Datum) (text : String)
  /-- A document for standard output, whatever the format. -/
  | document (text : String)
  /-- A document for a file, and the result once it has been written. -/
  | file (path : String) (text : String) (data : Datum) (message : String)

/-- A finished job. -/
structure Work where
  /-- What was done, for verbose runs. -/
  notes : List String := []
  delivery : Delivery

def summaryRows (s : Summary) : List (String × String) :=
  [("Dialect", s.dialect.name), ("Format version", s.version.toText), ("Distribution", s.kind),
    ("Package", s.package), ("Dependencies", toString s.dependencies),
    ("Modules", toString s.stats.modules), ("Types", toString s.stats.types),
    ("Values", toString s.stats.values), ("Type nodes", toString s.stats.typeNodes),
    ("Pattern nodes", toString s.stats.patternNodes), ("Value nodes", toString s.stats.valueNodes),
    ("Fingerprint", s.fingerprint)]

/-- A row of a summary; the values stand below each other. -/
def summaryRow (label value : String) : String :=
  String.ofList ((label ++ ":").toList.rightpad 15 ' ') ++ " " ++ value ++ "\n"

def summaryText (s : Summary) : String :=
  String.join ((summaryRows s).map fun (label, value) => summaryRow label value)

def summaryDatum (s : Summary) : Datum :=
  .record [("dialect", .text s.dialect.name), ("formatVersion", .text s.version.toText),
    ("kind", .text s.kind), ("package", .text s.package), ("dependencies", .count s.dependencies),
    ("stats", .record [("modules", .count s.stats.modules), ("types", .count s.stats.types),
      ("values", .count s.stats.values), ("typeNodes", .count s.stats.typeNodes),
      ("patternNodes", .count s.stats.patternNodes), ("valueNodes", .count s.stats.valueNodes)]),
    ("fingerprint", .text s.fingerprint)]

def detectWork (path : String) (bytes : List UInt8) : Except JobFault Work := do
  let d ← (Dialect.detectBytes bytes).mapError (.undetected path)
  return ⟨[], .result (.record [("path", .text path), ("dialect", .text d.name)]) (d.name ++ "\n")⟩

def inspectWork (path : String) (bytes : List UInt8) : Except JobFault Work := do
  let doc ← (AnyDocument.decode bytes).mapError (.undecodable path)
  let s ← doc.inspect.mapError .noFingerprint
  return ⟨[], .result (summaryDatum s) (summaryText s)⟩

/-- Says whether a document can be read. -/
def validateWork (path : String) (bytes : List UInt8) : Except JobFault Work := do
  let doc ← (AnyDocument.decode bytes).mapError (.invalid path)
  let d := doc.dialect.name
  return ⟨["Decoded " ++ d ++ " document (format version " ++ doc.version.toText ++ ")"],
    .result (.record [("valid", .bool true), ("dialect", .text d)])
      ("✓ " ++ path ++ " is valid (" ++ d ++ ")\n")⟩

def migrationFault (path : String) (f : Failure) : JobFault :=
  if f.isDetect || f.isDecode then .undecodable path f else .unencodable f

def migratedText (m : Migration) (pretty : Bool) : Except JobFault String := do
  let text ← if pretty then (Json.indent m.output).mapError .noLayout else .ok m.output
  return text ++ "\n"

/-- Where a migrated document goes. -/
def migratedDelivery (path output : String) (m : Migration) (text : String) : Delivery :=
  if output.isEmpty then .document text
  else .file output text
    (.record [("source", .text m.source.name), ("target", .text m.target.name),
      ("output", .text output), ("bytes", .count text.utf8ByteSize)])
    ("✓ Migrated " ++ path ++ " (" ++ m.source.name ++ " -> " ++ m.target.name ++ ") to "
      ++ output ++ "\n")

def migrateWork (path : String) (target : Target) (pretty : Bool) (output : String)
    (bytes : List UInt8) : Except JobFault Work := do
  let m ← (migrate bytes target.dialect target.mode).mapError (migrationFault path)
  let text ← migratedText m pretty
  return ⟨["Migrated " ++ m.source.name ++ " -> " ++ m.target.name],
    migratedDelivery path output m text⟩

/-- Does a job on the bytes of its document. -/
def Job.work (job : Job) (bytes : List UInt8) : Except JobFault Work :=
  match job.task with
  | .detect => detectWork job.path bytes
  | .inspect => inspectWork job.path bytes
  | .validate => validateWork job.path bytes
  | .migrate target pretty output => migrateWork job.path target pretty output bytes

end IrDialects.Command
