import IrDialects.Command.Run
import IrDialects.Proofs.Document.Output
import IrDialects.Proofs.Document.Writing

/-!
# How commands end

A command ends with exit code 2 if its command line or its document cannot be had, with 1 if the
document is rejected, and with 0 otherwise, except that a document which was read may not be writable
in the dialect to which it is migrated: that is 2 again. So the commands that read a document reject the
same ones. Files change only when a migration ends well, and then the document is what is written.
-/

namespace IrDialects

/-- A file that has been written holds what was written. -/
theorem FileTree.read_write {files files' : FileTree} {path : String} {bytes : List UInt8}
    (h : files.write path bytes = .ok files') : files'.read path = .ok bytes := by
  rw [FileTree.write] at h
  rw [FileTree.read]
  split at h
  · cases h
  · rename_i place hplace
    split_ifs at h
    cases h
    simp [FileTree.contents?]

namespace Command

open AnyDocument (decode)

/-- The command line gives a command options and words, and does not ask for help. -/
def Asks (args : List String) (v : Verb) (o : Options) (words : List String) : Prop :=
  ∃ rest, findTopic args = .ok (.verb v, rest) ∧
    Options.parse (Topic.verb v).flags {} rest = .ok (o, words) ∧ o.help = false

/-- The options ask for something that does not exist: a format, or, of a migration, a dialect or the
expanded form of a Classic document. -/
def Options.Invalid (o : Options) (v : Verb) : Prop :=
  Report.Format.ofName? o.format = none ∨
    v = .migrate ∧ (Dialect.parse? o.target = none ∨
      Dialect.parse? o.target = some .classic ∧ o.expanded = true)

/-- The bytes of the document at a path, if they can be had. -/
def Surroundings.document? (s : Surroundings) (path : String) : Option (List UInt8) :=
  if path = "-" then some s.input else (s.files.read path).toOption

/-- The bytes of the document that words name: there must be one word, the path of a document. -/
def Surroundings.named? (s : Surroundings) : List String → Option (List UInt8)
  | [path] => s.document? path
  | _ => none

/-- A command rejects a document if it cannot tell the dialect, or else if it cannot read it. -/
def Verb.Rejects : Verb → List UInt8 → Prop
  | .detect, bytes => ∃ f, Dialect.detectBytes bytes = .error f
  | _, bytes => ∃ f, decode bytes = .error f

/-- A migration reads a document that cannot be written in the dialect it should go to. -/
def Options.Stuck (o : Options) (v : Verb) (bytes : List UInt8) : Prop :=
  v = .migrate ∧ ∃ t doc f, o.migrationTarget = .ok t ∧ decode bytes = .ok doc ∧
    doc.encode t.dialect t.mode = .error f

section Decidable

variable {o : Options} {v : Verb} {bytes : List UInt8}

theorem exists_eq_error_iff {ε α : Type} {r : Except ε α} : (∃ f, r = .error f) ↔ r.isOk = false := by
  cases r <;> simp [Except.isOk, Except.toBool]

instance : Decidable (Verb.migrate.Rejects bytes) := decidable_of_iff _ exists_eq_error_iff.symm

/-- Whether a migration is stuck. -/
def Options.isStuck (o : Options) (bytes : List UInt8) : Bool :=
  match o.migrationTarget, decode bytes with
  | .ok t, .ok doc => !(doc.encode t.dialect t.mode).isOk
  | _, _ => false

theorem isStuck_iff : v = .migrate ∧ o.isStuck bytes = true ↔ o.Stuck v bytes := by
  refine and_congr_right fun _ => ⟨fun h => ?_, ?_⟩
  · rw [Options.isStuck] at h
    split at h
    · rename_i t doc ht hdoc
      obtain ⟨f, hf⟩ := exists_eq_error_iff.2 (by simpa using h)
      exact ⟨t, doc, f, ht, hdoc, hf⟩
    · cases h
  · rintro ⟨t, doc, f, ht, hdoc, hf⟩
    rw [Options.isStuck, ht, hdoc]
    simpa using exists_eq_error_iff.1 ⟨f, hf⟩

instance : Decidable (o.Stuck v bytes) := decidable_of_iff _ isStuck_iff

end Decidable

section Reading

variable {s : Surroundings} {path : String} {bytes : List UInt8}

theorem run_readDocument_of_some (h : s.document? path = some bytes) :
    ∃ s', s'.files = s.files ∧ (readDocument path).run s = (.ok bytes, s') := by
  rw [Surroundings.document?] at h
  rw [readDocument]
  split_ifs at h ⊢ with hpath
  · cases h
    exact ⟨{ s with input := [] }, rfl, rfl⟩
  · refine ⟨s, rfl, ?_⟩
    cases hread : s.files.read path with
    | error f =>
      rw [hread] at h
      cases h
    | ok bs =>
      rw [hread] at h
      cases h
      rw [Program.run, hread]
      rfl

theorem run_readDocument_of_none (h : s.document? path = none) :
    ∃ f : JobFault, f.exitCode = Exit.unable ∧ (readDocument path).run s = (.error f, s) := by
  rw [Surroundings.document?] at h
  rw [readDocument]
  split_ifs at h ⊢ with hpath
  cases hread : s.files.read path with
  | ok bs =>
    rw [hread] at h
    cases h
  | error f =>
    refine ⟨if f.isMissing then .missing path else .unreadable path f, ?_, ?_⟩
    · split <;> rfl
    · rw [Program.run, hread]
      rfl

end Reading

section Work

variable {v : Verb} {o : Options} {path : String} {rep : Report.Reporter} {bytes : List UInt8}
  {job : Job}

/-- Options that are not invalid lead to a job. -/
theorem exists_job (h : ¬ o.Invalid v) (path : String) (rep : Report.Reporter) :
    ∃ job, Request.job ⟨v, path, rep, o⟩ = .ok job ∧ job.path = path := by
  rw [Options.Invalid, not_or] at h
  cases v with
  | detect | inspect | validate => exact ⟨_, rfl, rfl⟩
  | migrate =>
    obtain ⟨t, ht⟩ : ∃ t, o.migrationTarget = .ok t := by
      rw [Options.migrationTarget]
      cases hd : Dialect.parse? o.target with
      | none => exact absurd ⟨rfl, .inl hd⟩ h.2
      | some d =>
        cases d with
        | v4 => exact ⟨_, rfl⟩
        | classic =>
          refine ⟨_, if_neg fun he => h.2 ⟨rfl, .inr ⟨hd, he⟩⟩⟩
    refine ⟨⟨path, .migrate t o.pretty o.output⟩, ?_, rfl⟩
    rw [Request.job, ht]
    rfl

/-- Options that lead to no job are invalid. -/
theorem job_of_invalid (h : o.Invalid v) (hf : Report.Format.ofName? o.format ≠ none) (path : String)
    (rep : Report.Reporter) :
    ∃ f : JobFault, f.exitCode = Exit.unable ∧ Request.job ⟨v, path, rep, o⟩ = .error f := by
  obtain ⟨rfl, ht⟩ := h.resolve_left hf
  rcases ht with ht | ⟨ht, he⟩
  · refine ⟨.target o.target, rfl, ?_⟩
    rw [Request.job, Options.migrationTarget, ht]
    rfl
  · refine ⟨.expandedClassic, rfl, ?_⟩
    rw [Request.job, Options.migrationTarget, ht]
    simp only [he]
    rfl

theorem migrate_of_job (h : Request.job ⟨.migrate, path, rep, o⟩ = .ok job) :
    ∃ t, o.migrationTarget = .ok t ∧ job = ⟨path, .migrate t o.pretty o.output⟩ := by
  rw [Request.job] at h
  obtain ⟨t, ht, hjob⟩ := Decoded.bind_eq_ok.1 h
  cases hjob
  exact ⟨t, ht, rfl⟩

theorem work_of_rejects (hjob : Request.job ⟨v, path, rep, o⟩ = .ok job) (h : v.Rejects bytes) :
    ∃ f : JobFault, f.exitCode = Exit.rejected ∧ job.work bytes = .error f := by
  cases v with
  | detect =>
    cases hjob
    obtain ⟨f, hf⟩ := h
    refine ⟨.undetected path f, rfl, ?_⟩
    rw [Job.work, detectWork, hf]
    rfl
  | inspect =>
    cases hjob
    obtain ⟨f, hf⟩ := h
    refine ⟨.undecodable path f, rfl, ?_⟩
    rw [Job.work, inspectWork, hf]
    rfl
  | validate =>
    cases hjob
    obtain ⟨f, hf⟩ := h
    refine ⟨.invalid path f, rfl, ?_⟩
    rw [Job.work, validateWork, hf]
    rfl
  | migrate =>
    obtain ⟨t, -, rfl⟩ := migrate_of_job hjob
    obtain ⟨f, hf⟩ := h
    refine ⟨.undecodable path f, rfl, ?_⟩
    show (migrate bytes t.dialect t.mode).mapError (migrationFault path) >>= _ = _
    rw [migrate, hf]
    show Except.error (migrationFault path f) = _
    rw [migrationFault, if_pos (AnyDocument.isDetect_or_isDecode hf)]

theorem work_of_stuck (hjob : Request.job ⟨v, path, rep, o⟩ = .ok job) (h : o.Stuck v bytes) :
    ∃ f : JobFault, f.exitCode = Exit.unable ∧ job.work bytes = .error f := by
  obtain ⟨rfl, t, doc, f, ht, hdoc, hf⟩ := h
  obtain ⟨t', ht', rfl⟩ := migrate_of_job hjob
  obtain rfl := Except.ok.inj (ht.symm.trans ht')
  refine ⟨.unencodable f, rfl, ?_⟩
  show (migrate bytes t.dialect t.mode).mapError (migrationFault path) >>= _ = _
  rw [migrate, hdoc]
  show (doc.encode t.dialect t.mode >>= _).mapError (migrationFault path) >>= _ = _
  rw [hf]
  show Except.error (migrationFault path f) = _
  rw [migrationFault, if_neg (by rw [AnyDocument.not_isDetect_or_isDecode hf]; decide)]

/-- A command that is no migration hands over a result. -/
theorem work_of_read (hjob : Request.job ⟨v, path, rep, o⟩ = .ok job) (hv : v ≠ .migrate)
    (h : ¬ v.Rejects bytes) : ∃ notes data text, job.work bytes = .ok ⟨notes, .result data text⟩ := by
  cases v with
  | migrate => exact absurd rfl hv
  | detect =>
    cases hjob
    cases hd : Dialect.detectBytes bytes with
    | error f => exact absurd ⟨f, hd⟩ h
    | ok d =>
      simp only [Job.work, detectWork, hd]
      exact ⟨_, _, _, rfl⟩
  | inspect =>
    cases hjob
    cases hd : decode bytes with
    | error f => exact absurd ⟨f, hd⟩ h
    | ok doc =>
      obtain ⟨summary, hs⟩ := AnyDocument.exists_inspect hd
      refine ⟨[], summaryDatum summary, summaryText summary, ?_⟩
      rw [Job.work, inspectWork, hd]
      show doc.inspect.mapError JobFault.noFingerprint >>= _ = _
      rw [hs]
      rfl
  | validate =>
    cases hjob
    cases hd : decode bytes with
    | error f => exact absurd ⟨f, hd⟩ h
    | ok doc =>
      simp only [Job.work, validateWork, hd]
      exact ⟨_, _, _, rfl⟩

/-- The text of a document, over several lines if that is asked for. -/
def Laid (pretty : Bool) (output text : String) : Prop :=
  if pretty then Json.LaidOut output text else text = output

/-- A migration that reads its document and can write it hands over the document. -/
theorem work_of_migrates (hjob : Request.job ⟨.migrate, path, rep, o⟩ = .ok job)
    (hread : ¬ Verb.migrate.Rejects bytes) (hstuck : ¬ o.Stuck .migrate bytes) :
    ∃ t m text notes, o.migrationTarget = .ok t ∧ migrate bytes t.dialect t.mode = .ok m ∧
      Laid o.pretty m.output text ∧
      job.work bytes = .ok ⟨notes, migratedDelivery path o.output m (text ++ "\n")⟩ := by
  obtain ⟨t, ht, rfl⟩ := migrate_of_job hjob
  cases hd : decode bytes with
  | error f => exact absurd ⟨f, hd⟩ hread
  | ok doc =>
    cases he : doc.encode t.dialect t.mode with
    | error f => exact absurd ⟨rfl, t, doc, f, ht, hd, he⟩ hstuck
    | ok output =>
      obtain ⟨m, hm⟩ : ∃ m, migrate bytes t.dialect t.mode = .ok m :=
        ⟨_, migrate_eq_ok.2 ⟨doc, output, hd, AnyDocument.encode_eq_ok.1 he, rfl⟩⟩
      obtain ⟨text, hlaid, htext⟩ : ∃ text, Laid o.pretty m.output text ∧
          migratedText m o.pretty = .ok (text ++ "\n") := by
        obtain ⟨laid, hindent, hlaid⟩ := exists_indent_of_migrate hm
        cases hp : o.pretty with
        | true => exact ⟨laid, hlaid, by rw [migratedText, if_pos rfl, hindent]; rfl⟩
        | false => exact ⟨m.output, rfl, rfl⟩
      refine ⟨t, m, text, ["Migrated " ++ m.source.name ++ " -> " ++ m.target.name], ht, hm, hlaid, ?_⟩
      show (migrate bytes t.dialect t.mode).mapError (migrationFault path) >>= _ = _
      rw [hm]
      show (migratedText m o.pretty >>= _) = _
      rw [htext]
      rfl

end Work

/-- The file that a migration should write can be written. -/
def Options.Writable (o : Options) (v : Verb) (s : Surroundings) : Prop :=
  v = .migrate → o.output ≠ "" → ∀ bytes, ∃ files, s.files.write o.output bytes = .ok files

/-- Standard output holds no document: it is empty or holds the report of a fault. -/
def Outcome.HoldsNoDocument (out : Outcome) : Prop :=
  out.output = "" ∨ ∃ (rep : Report.Reporter) (f : JobFault), out.output = f.report rep

/-- The program fails with an exit code. It has changed no file and put out no document. -/
def Fails (args : List String) (s : Surroundings) (code : Nat) : Prop :=
  ∃ out s', (program args).run s = (out, s') ∧ out.code = code ∧ s'.files = s.files ∧
    out.HoldsNoDocument

section Run

variable {args : List String} {v : Verb} {o : Options} {path : String} {words : List String}
  {s : Surroundings} {bytes : List UInt8}

theorem parse_of_asks (h : Asks args v o [path]) :
    Request.parse args = o.reporter.map fun rep => some ⟨v, path, rep, o⟩ := by
  obtain ⟨rest, htopic, hparse, hhelp⟩ := h
  rw [Request.parse, htopic]
  show (Options.parse (Topic.verb v).flags {} rest).mapError UsageFault.flag >>= _ = _
  rw [hparse]
  show (if o.help then pure none else _) = _
  rw [hhelp]
  show o.reporter >>= _ = _
  cases o.reporter <;> rfl

theorem reporter_of_format {format : Report.Format} (hf : Report.Format.ofName? o.format = some format) :
    o.reporter = .ok ⟨format, o.verbose⟩ := by
  rw [Options.reporter, hf]

theorem program_of_asks (h : Asks args v o [path]) {format : Report.Format}
    (hf : Report.Format.ofName? o.format = some format) :
    program args = Request.program ⟨v, path, ⟨format, o.verbose⟩, o⟩ := by
  rw [program, parse_of_asks h, reporter_of_format hf]
  rfl

theorem fails_of_words (h : Asks args v o words) (hw : ∀ path, words ≠ [path]) :
    Fails args s Exit.unable := by
  obtain ⟨rest, htopic, hparse, hhelp⟩ := h
  have hrequest : Request.parse args = .error (.wordCount words.length) := by
    rw [Request.parse, htopic]
    show (Options.parse (Topic.verb v).flags {} rest).mapError UsageFault.flag >>= _ = _
    rw [hparse]
    show (if o.help then pure none else _) = _
    rw [hhelp]
    cases words with
    | nil => rfl
    | cons path words =>
      cases words with
      | nil => exact absurd rfl (hw path)
      | cons _ _ => rfl
  refine ⟨.ofUsage (.wordCount words.length), s, ?_, rfl, rfl, .inl rfl⟩
  rw [program, hrequest]
  rfl

theorem fails_of_invalid (h : Asks args v o [path]) (hi : o.Invalid v) : Fails args s Exit.unable := by
  cases hf : Report.Format.ofName? o.format with
  | none =>
    refine ⟨.ofUsage (.format o.format), s, ?_, rfl, rfl, .inl rfl⟩
    rw [program, parse_of_asks h, Options.reporter, hf]
    rfl
  | some format =>
    obtain ⟨f, hcode, hjob⟩ := job_of_invalid hi (by simp [hf]) path ⟨format, o.verbose⟩
    refine ⟨.ofFault ⟨format, o.verbose⟩ [] f, s, ?_, hcode, rfl, .inr ⟨_, _, rfl⟩⟩
    rw [program_of_asks h hf, Request.program, hjob]
    rfl

/-- What a valid command line comes to. -/
theorem exists_program (h : Asks args v o [path]) (hi : ¬ o.Invalid v) :
    ∃ rep job, Request.job ⟨v, path, rep, o⟩ = .ok job ∧ job.path = path ∧
      program args = job.program rep := by
  cases hf : Report.Format.ofName? o.format with
  | none => exact absurd (.inl hf) hi
  | some format =>
    obtain ⟨job, hjob, hpath⟩ := exists_job hi path ⟨format, o.verbose⟩
    refine ⟨_, job, hjob, hpath, ?_⟩
    rw [program_of_asks h hf, Request.program, hjob]

theorem fails_of_missing (h : Asks args v o [path]) (hi : ¬ o.Invalid v) (hs : s.document? path = none) :
    Fails args s Exit.unable := by
  obtain ⟨rep, job, -, rfl, hprogram⟩ := exists_program h hi
  obtain ⟨f, hcode, hread⟩ := run_readDocument_of_none hs
  refine ⟨.ofFault rep [] f, s, ?_, hcode, rfl, .inr ⟨_, _, rfl⟩⟩
  rw [hprogram, Job.program]
  show ((readDocument job.path).bind _).run s = _
  rw [Program.run_bind, hread]
  rfl

section Job

variable {job : Job}

theorem run_job_of_error {f : JobFault} (rep : Report.Reporter)
    (hs : s.document? job.path = some bytes) (hwork : job.work bytes = .error f) :
    ∃ s', s'.files = s.files ∧
      (job.program rep).run s = (.ofFault rep [readNote job.path bytes] f, s') := by
  obtain ⟨s', hfiles, hread⟩ := run_readDocument_of_some hs
  refine ⟨s', hfiles, ?_⟩
  rw [Job.program]
  show ((readDocument job.path).bind _).run s = _
  rw [Program.run_bind, hread]
  simp only [hwork]
  rfl

theorem run_job_of_ok {work : Work} (rep : Report.Reporter)
    (hs : s.document? job.path = some bytes) (hwork : job.work bytes = .ok work) :
    ∃ s', s'.files = s.files ∧ (job.program rep).run s =
      (deliver rep (readNote job.path bytes :: work.notes) work.delivery).run s' := by
  obtain ⟨s', hfiles, hread⟩ := run_readDocument_of_some hs
  refine ⟨s', hfiles, ?_⟩
  rw [Job.program]
  show ((readDocument job.path).bind _).run s = _
  rw [Program.run_bind, hread]
  simp only [hwork]

end Job

theorem fails_of_work {rep : Report.Reporter} {job : Job} {f : JobFault}
    (hprogram : program args = job.program rep) (hs : s.document? job.path = some bytes)
    (hwork : job.work bytes = .error f) : Fails args s f.exitCode := by
  obtain ⟨s', hfiles, hrun⟩ := run_job_of_error rep hs hwork
  exact ⟨_, s', by rw [hprogram, hrun], rfl, hfiles, .inr ⟨_, _, rfl⟩⟩

theorem fails_of_rejects (h : Asks args v o [path]) (hi : ¬ o.Invalid v)
    (hs : s.document? path = some bytes) (hr : v.Rejects bytes) : Fails args s Exit.rejected := by
  obtain ⟨rep, job, hjob, rfl, hprogram⟩ := exists_program h hi
  obtain ⟨f, hcode, hwork⟩ := work_of_rejects hjob hr
  exact hcode ▸ fails_of_work hprogram hs hwork

theorem fails_of_stuck (h : Asks args v o [path]) (hi : ¬ o.Invalid v)
    (hs : s.document? path = some bytes) (ht : o.Stuck v bytes) : Fails args s Exit.unable := by
  obtain ⟨rep, job, hjob, rfl, hprogram⟩ := exists_program h hi
  obtain ⟨f, hcode, hwork⟩ := work_of_stuck hjob ht
  exact hcode ▸ fails_of_work hprogram hs hwork

theorem succeeds_of_read (h : Asks args v o [path]) (hi : ¬ o.Invalid v) (hv : v ≠ .migrate)
    (hs : s.document? path = some bytes) (hr : ¬ v.Rejects bytes) :
    ((program args).run s).1.code = 0 := by
  obtain ⟨rep, job, hjob, rfl, hprogram⟩ := exists_program h hi
  obtain ⟨notes, data, text, hwork⟩ := work_of_read hjob hv hr
  obtain ⟨s', -, hrun⟩ := run_job_of_ok rep hs hwork
  rw [hprogram, hrun]
  rfl

/-- The program succeeds and puts out the migrated document, laid out if that is asked for: to standard
output, or to the file with the name that is asked for. -/
structure Migrates (args : List String) (o : Options) (s : Surroundings) (bytes : List UInt8) :
    Prop where
  code : ((program args).run s).1.code = 0
  written : ∃ t m text, o.migrationTarget = .ok t ∧ migrate bytes t.dialect t.mode = .ok m ∧
    Laid o.pretty m.output text ∧
    (o.output = "" → ((program args).run s).1.output = text ++ "\n" ∧
      ((program args).run s).2.files = s.files) ∧
    (o.output ≠ "" →
      s.files.write o.output (Text.Bytes.encode (text ++ "\n")) = .ok ((program args).run s).2.files ∧
      ((program args).run s).2.files.read o.output = .ok (Text.Bytes.encode (text ++ "\n")))

theorem migrates (h : Asks args .migrate o [path]) (hi : ¬ o.Invalid .migrate)
    (hs : s.document? path = some bytes) (hr : ¬ Verb.migrate.Rejects bytes)
    (ht : ¬ o.Stuck .migrate bytes)
    (hwrite : o.Writable .migrate s) : Migrates args o s bytes := by
  obtain ⟨rep, job, hjob, rfl, hprogram⟩ := exists_program h hi
  obtain ⟨t, m, text, notes, htarget, hm, hlaid, hwork⟩ := work_of_migrates hjob hr ht
  obtain ⟨s', hfiles, hrun⟩ := run_job_of_ok rep hs hwork
  rw [Work.delivery, migratedDelivery] at hrun
  by_cases hout : o.output = ""
  · rw [if_pos (by rw [hout]; rfl)] at hrun
    obtain ⟨ns, hall⟩ : ∃ ns, (program args).run s = (.ofSuccess rep ns (text ++ "\n"), s') :=
      ⟨_, by rw [hprogram]; exact hrun⟩
    refine ⟨by rw [hall]; rfl, t, m, text, htarget, hm, hlaid, fun _ => ?_, fun h => absurd hout h⟩
    rw [hall]
    exact ⟨rfl, hfiles⟩
  · obtain ⟨files, hfile⟩ := hwrite rfl hout (Text.Bytes.encode (text ++ "\n"))
    rw [if_neg (by simpa using hout), deliver, Program.run, hfiles, hfile] at hrun
    obtain ⟨ns, out, hall⟩ : ∃ ns out,
        (program args).run s = (.ofSuccess rep ns out, { s' with files := files }) :=
      ⟨_, _, by rw [hprogram]; exact hrun⟩
    refine ⟨by rw [hall]; rfl, t, m, text, htarget, hm, hlaid, fun h => absurd h hout, fun _ => ?_⟩
    rw [hall]
    exact ⟨hfile, FileTree.read_write hfile⟩

theorem fails_of_unable (h : Asks args v o words) (hu : o.Invalid v ∨ s.named? words = none) :
    Fails args s Exit.unable := by
  by_cases hw : ∃ path, words = [path]
  · obtain ⟨path, rfl⟩ := hw
    by_cases hi : o.Invalid v
    · exact fails_of_invalid h hi
    · exact fails_of_missing h hi (hu.resolve_left hi)
  · exact fails_of_words h fun path hpath => hw ⟨path, hpath⟩

theorem exists_path_of_named? (h : s.named? words = some bytes) :
    ∃ path, words = [path] ∧ s.document? path = some bytes := by
  rw [Surroundings.named?.eq_def] at h
  split at h
  · exact ⟨_, rfl, h⟩
  · cases h

/-- A document that is rejected has not been read. -/
theorem not_stuck_of_rejects (h : v.Rejects bytes) : ¬ o.Stuck v bytes := by
  rintro ⟨rfl, -, doc, -, -, hdoc, -⟩
  obtain ⟨f, hf⟩ := h
  rw [hdoc] at hf
  cases hf

theorem Fails.code_eq {code : Nat} (h : Fails args s code) : ((program args).run s).1.code = code := by
  obtain ⟨out, s', hrun, hcode, -⟩ := h
  rw [hrun]
  exact hcode

theorem Fails.unchanged {code : Nat} (h : Fails args s code) :
    ((program args).run s).2.files = s.files ∧ ((program args).run s).1.HoldsNoDocument := by
  obtain ⟨out, s', hrun, -, hfiles, hout⟩ := h
  rw [hrun]
  exact ⟨hfiles, hout⟩

theorem succeeds (h : Asks args v o words) (hw : o.Writable v s) (hi : ¬ o.Invalid v)
    (hs : s.named? words = some bytes) (hr : ¬ v.Rejects bytes) (ht : ¬ o.Stuck v bytes) :
    ((program args).run s).1.code = 0 ∧ (v = .migrate → Migrates args o s bytes) := by
  obtain ⟨path, rfl, hs⟩ := exists_path_of_named? hs
  by_cases hv : v = .migrate
  · subst hv
    have hm := migrates h hi hs hr ht hw
    exact ⟨hm.code, fun _ => hm⟩
  · exact ⟨succeeds_of_read h hi hv hs hr, fun h => absurd h hv⟩

/-- The exit code of a command whose command line is valid and whose document can be had. -/
theorem code_of_named (h : Asks args v o words) (hw : o.Writable v s) (hi : ¬ o.Invalid v)
    (hs : s.named? words = some bytes) :
    (((program args).run s).1.code = 1 ↔ v.Rejects bytes) ∧
    (((program args).run s).1.code = 2 ↔ o.Stuck v bytes) ∧
    (((program args).run s).1.code = 0 ↔ ¬ v.Rejects bytes ∧ ¬ o.Stuck v bytes) := by
  obtain ⟨path, rfl, hs'⟩ := exists_path_of_named? hs
  by_cases hr : v.Rejects bytes
  · have hcode := (fails_of_rejects h hi hs' hr).code_eq
    simp [hcode, hr, not_stuck_of_rejects hr, Exit.rejected]
  · by_cases ht : o.Stuck v bytes
    · have hcode := (fails_of_stuck h hi hs' ht).code_eq
      simp [hcode, hr, ht, Exit.unable]
    · have hcode := (succeeds h hw hi hs hr ht).1
      simp [hcode, hr, ht]

/-- The commands that read their document reject the same ones. -/
theorem rejects_iff (hv : v ≠ .detect) : v.Rejects bytes ↔ Verb.validate.Rejects bytes := by
  cases v with
  | detect => exact absurd rfl hv
  | inspect | validate | migrate => exact Iff.rfl

/-- What can be read has a dialect that can be told. -/
theorem not_rejects_of_validate (h : ¬ Verb.validate.Rejects bytes) (v : Verb) : ¬ v.Rejects bytes := by
  cases v with
  | inspect | validate | migrate => exact h
  | detect =>
    rintro ⟨f, hf⟩
    cases hd : decode bytes with
    | error f => exact h ⟨f, hd⟩
    | ok doc =>
      obtain ⟨d, hdetect⟩ := AnyDocument.exists_detectBytes hd
      rw [hdetect] at hf
      cases hf

theorem not_stuck_of_ne (hv : v ≠ .migrate) : ¬ o.Stuck v bytes := fun h => hv h.1

/-- A migration ends well, or it leaves things as they were. -/
theorem fails_or_migrates (h : Asks args .migrate o words) (hw : o.Writable .migrate s) :
    (∃ code, code ≠ 0 ∧ Fails args s code) ∨
      ∃ bytes, s.named? words = some bytes ∧ Migrates args o s bytes := by
  by_cases hu : o.Invalid .migrate ∨ s.named? words = none
  · exact .inl ⟨_, by decide, fails_of_unable h hu⟩
  · obtain ⟨hi, hn⟩ := not_or.1 hu
    obtain ⟨bytes, hs⟩ := Option.ne_none_iff_exists'.1 hn
    obtain ⟨path, rfl, hs'⟩ := exists_path_of_named? hs
    by_cases hr : Verb.migrate.Rejects bytes
    · exact .inl ⟨_, by decide, fails_of_rejects h hi hs' hr⟩
    · by_cases ht : o.Stuck .migrate bytes
      · exact .inl ⟨_, by decide, fails_of_stuck h hi hs' ht⟩
      · exact .inr ⟨bytes, hs, migrates h hi hs' hr ht hw⟩

/-- Exit codes are consistent. Code 2 says that the command line is invalid or that there is no document
to be had. Otherwise code 1 says that the document is rejected, code 2 that a migration cannot write it,
and code 0 that neither is the case. So for the same document the commands that read it end with code 1
together, and if it is valid then it can be inspected and its dialect can be told. A migration that does
not end with code 0 changes no file and puts out no document; one that does puts out the migrated
document and nothing else. -/
theorem exit_codes (h : Asks args v o words) (hw : o.Writable v s) :
    (o.Invalid v ∨ s.named? words = none → ((program args).run s).1.code = 2) ∧
    (¬ o.Invalid v → ∀ bytes, s.named? words = some bytes →
      (((program args).run s).1.code = 1 ↔ v.Rejects bytes) ∧
      (((program args).run s).1.code = 2 ↔ o.Stuck v bytes) ∧
      (((program args).run s).1.code = 0 ↔ ¬ v.Rejects bytes ∧ ¬ o.Stuck v bytes)) ∧
    (∀ args' v' o', Asks args' v' o' words → o'.Writable v' s → ¬ o.Invalid v → ¬ o'.Invalid v' →
      (v ≠ .detect → v' ≠ .detect →
        (((program args).run s).1.code = 1 ↔ ((program args').run s).1.code = 1)) ∧
      (v = .validate → v' = .inspect ∨ v' = .detect →
        ((program args).run s).1.code = 0 → ((program args').run s).1.code = 0)) ∧
    (v = .migrate →
      (((program args).run s).1.code ≠ 0 →
        ((program args).run s).2.files = s.files ∧ ((program args).run s).1.HoldsNoDocument) ∧
      (((program args).run s).1.code = 0 →
        ∃ bytes, s.named? words = some bytes ∧ Migrates args o s bytes)) := by
  refine ⟨fun hu => (fails_of_unable h hu).code_eq, fun hi bytes hs => code_of_named h hw hi hs,
    fun args' v' o' h' hw' hi hi' => ?_, ?_⟩
  -- Both commands name the same file; without it, both fail alike.
  · cases hs : s.named? words with
    | none =>
      have hcode := (fails_of_unable h (.inr hs)).code_eq
      have hcode' := (fails_of_unable h' (.inr hs)).code_eq
      simp [hcode, hcode', Exit.unable]
    | some bytes =>
      obtain ⟨hone, -, hzero⟩ := code_of_named h hw hi hs
      obtain ⟨hone', -, hzero'⟩ := code_of_named h' hw' hi' hs
      refine ⟨fun hv hv' => ?_, fun hv hv' hcode => ?_⟩
      · rw [hone, hone', rejects_iff hv, rejects_iff hv']
      · subst hv
        refine hzero'.2 ⟨not_rejects_of_validate (hzero.1 hcode).1 v', not_stuck_of_ne ?_⟩
        rcases hv' with rfl | rfl <;> decide
  · rintro rfl
    rcases fails_or_migrates h hw with ⟨code, hne, hfails⟩ | ⟨bytes, hs, hm⟩
    · exact ⟨fun _ => hfails.unchanged, fun hzero => absurd (hfails.code_eq.symm.trans hzero) hne⟩
    · exact ⟨fun hcode => absurd hm.code hcode, fun _ => ⟨bytes, hs, hm⟩⟩

/-- A directory with a document that can be written in the other dialect only. -/
def directory : Surroundings := { files := .ofList [("in.json", AnyDocument.leadingZero)] }

theorem writable_directory (h : o.output = "out.json") : o.Writable v directory := by
  intro _ _ bytes
  rw [h, FileTree.write, show FileTree.place? "out.json" = some ["out.json"] by decide +kernel]
  exact ⟨_, rfl⟩

theorem migrating_leadingZero :
    (∃ o, Asks ["migrate", "-t", "classic", "-o", "out.json", "in.json"] .migrate o ["in.json"] ∧
      o.Writable .migrate directory ∧
      ((program ["migrate", "-t", "classic", "-o", "out.json", "in.json"]).run directory).1.code = 2 ∧
      ((program ["migrate", "-t", "classic", "-o", "out.json", "in.json"]).run directory).2.files =
        directory.files) ∧
    ∃ o, Asks ["migrate", "--pretty", "--expanded", "-o", "out.json", "in.json"] .migrate o
        ["in.json"] ∧
      o.Writable .migrate directory ∧ o.pretty = true ∧ o.migrationTarget = .ok ⟨.v4, .expanded⟩ ∧
      ((program ["migrate", "--pretty", "--expanded", "-o", "out.json", "in.json"]).run
        directory).1.code = 0 ∧
      Migrates ["migrate", "--pretty", "--expanded", "-o", "out.json", "in.json"] o directory
        AnyDocument.leadingZero := by
  have hnamed : directory.named? ["in.json"] = some AnyDocument.leadingZero := by decide +kernel
  constructor
  · have hasks : Asks ["migrate", "-t", "classic", "-o", "out.json", "in.json"] .migrate
        { target := "classic", output := "out.json" } ["in.json"] :=
      ⟨["-t", "classic", "-o", "out.json", "in.json"], by decide +kernel, by decide +kernel, rfl⟩
    have hwrite := writable_directory (v := .migrate) (o := { target := "classic", output := "out.json" })
      rfl
    obtain ⟨-, hcodes, -, hmigrate⟩ := exit_codes hasks hwrite
    have hvalid : ¬ Options.Invalid { target := "classic", output := "out.json" } .migrate := by
      rw [Options.Invalid]
      decide +kernel
    have hcode := (hcodes hvalid _ hnamed).2.1.2 (by decide +kernel)
    exact ⟨_, hasks, hwrite, hcode, ((hmigrate rfl).1 (by rw [hcode]; decide)).1⟩
  · have hasks : Asks ["migrate", "--pretty", "--expanded", "-o", "out.json", "in.json"] .migrate
        { pretty := true, expanded := true, output := "out.json" } ["in.json"] :=
      ⟨["--pretty", "--expanded", "-o", "out.json", "in.json"], by decide +kernel, by decide +kernel,
        rfl⟩
    have hwrite := writable_directory (v := .migrate)
      (o := { pretty := true, expanded := true, output := "out.json" }) rfl
    obtain ⟨-, hcodes, -, hmigrate⟩ := exit_codes hasks hwrite
    have hvalid : ¬ Options.Invalid { pretty := true, expanded := true, output := "out.json" }
        .migrate := by
      rw [Options.Invalid]
      decide +kernel
    have hcode := (hcodes hvalid _ hnamed).2.2.2 (by decide +kernel)
    obtain ⟨bytes, hs, hm⟩ := (hmigrate rfl).2 hcode
    obtain rfl := Option.some.inj (hnamed.symm.trans hs)
    exact ⟨_, hasks, hwrite, rfl, rfl, hcode, hm⟩

end Run

end Command

end IrDialects
