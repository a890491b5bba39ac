import IrDialects.Document.Summary
import IrDialects.Proofs.Document.Reading
import IrDialects.Proofs.Tree.Nesting

/-!
# Migration keeps the contents of documents

What is migrated to the Classic dialect is read back as the same Classic tree, and to migrate it once
more changes nothing. What is migrated from Classic to V4 is read back as the same tree if its names
survive being written as texts, and has the same fingerprint then. Both hold up to the depth at which
the reader of JSON gives up.
-/

namespace IrDialects

open AnyDocument
open Json.Reader (IsNumber depthLimit isNumber_toString)

namespace AnyDocument

theorem encode_eq_ok {doc : AnyDocument} {target : Dialect} {mode : V4.Mode} {text : String} :
    doc.encode target mode = .ok text ↔ Json.marshal (doc.encodeJson mode target) = .ok text :=
  Decoded.mapError_eq_ok

end AnyDocument

/-- Migration reads and writes. -/
theorem migrate_eq_ok {bytes : List UInt8} {target : Dialect} {mode : V4.Mode} {m : Migration} :
    migrate bytes target mode = .ok m ↔ ∃ doc text, decode bytes = .ok doc ∧
      Json.marshal (doc.encodeJson mode target) = .ok text ∧ ⟨doc.dialect, target, doc, text⟩ = m := by
  simp only [migrate, Decoded.bind_eq_ok, encode_eq_ok, pure, Except.pure, Except.ok.injEq]
  constructor
  · rintro ⟨doc, hdoc, text, htext, hm⟩
    exact ⟨doc, text, hdoc, htext, hm⟩
  · rintro ⟨doc, text, hdoc, htext, hm⟩
    exact ⟨doc, hdoc, text, htext, hm⟩

section ToClassic

/-- What becomes of a Classic text that was written. -/
theorem decode_written_classic {doc : AnyDocument} {mode : V4.Mode} {text : String}
    (hversion : Classic.IsVersion doc.toClassic.version)
    (htree : doc.toClassic.distribution.Satisfies Classic.read)
    (htext : Json.marshal (doc.encodeJson mode .classic) = .ok text) :
    decode (Text.Bytes.encode text) = if (doc.encodeJson mode .classic).depth ≤ depthLimit
      then .ok (.classic doc.toClassic) else .error .notJson := by
  have hread : decodeJson (doc.encodeJson mode .classic) = .ok (.classic doc.toClassic) :=
    decodeJson_classic hversion htree
  rw [decode_marshal (Classic.orderly_encodeDocument htree) htext, ← hread]
  rfl

/-- Migration to Classic loses nothing of the Classic tree, version and attributes included, and is
idempotent: the output is read as that tree and migrated to itself. An output that is nested too
deeply is no JSON to the reader. -/
theorem migrate_classic_lossless {bytes : List UInt8} {doc : AnyDocument} {mode : V4.Mode}
    {m : Migration} (hdoc : decode bytes = .ok doc) (hm : migrate bytes .classic mode = .ok m) :
    ((doc.encodeJson mode .classic).depth ≤ depthLimit →
      decode (Text.Bytes.encode m.output) = .ok (.classic doc.toClassic) ∧
      ∀ mode', migrate (Text.Bytes.encode m.output) .classic mode' =
        .ok ⟨.classic, .classic, .classic doc.toClassic, m.output⟩) ∧
    (depthLimit < (doc.encodeJson mode .classic).depth →
      decode (Text.Bytes.encode m.output) = .error .notJson) := by
  obtain ⟨hversion, htree⟩ := toClassic_of_decode hdoc
  obtain ⟨doc', text, hdoc', htext, rfl⟩ := migrate_eq_ok.1 hm
  obtain rfl : doc' = doc := Except.ok.inj (hdoc'.symm.trans hdoc)
  have hread := decode_written_classic hversion htree htext
  refine ⟨fun hdepth => ?_, fun hdepth => ?_⟩
  -- What is read is the tree that was written, and so it is written as the same text again.
  · have hagain : decode (Text.Bytes.encode text) = .ok (.classic doc'.toClassic) := by
      rw [hread, if_pos hdepth]
    exact ⟨hagain, fun mode' => migrate_eq_ok.2 ⟨_, text, hagain, htext, rfl⟩⟩
  · rw [hread, if_neg (Nat.not_le.2 hdepth)]

section Nesting

variable (n : Nat)

theorem depth_nestedType :
    (Classic.encodeType Classic.plainAttrs (.nested {} n)).depth = n + 2 := by
  induction n with
  | zero => rfl
  | succ n ih =>
    have hattrs : Classic.plainAttrs.encode {} = .object [] := rfl
    simp [TypeExpr.nested, Classic.encodeType, Json.depth, Json.depthItems, Json.depthMembers, ih,
      hattrs]

theorem depth_nested :
    (Classic.encodeDistribution Classic.codec (.nested {} n)).depth = n + 11 := by
  have hcodec : Classic.codec.typeAttrs = Classic.plainAttrs := rfl
  simp [Distribution.nested, Classic.encodeDistribution, Classic.encodePackageSpec,
    Classic.encodeModuleSpec, Classic.encodeTypeSpecEntry, Classic.encodeDocumented,
    Classic.encodeTypeSpecification, Classic.encodePath, Classic.encodeName, Classic.encodeNames,
    Classic.encodeDoc, Json.depth, Json.depthItems, Json.depthMembers, hcodec, depth_nestedType]

theorem satisfies_read_nested : (Distribution.nested {} n).Satisfies Classic.read :=
  Distribution.satisfies_nested ClassicAttrs.kept_empty (fun _ _ => trivial) (fun _ _ => trivial)
    (fun _ _ => trivial) (fun _ _ => trivial) n

theorem satisfies_bare_nested : (Distribution.nested {} n).Satisfies Classic.bare :=
  Distribution.satisfies_nested rfl (fun _ _ => trivial) (fun _ _ => trivial)
    (fun _ _ => trivial) (fun _ _ => trivial) n

theorem depth_nestedDocument (mode : V4.Mode) :
    ((classic ⟨.defaultClassic, .nested {} n⟩).encodeJson mode .classic).depth = n + 12 := by
  simp [encodeJson, toClassic, Classic.encodeDocument, Json.depth, Json.depthMembers, depth_nested,
    Json.ofInt]

/-- A nested distribution that stands alone is migrated to a document that is one level deeper. -/
theorem exists_migrate_nested (hn : n + 11 ≤ depthLimit) (mode : V4.Mode) :
    ∃ bytes m, decode bytes = .ok (.classic ⟨.defaultClassic, .nested {} n⟩) ∧
      migrate bytes .classic mode = .ok m := by
  have hbare := satisfies_bare_nested n
  have hclean : (Classic.encodeDistribution Classic.codec (.nested {} n)).Clean :=
    (Classic.contains_bare.all_encodeDistribution hbare).imp (fun _ hs => hs) fun _ hks => hks.nodup
  obtain ⟨text, htext⟩ := Json.exists_marshal hclean
  obtain ⟨output, houtput⟩ := Json.exists_marshal
    (Classic.clean_encodeDocument (d := ⟨.defaultClassic, .nested {} n⟩) hbare)
  have hread : decode (Text.Bytes.encode text) = .ok (.classic ⟨.defaultClassic, .nested {} n⟩) := by
    rw [decode_marshal hclean.orderly htext, if_pos (by rwa [depth_nested]),
      decodeJson_distribution (satisfies_read_nested n)]
  exact ⟨_, _, hread, migrate_eq_ok.2 ⟨_, output, hread, houtput, rfl⟩⟩

end Nesting

theorem nested_migrates_to_itself :
    ∃ bytes m, decode bytes = .ok (.classic ⟨.defaultClassic, .nested {} 2⟩) ∧
      migrate bytes .classic .compact = .ok m ∧
      decode (Text.Bytes.encode m.output) = .ok (.classic ⟨.defaultClassic, .nested {} 2⟩) ∧
      migrate (Text.Bytes.encode m.output) .classic .compact =
        .ok ⟨.classic, .classic, .classic ⟨.defaultClassic, .nested {} 2⟩, m.output⟩ := by
  obtain ⟨bytes, m, hread, hm⟩ := exists_migrate_nested 2 (by decide) .compact
  have hdepth := depth_nestedDocument 2 .compact
  have hlossless := (migrate_classic_lossless hread hm).1 (by rw [hdepth]; decide)
  exact ⟨bytes, m, hread, hm, hlossless.1, hlossless.2 .compact⟩

/-- A distribution that is nested as deeply as the reader allows becomes a document that is not
read. -/
theorem deepest_distribution_is_lost :
    ¬ ∀ (bytes : List UInt8) (doc : AnyDocument) (mode : V4.Mode) (m : Migration),
      decode bytes = .ok doc → migrate bytes .classic mode = .ok m →
        decode (Text.Bytes.encode m.output) = .ok (.classic doc.toClassic) := by
  intro h
  obtain ⟨bytes, m, hread, hm⟩ := exists_migrate_nested 9989 (by decide) .compact
  have hlost := h bytes _ .compact m hread hm
  obtain ⟨doc, text, hdoc, htext, rfl⟩ := migrate_eq_ok.1 hm
  obtain rfl := Except.ok.inj (hdoc.symm.trans hread)
  have hdepth := depth_nestedDocument 9989 .compact
  rw [@decode_written_classic (classic ⟨.defaultClassic, .nested {} 9989⟩) .compact text
    Classic.isVersion_defaultClassic (satisfies_read_nested 9989) htext,
    if_neg (by rw [hdepth]; decide)] at hlost
  cases hlost

end ToClassic

section ToV4

/-- Without attributes and versions, nothing tells a document from its conversion. -/
theorem AnyDocument.bare_toV4 (d : ClassicDocument) : (v4 (Convert.toV4 d)).bare = (classic d).bare := by
  simp [AnyDocument.bare, toClassic, Convert.toClassic, Convert.toV4, Document.mapAttrs,
    Function.comp_def]

theorem AnyDocument.fingerprint_toV4 (d : ClassicDocument) :
    (v4 (Convert.toV4 d)).fingerprint = (classic d).fingerprint := by
  rw [fingerprint, fingerprint, bare_toV4]

theorem AnyDocument.exists_fingerprint {d : ClassicDocument}
    (h : d.distribution.Satisfies Classic.read) : ∃ s, (classic d).fingerprint = .ok s := by
  have hbare : (classic d).bare.distribution.Satisfies Classic.bare :=
    h.mapAttrs Classic.carried_bare h
  obtain ⟨text, htext⟩ := Json.exists_canonical (Classic.clean_encodeDocument hbare)
  exact ⟨_, Decoded.mapError_eq_ok.2 (by rw [Json.digest, Json.digestInput, htext]; rfl)⟩

/-- Every Classic document that was read can be migrated to V4. -/
theorem exists_migrate_v4 {bytes : List UInt8} {d : ClassicDocument}
    (h : decode bytes = .ok (.classic d)) (mode : V4.Mode) :
    ∃ text, Json.marshal ((classic d).encodeJson mode .v4) = .ok text := by
  obtain ⟨-, htree⟩ := classic_of_decode h
  have hwritable : (Convert.toV4 d).distribution.Satisfies V4.writable :=
    htree.mapAttrs Classic.carried_writable htree
  exact Json.exists_marshal (V4.contains_writable.all_encodeDocument V4.isNumber_four hwritable)

/-- Migration from Classic to V4 always gives an output. If the names of the document are canonical
and tell siblings apart, then the output is read as the converted tree, and both trees have one
fingerprint; an output that is nested too deeply is no JSON to the reader. -/
theorem migrate_v4_lossless {bytes : List UInt8} {d : ClassicDocument}
    (h : decode bytes = .ok (.classic d)) (mode : V4.Mode) :
    ∃ m, migrate bytes .v4 mode = .ok m ∧ (d.distribution.Satisfies .portable →
      (((classic d).encodeJson mode .v4).depth ≤ depthLimit →
        decode (Text.Bytes.encode m.output) = .ok (.v4 (Convert.toV4 d)) ∧
        ∃ s, (classic d).fingerprint = .ok s ∧ (v4 (Convert.toV4 d)).fingerprint = .ok s) ∧
      (depthLimit < ((classic d).encodeJson mode .v4).depth →
        decode (Text.Bytes.encode m.output) = .error .notJson)) := by
  obtain ⟨-, htree⟩ := classic_of_decode h
  obtain ⟨text, htext⟩ := exists_migrate_v4 h mode
  refine ⟨_, migrate_eq_ok.2 ⟨_, text, h, htext, rfl⟩, fun hnames => ?_⟩
  -- Attributes are carried over as V4 writes them, so only the names are left to ask for.
  have hwritten : (Convert.toV4 d).distribution.Satisfies V4.written :=
    htree.mapAttrs Classic.carried_written hnames
  have hread := decode_marshal (V4.clean_encodeDocument (m := mode) hwritten).orderly htext
  refine ⟨fun hdepth => ⟨?_, ?_⟩, fun hdepth => ?_⟩
  · exact hread.trans ((if_pos hdepth).trans (decodeJson_v4 V4.major?_defaultV4 hwritten))
  · obtain ⟨s, hs⟩ := exists_fingerprint htree
    exact ⟨s, hs, (fingerprint_toV4 d).trans hs⟩
  · exact hread.trans (if_neg (Nat.not_le.2 hdepth))

theorem nested_keeps_fingerprint :
    ∃ bytes m s, decode bytes = .ok (.classic ⟨.defaultClassic, .nested {} 2⟩) ∧
      migrate bytes .v4 .expanded = .ok m ∧
      decode (Text.Bytes.encode m.output) =
        .ok (.v4 (Convert.toV4 ⟨.defaultClassic, .nested {} 2⟩)) ∧
      (classic ⟨.defaultClassic, .nested {} 2⟩).fingerprint = .ok s ∧
      (v4 (Convert.toV4 ⟨.defaultClassic, .nested {} 2⟩)).fingerprint = .ok s := by
  obtain ⟨bytes, -, hread, -⟩ := exists_migrate_nested 2 (by decide) .expanded
  have hnames : (Distribution.nested {} 2 : Distribution ClassicAttrs ClassicAttrs).Satisfies
      .portable := by
    refine Distribution.satisfies_nested trivial ?_ ?_ (fun _ h => h) (fun _ h => h) 2
    · rintro ⟨_⟩ rfl
      exact List.forall_mem_nil _
    · rintro ⟨_⟩ rfl
      exact List.forall_mem_nil _
  obtain ⟨m, hm, hlossless⟩ := migrate_v4_lossless hread .expanded
  obtain ⟨hback, s, hs, hs'⟩ := (hlossless hnames).1 (by decide)
  exact ⟨bytes, m, s, hread, hm, hback, hs, hs'⟩

/-- The package of a Classic document, and that of what its V4 migration is read as. -/
def packages (bytes : List UInt8) : Option (Path × Option Path) :=
  match migrate bytes .v4 .compact with
  | .ok ⟨.classic, _, doc, output⟩ =>
    some (doc.package, (decode (Text.Bytes.encode output)).toOption.map package)
  | _ => none

/-- The two packages are those of a Classic document and of its migration. -/
theorem exists_of_packages {bytes : List UInt8} {p : Path} {q : Option Path}
    (h : packages bytes = some (p, q)) : ∃ d m, decode bytes = .ok (.classic d) ∧
      migrate bytes .v4 .compact = .ok m ∧ d.distribution.package = p ∧
      (decode (Text.Bytes.encode m.output)).toOption.map package = q := by
  rw [packages] at h
  split at h
  · rename_i target doc output hm
    obtain ⟨doc', text, hdoc, -, hm'⟩ := migrate_eq_ok.1 hm
    cases h
    cases doc' with
    | classic d =>
      cases hm'
      exact ⟨d, _, hdoc, hm, rfl, rfl⟩
    | v4 d => cases hm'
  · cases h

/-- The V4 migration of a Classic text is not read as the converted tree. -/
def Altered (bytes : List UInt8) : Prop :=
  ∃ d m, decode bytes = .ok (.classic d) ∧ migrate bytes .v4 .compact = .ok m ∧
    decode (Text.Bytes.encode m.output) ≠ .ok (.v4 (Convert.toV4 d))

theorem Altered.of_packages {bytes : List UInt8} {p : Path} {q : Option Path}
    (h : packages bytes = some (p, q)) (hne : q ≠ some p) : Altered bytes := by
  obtain ⟨d, m, hd, hm, rfl, rfl⟩ := exists_of_packages h
  refine ⟨d, m, hd, hm, fun hread => hne ?_⟩
  obtain ⟨version, distribution⟩ := d
  rw [hread]
  cases distribution <;> rfl

/-- A package interface that lists one module twice. -/
def repeatedModule : List UInt8 :=
  Text.Bytes.encode
    "[\"Specs\",[],[],\x7b\"modules\":[[[[\"a\"]],\x7b\x7d],[[[\"a\"]],\x7b\x7d]]\x7d]"

/-- A package whose name has a word with a capital. -/
def capitalWord : List UInt8 :=
  Text.Bytes.encode "[\"Specs\",[[\"Foo\"]],[],\x7b\"modules\":[]\x7d]"

/-- A package whose path has a name without words. -/
def emptySegment : List UInt8 := Text.Bytes.encode "[\"Specs\",[[]],[],\x7b\"modules\":[]\x7d]"

/-- An application with an entry point whose target has no local name. -/
def namelessTarget : List UInt8 :=
  Text.Bytes.encode ("[\"Application\",[],[],\x7b\"modules\":[]\x7d," ++
    "[[[],\x7b\"kind\":\"Main\",\"target\":[[],[],[]]\x7d]]]")

/-- Siblings with one name share a key in V4, which the reader of JSON refuses. Of the other
conditions on names, none can be left out either. -/
theorem migration_alters_names :
    (¬ ∀ (bytes : List UInt8) (d : ClassicDocument) (mode : V4.Mode),
      decode bytes = .ok (.classic d) → ∃ m d' s, migrate bytes .v4 mode = .ok m ∧
        decode (Text.Bytes.encode m.output) = .ok (.v4 d') ∧
        (classic d).fingerprint = .ok s ∧ (v4 d').fingerprint = .ok s) ∧
    Altered repeatedModule ∧ Altered capitalWord ∧ Altered emptySegment ∧
    Altered namelessTarget := by
  have hrepeated : packages repeatedModule = some (⟨[]⟩, none) := by decide +kernel
  have hcapital : packages capitalWord = some (⟨[⟨["Foo"]⟩]⟩, some ⟨[⟨["foo"]⟩]⟩) := by
    decide +kernel
  have hempty : packages emptySegment = some (⟨[⟨[]⟩]⟩, some ⟨[]⟩) := by decide +kernel
  have hnameless : packages namelessTarget = some (⟨[]⟩, none) := by decide +kernel
  refine ⟨fun h => ?_, .of_packages hrepeated (by decide), .of_packages hcapital (by decide),
    .of_packages hempty (by decide), .of_packages hnameless (by decide)⟩
  obtain ⟨d, m, hd, hm, -, hlost⟩ := exists_of_packages hrepeated
  obtain ⟨m', d', s, hm', hd', -⟩ := h _ d .compact hd
  obtain rfl := Except.ok.inj (hm'.symm.trans hm)
  rw [hd'] at hlost
  cases hlost

end ToV4

end IrDialects
