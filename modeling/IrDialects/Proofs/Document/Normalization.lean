import IrDialects.Proofs.Document.Migration
import IrDialects.Proofs.V4.Respelling
import IrDialects.Proofs.V4.RoundTrip
import IrDialects.Proofs.V4.Siblings

/-!
# Normal forms of V4 documents

To migrate a V4 document to V4 is to bring it into the form in which it is written. A document in
this form is read back and written to the same text if its siblings have different keys and its
identifiers are written like canonical ones, up to the depth at which the reader of JSON gives up.
If two siblings share a key, then the form repeats it, and is not read back.
-/

namespace IrDialects

open AnyDocument
open Json.Reader (IsToken depthLimit)

/-- The attribute of a type node as a V4 document can have it. -/
structure TypeAttrs.Kept (a : TypeAttrs) : Prop extends a.Readable where
  orderly : ∀ v ∈ a.constraints, v.Orderly
  extensions : (Json.object a.extensions).Orderly

/-- The attribute of a value node as a V4 document can have it. -/
structure ValueAttrs.Kept (a : ValueAttrs) : Prop extends a.Readable where
  orderly : ∀ v ∈ a.inferredType, v.Orderly
  extensions : (Json.object a.extensions).Orderly

namespace V4

/-- What trees meet that were read from a V4 text. -/
def kept : Conditions TypeAttrs ValueAttrs where
  typeAttrs := TypeAttrs.Kept
  valueAttrs := ValueAttrs.Kept
  literal := Literal.Writable

/-- The V4 form of a tree that was read is one that can be read. -/
def distinct : Conditions TypeAttrs ValueAttrs :=
  { kept with
    names := fun ns => (ns.map Name.kebab).Nodup
    paths := fun ps => (ps.map Path.text).Nodup }

section Attributes

variable {ms : Members}

theorem orderly_of_attrMembers {v : Json} (hv : v.Orderly) (h : attrMembers v = .ok ms) :
    (Json.object ms).Orderly := by
  rw [attrMembers] at h
  split at h
  · cases h
    exact .object List.nodup_nil (by simp)
  · obtain rfl := Shape.object_eq_ok.1 h
    exact hv

theorem orderly_of_keptMember (hms : (Json.object ms).Orderly) {name : String} :
    ∀ v ∈ keptMember ms name, v.Orderly := by
  rw [keptMember]
  split
  · simp
  · simp
  · rename_i hv
    rintro _ ⟨⟩
    exact orderly_of_find? hms hv

theorem orderly_of_extensionsOf (hms : (Json.object ms).Orderly) {extensions : Members}
    (h : extensionsOf ms = .ok extensions) : (Json.object extensions).Orderly := by
  rw [extensionsOf] at h
  split at h
  · cases h
    exact .object List.nodup_nil (by simp)
  · cases h
    exact .object List.nodup_nil (by simp)
  · rename_i hv
    obtain rfl := Shape.object_eq_ok.1 (Decoded.under_eq_ok.1 h)
    exact orderly_of_find? hms hv

theorem yields_kept : Classic.Yields classicForm kept where
  typeAttrs v a hv h := by
    have hreadable := yields_read.typeAttrs v a hv h
    simp only [classicForm, decodeTypeAttrs, Decoded.bind_eq_ok, Decoded.pure_eq] at h
    obtain ⟨ms, hms, source, -, extensions, he, ⟨⟩⟩ := h
    have horderly := orderly_of_attrMembers hv hms
    exact ⟨hreadable, orderly_of_keptMember horderly, orderly_of_extensionsOf horderly he⟩
  valueAttrs v a hv h := by
    have hreadable := yields_read.valueAttrs v a hv h
    simp only [classicForm, decodeValueAttrs, Decoded.bind_eq_ok, Decoded.pure_eq] at h
    obtain ⟨ms, hms, source, -, extensions, he, ⟨⟩⟩ := h
    have horderly := orderly_of_attrMembers hv hms
    exact ⟨hreadable, orderly_of_keptMember horderly, orderly_of_extensionsOf horderly he⟩
  literal _ hl := hl
  name _ := trivial
  path _ := trivial
  qualified _ := trivial
  names _ := trivial
  paths _ := trivial

theorem carried_distinct : kept.Carried .apart distinct id id where
  typeAttrs _ ha _ := ha
  valueAttrs _ ha _ := ha
  literal _ hl _ := hl
  name _ _ _ := trivial
  path _ _ _ := trivial
  qualified _ _ _ := trivial
  names _ _ hns := hns
  paths _ _ hps := hps

theorem orderly_encodeTypeAttrs {a : TypeAttrs} (ha : a.Kept) : (encodeTypeAttrs a).Orderly :=
  all_attrObject (fun _ hs => hs.isToken) (fun _ hks => hks) (by simp) ha.source ha.orderly
    ha.extensions

theorem orderly_encodeValueAttrs {a : ValueAttrs} (ha : a.Kept) : (encodeValueAttrs a).Orderly :=
  all_attrObject (fun _ hs => hs.isToken) (fun _ hks => hks) (by simp) ha.source ha.orderly
    ha.extensions

theorem contains_distinct : Contains distinct IsToken List.Nodup where
  typeAttrs _ := orderly_encodeTypeAttrs
  valueAttrs _ := orderly_encodeValueAttrs
  literal _ hl := Json.Clean.orderly hl.all_encodePayload
  names _ h := h.all
  paths _ h := h.all
  keys _ hks := hks

/-- Whatever the names are, the numbers of the V4 form can be read. -/
theorem contains_kept : Contains kept IsToken (fun _ => True) where
  typeAttrs _ ha := (orderly_encodeTypeAttrs ha).imp (fun _ hs => hs) fun _ _ => trivial
  valueAttrs _ ha := (orderly_encodeValueAttrs ha).imp (fun _ hs => hs) fun _ _ => trivial
  literal _ hl := (Json.Clean.orderly hl.all_encodePayload).imp (fun _ hs => hs) fun _ _ => trivial
  names _ _ := trivial
  paths _ _ := trivial
  keys _ _ := trivial

end Attributes

end V4

section Fixpoint

variable {bytes : List UInt8} {d : V4Document} {mode : V4.Mode}

/-- If siblings have different keys, then the V4 form of a document that was read can be read. -/
theorem orderly_of_decode (h : decode bytes = .ok (.v4 d))
    (hkeys : d.distribution.Satisfies .apart) :
    (V4.encodeDocument mode d).Orderly := by
  obtain ⟨-, hkept⟩ := satisfies_of_decode V4.yields_kept h
  exact V4.contains_distinct.all_encodeDocument V4.isNumber_four.isToken
    (hkept.both V4.carried_distinct hkeys)

/-- The V4 form of a document whose identifiers are written like canonical ones is read as a document
with the same V4 form. -/
theorem exists_decodeJson_v4 (h : decode bytes = .ok (.v4 d))
    (hnames : d.distribution.Satisfies .plain) :
    ∃ d', decodeJson (V4.encodeDocument mode d) = .ok (.v4 d') ∧
      V4.encodeDocument mode d' = V4.encodeDocument mode d := by
  obtain ⟨hversion, hread⟩ := v4_of_decode h
  obtain ⟨t, ht, hform⟩ := V4.respelled_distribution (hread.both V4.carried_respellable hnames)
  have hsame : V4.encodeDocument mode ⟨d.version, t⟩ = V4.encodeDocument mode d := by
    rw [V4.encodeDocument, hform, V4.encodeDocument]
  exact ⟨⟨d.version, t⟩, hsame ▸ decodeJson_legible hversion ht, hsame⟩

/-- The V4 form of a document that was read repeats a key exactly if two siblings share one. -/
theorem repeatedKey?_encodeDocument (h : decode bytes = .ok (.v4 d)) :
    (V4.encodeDocument mode d).repeatedKey? = none ↔ d.distribution.Satisfies .apart := by
  obtain ⟨-, hkept⟩ := satisfies_of_decode V4.yields_kept h
  rw [Json.repeatedKey?_eq_none]
  refine ⟨V4.apart_of_encodeDocument hkept, fun hkeys => ?_⟩
  exact (orderly_of_decode h hkeys).imp (fun _ _ => trivial) fun _ hks => hks

/-- Bringing a V4 document into its normal form reaches a fixpoint if its siblings have different
keys. Exactly then no object that is written repeats a key. If identifiers are written like canonical
ones moreover, then the output is read as a document that is written to the same output. An output
that is nested too deeply is no JSON to the reader, nor is one in which two siblings share a key. -/
theorem migrate_v4_settles {m : Migration} (h : decode bytes = .ok (.v4 d))
    (hm : migrate bytes .v4 mode = .ok m) :
    ((V4.encodeDocument mode d).repeatedKey? = none ↔ d.distribution.Satisfies .apart) ∧
    (d.distribution.Satisfies .apart →
      (d.distribution.Satisfies .plain → (V4.encodeDocument mode d).depth ≤ depthLimit →
        ∃ d', decode (Text.Bytes.encode m.output) = .ok (.v4 d') ∧
          (v4 d').encode .v4 mode = .ok m.output) ∧
      (depthLimit < (V4.encodeDocument mode d).depth →
        decode (Text.Bytes.encode m.output) = .error .notJson)) ∧
    (¬ d.distribution.Satisfies .apart → ∃ fault : Json.ReadFault,
      decode (Text.Bytes.encode m.output) = .error (.detect (.plain fault.message))) := by
  obtain ⟨doc, text, hdoc, htext, rfl⟩ := migrate_eq_ok.1 hm
  obtain rfl := Except.ok.inj (hdoc.symm.trans h)
  refine ⟨repeatedKey?_encodeDocument h, fun hkeys => ?_, fun hshared => ?_⟩
  · -- The keys of the written tree are apart, so the reader can refuse it for its depth only.
    have horderly : (V4.encodeDocument mode d).Orderly := orderly_of_decode h hkeys
    have hread : decode (Text.Bytes.encode text) =
        if (V4.encodeDocument mode d).depth ≤ depthLimit
          then decodeJson (V4.encodeDocument mode d) else .error .notJson :=
      decode_marshal horderly htext
    refine ⟨fun hnames hdepth => ?_, fun hdepth => ?_⟩
    · obtain ⟨d', hd', hsame⟩ := exists_decodeJson_v4 h hnames
      refine ⟨d', hread.trans ((if_pos hdepth).trans hd'), encode_eq_ok.2 ?_⟩
      change Json.marshal (V4.encodeDocument mode d') = .ok text
      rw [hsame]
      exact htext
    · exact hread.trans (if_neg (Nat.not_le.2 hdepth))
  · obtain ⟨-, hkept⟩ := satisfies_of_decode V4.yields_kept h
    have htokens : (V4.encodeDocument mode d).All IsToken (fun _ => True) :=
      V4.contains_kept.all_encodeDocument V4.isNumber_four.isToken hkept
    exact exists_decode_marshal_eq_error htokens
      (fun hnone => hshared ((repeatedKey?_encodeDocument h).1 hnone)) htext

section Hyphenated

/-- A package interface whose name is an array with one word that has a hyphen. -/
def hyphenated : Json :=
  .object [("Specs", .object [("packageName", .array [.array [.string "my-org"]]),
    ("spec", .object [("modules", .object [("a", .object []), ("b", .object [])])])])]

/-- The document that it is read as. -/
def hyphenatedDocument : V4Document :=
  ⟨.defaultV4, .specs ⟨[⟨["my-org"]⟩]⟩ [] ⟨[⟨⟨[⟨["a"]⟩]⟩, {}⟩, ⟨⟨[⟨["b"]⟩]⟩, {}⟩]⟩⟩

theorem satisfies_hyphenated {P : Conditions TypeAttrs ValueAttrs}
    (hp : ∀ p ∈ [⟨[⟨["my-org"]⟩]⟩, ⟨[⟨["a"]⟩]⟩, ⟨[⟨["b"]⟩]⟩], P.path p) (hn : P.names [])
    (hps : P.paths []) (hms : P.paths [⟨[⟨["a"]⟩]⟩, ⟨[⟨["b"]⟩]⟩]) :
    hyphenatedDocument.distribution.Satisfies P := by
  obtain ⟨hpackage, hmodules⟩ := List.forall_mem_cons.1 hp
  have hkeys : P.Keyed [] := ⟨by simp, hn⟩
  refine .specs hpackage ⟨⟨by simp, hps⟩, by simp⟩ ⟨⟨hmodules, hms⟩, ?_⟩
  simpa using ⟨hkeys, by simp, hkeys, by simp⟩

theorem exists_decode_hyphenated : ∃ bytes, decode bytes = .ok (.v4 hyphenatedDocument) := by
  have hclean : hyphenated.Clean := by simp [hyphenated, Json.keys]
  obtain ⟨text, htext⟩ := Json.exists_marshal hclean
  have hread : decodeJson hyphenated = .ok (.v4 hyphenatedDocument) := rfl
  exact ⟨_, (decode_marshal hclean.orderly htext).trans ((if_pos (by decide)).trans hread)⟩

theorem hyphenated_settles :
    hyphenatedDocument.distribution.Satisfies .apart ∧
      hyphenatedDocument.distribution.Satisfies .plain ∧
      ¬ hyphenatedDocument.distribution.package.Canonical ∧
      ∃ bytes m d', decode bytes = .ok (.v4 hyphenatedDocument) ∧
        migrate bytes .v4 .expanded = .ok m ∧
        (V4.encodeDocument .expanded hyphenatedDocument).repeatedKey? = none ∧
        decode (Text.Bytes.encode m.output) = .ok (.v4 d') ∧
        (v4 d').encode .v4 .expanded = .ok m.output := by
  have hkeys : (([⟨[⟨["a"]⟩]⟩, ⟨[⟨["b"]⟩]⟩] : List Path).map Path.text).Nodup := by decide
  have hpaths : ∀ p ∈ [⟨[⟨["my-org"]⟩]⟩, ⟨[⟨["a"]⟩]⟩, ⟨[⟨["b"]⟩]⟩], Path.Plain p := by decide
  have hapart : hyphenatedDocument.distribution.Satisfies .apart :=
    satisfies_hyphenated (fun _ _ => trivial) List.nodup_nil List.nodup_nil hkeys
  have hplain : hyphenatedDocument.distribution.Satisfies .plain :=
    satisfies_hyphenated hpaths trivial trivial trivial
  have hwritable : hyphenatedDocument.distribution.Satisfies V4.writable :=
    satisfies_hyphenated (fun _ _ => trivial) trivial trivial trivial
  obtain ⟨bytes, h⟩ := exists_decode_hyphenated
  obtain ⟨text, htext⟩ := Json.exists_marshal
    (V4.contains_writable.all_encodeDocument (m := .expanded) V4.isNumber_four hwritable)
  have hm : migrate bytes .v4 .expanded = .ok ⟨.v4, .v4, .v4 hyphenatedDocument, text⟩ :=
    migrate_eq_ok.2 ⟨_, text, h, htext, rfl⟩
  obtain ⟨hunique, hsettles, -⟩ := migrate_v4_settles h hm
  obtain ⟨d', hd', hsame⟩ := (hsettles hapart).1 hplain (by decide)
  exact ⟨hapart, hplain, by decide, bytes, _, d', h, hm, hunique.2 hapart, hd', hsame⟩

end Hyphenated

end Fixpoint

section Unsettled

/-- A V4 text whose output in normal form is not read as a document with that output. -/
def Unsettled (mode : V4.Mode) (bytes : List UInt8) : Prop :=
  ∃ d m, decode bytes = .ok (.v4 d) ∧ migrate bytes .v4 mode = .ok m ∧
    ¬ ∃ d', decode (Text.Bytes.encode m.output) = .ok (.v4 d') ∧
      (v4 d').encode .v4 mode = .ok m.output

/-- Whether the compact normal form of a V4 text has not itself as its normal form. -/
def strays (bytes : List UInt8) : Bool :=
  match migrate bytes .v4 .compact with
  | .ok ⟨.v4, _, _, output⟩ =>
    match migrate (Text.Bytes.encode output) .v4 .compact with
    | .ok again => again.output != output
    | .error _ => true
  | _ => false

theorem Unsettled.of_strays {bytes : List UInt8} (h : strays bytes = true) :
    Unsettled .compact bytes := by
  rw [strays] at h
  split at h
  · rename_i target doc output hm
    obtain ⟨doc', text, hdoc, -, hm'⟩ := migrate_eq_ok.1 hm
    cases doc' with
    | classic d => cases hm'
    | v4 d =>
      cases hm'
      refine ⟨d, _, hdoc, hm, ?_⟩
      rintro ⟨d', hd', hsame⟩
      rw [migrate_eq_ok.2 ⟨_, _, hd', encode_eq_ok.1 hsame, rfl⟩] at h
      simp at h
  · cases h

/-- The key that the compact V4 form of a text repeats. -/
def repeated? (bytes : List UInt8) : Option String :=
  match decode bytes with
  | .ok (.v4 d) => (V4.encodeDocument .compact d).repeatedKey?
  | _ => none

theorem exists_of_repeated? {bytes : List UInt8} {key : String} (h : repeated? bytes = some key) :
    ∃ d, decode bytes = .ok (.v4 d) ∧ (V4.encodeDocument .compact d).repeatedKey? = some key := by
  rw [repeated?] at h
  split at h
  · exact ⟨_, ‹_›, h⟩
  · cases h

/-- Two modules whose keys are read as one name. -/
def sharedKey : List UInt8 :=
  Text.Bytes.encode ("\x7b\"Specs\":\x7b\"packageName\":\"p\"," ++
    "\"spec\":\x7b\"modules\":\x7b\"a\":\x7b\x7d,\"A\":\x7b\x7d\x7d\x7d\x7d\x7d")

/-- A package whose name is an array with one word that has a capital. -/
def verbatimWord : List UInt8 :=
  Text.Bytes.encode ("\x7b\"Specs\":\x7b\"packageName\":[[\"Foo\"]]," ++
    "\"spec\":\x7b\"modules\":\x7b\x7d\x7d\x7d\x7d")

/-- An application with an entry point whose target has no local name. -/
def namelessEntry : List UInt8 :=
  Text.Bytes.encode ("\x7b\"Application\":\x7b\"packageName\":\"\"," ++
    "\"def\":\x7b\"modules\":\x7b\x7d\x7d,\"entryPoints\":\x7b\"e\":" ++
    "\x7b\"target\":[[],[],[]],\"kind\":\"Main\"\x7d\x7d\x7d\x7d")

section Nesting

theorem V4.depth_nestedType (n : Nat) :
    (encodeType .expanded (.nested {} n)).depth = 2 * n + 3 := by
  induction n with
  | zero => rfl
  | succ n ih =>
    have hattrs : encodeTypeAttrs {} = .object [] := rfl
    simp [TypeExpr.nested, encodeType, typeAttrMember, member, Mode.isExpanded, wrapped, Json.depth,
      Json.depthMembers, ih, hattrs]
    omega

theorem V4.depth_nested (n : Nat) :
    (encodeDistribution .expanded (.nested {} n)).depth = 2 * n + 12 := by
  simp [Distribution.nested, encodeDistribution, encodePackageSpec, encodeModuleSpec,
    encodeSpecEntry, encodeTypeSpecification, distributionHead, docMember, encodePath, encodeParams,
    member, Mode.isExpanded, wrapped, Json.depth, Json.depthMembers, Json.depthItems,
    depth_nestedType]

theorem V4.depth_nestedDocument (n : Nat) :
    (encodeDocument .expanded ⟨.defaultV4, .nested {} n⟩).depth = 2 * n + 13 := by
  have hversion : (encodeVersion (writtenVersion .defaultV4)).depth = 0 := rfl
  simp [encodeDocument, Json.depth, Json.depthMembers, depth_nested, hversion]

/-- A V4 distribution that stands alone is read as a document of the default version. -/
theorem decodeJson_bare {mode : V4.Mode} {t : V4.V4Distribution} (ht : t.Satisfies V4.legible) :
    decodeJson (V4.encodeDistribution mode t) = .ok (.v4 ⟨.defaultV4, t⟩) := by
  have hread := V4.decodeDistribution_encodeDistribution (m := mode) ht
  have hdetect : Dialect.detect (V4.encodeDistribution mode t) = .ok .v4 := by
    cases t <;> rfl
  have hdocument : V4.decodeDocument (V4.encodeDistribution mode t) = .ok ⟨.defaultV4, t⟩ := by
    cases t <;> exact Decoded.bind_eq_ok.2 ⟨_, rfl, Decoded.bind_eq_ok.2 ⟨_, hread, rfl⟩⟩
  rw [decodeJson, hdetect]
  simp [decodeIn, hdocument, Except.mapError]

/-- A distribution that stands alone and is nested as deeply as the reader allows has a normal form
that is one level deeper. -/
theorem exists_unsettled_nested : ∃ bytes d, decode bytes = .ok (.v4 d) ∧
    d.distribution.Satisfies V4.written ∧ Unsettled .expanded bytes := by
  -- The limit is 2 * 4994 + 12, the depth of this distribution.
  have hwritten := V4.satisfies_written_nested 4994
  have hclean : (V4.encodeDistribution .expanded (.nested {} 4994)).Clean :=
    V4.contains_written.all_encodeDistribution hwritten
  have hclean' : (V4.encodeDocument .expanded ⟨.defaultV4, .nested {} 4994⟩).Clean :=
    V4.clean_encodeDocument hwritten
  obtain ⟨text, htext⟩ := Json.exists_marshal hclean
  obtain ⟨output, houtput⟩ := Json.exists_marshal hclean'
  have hdepth : (V4.encodeDistribution .expanded (.nested {} 4994)).depth ≤ depthLimit := by
    rw [V4.depth_nested]
    decide
  have hread : decode (Text.Bytes.encode text) = .ok (.v4 ⟨.defaultV4, .nested {} 4994⟩) := by
    rw [decode_marshal hclean.orderly htext, if_pos hdepth,
      decodeJson_bare (hwritten.both V4.carried_legible hwritten)]
  have hlost : decode (Text.Bytes.encode output) = .error .notJson := by
    rw [decode_marshal hclean'.orderly houtput, if_neg (by rw [V4.depth_nestedDocument]; decide)]
  refine ⟨_, _, hread, hwritten, _, _, hread, migrate_eq_ok.2 ⟨_, output, hread, houtput, rfl⟩, ?_⟩
  rintro ⟨d', hd', -⟩
  cases hlost.symm.trans hd'

end Nesting

/-- A document in normal form may be nested too deeply, have two siblings under one key, or have an
identifier that is read as another one or not at all. -/
theorem normal_forms_are_lost :
    (¬ ∀ (bytes : List UInt8) (d : V4Document) (mode : V4.Mode) (m : Migration),
      decode bytes = .ok (.v4 d) → migrate bytes .v4 mode = .ok m →
        ∃ d', decode (Text.Bytes.encode m.output) = .ok (.v4 d') ∧
          (v4 d').encode .v4 mode = .ok m.output) ∧
    (¬ ∀ (bytes : List UInt8) (d : V4Document) (mode : V4.Mode), decode bytes = .ok (.v4 d) →
      (V4.encodeDocument mode d).repeatedKey? = none) ∧
    (∃ bytes d, decode bytes = .ok (.v4 d) ∧ d.distribution.Satisfies V4.written ∧
      Unsettled .expanded bytes) ∧
    Unsettled .compact sharedKey ∧ Unsettled .compact verbatimWord ∧
    Unsettled .compact namelessEntry := by
  have hrepeated : repeated? sharedKey = some "a" := by decide +kernel
  have hshared : strays sharedKey = true := by decide +kernel
  have hverbatim : strays verbatimWord = true := by decide +kernel
  have hnameless : strays namelessEntry = true := by decide +kernel
  refine ⟨fun h => ?_, fun h => ?_, exists_unsettled_nested, .of_strays hshared,
    .of_strays hverbatim, .of_strays hnameless⟩
  · obtain ⟨bytes, -, -, -, d, m, hd, hm, hlost⟩ := exists_unsettled_nested
    exact hlost (h bytes d .expanded m hd hm)
  · obtain ⟨d, hd, htwice⟩ := exists_of_repeated? hrepeated
    rw [h _ d .compact hd] at htwice
    cases htwice

end Unsettled

end IrDialects
