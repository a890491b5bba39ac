import IrDialects.Proofs.Scenario.Observation
import IrDialects.Proofs.Traverse.Counting

/-!
# What a verdict means

A run passes exactly if it has no errors. Its errors are those of the output, of the input and of each
assertion, so it passes exactly if the input can be read or is expected not to be, the output can be
read again, and every assertion holds. Whether an assertion holds is said here of the document and the
target, without the run: a count is that of the nodes of the tree, and a failure to read is the issue of
the decoder.
-/

namespace IrDialects

open AnyDocument (decode)
open Observation (Migrates Reports)

variable {bytes : List UInt8} {target : Option Target} {seen : Observation}

namespace Text

/-- A text occurs in another one exactly if something precedes it and something follows it. -/
theorem occursIn_iff {part cs : List Char} : occursIn part cs = true ↔ part <:+: cs := by
  induction cs with
  | nil => simp [occursIn]
  | cons c cs ih => rw [occursIn, Bool.or_eq_true, ih, List.infix_cons_iff, List.isPrefixOf_iff_prefix]

end Text

/-- How many nodes of some kinds a document has. -/
def AnyDocument.number (kinds : List Visit.Kind) : AnyDocument → Nat
  | classic d => (Root.document d).nodes.countP (·.node.kind ∈ kinds)
  | v4 d => (Root.document d).nodes.countP (·.node.kind ∈ kinds)

namespace Statistic

/-- The kinds of nodes that a statistic counts. -/
def kinds : Statistic → List Visit.Kind
  | modules => [.module]
  | types => [.typeEntry]
  | values => [.valueEntry]
  | typeNodes => [.type]
  | patternNodes => [.pattern]
  | valueNodes => [.value]
  | nodes => [.type, .pattern, .value]

theorem value_total {τ ν : Type} (stat : Statistic) (ms : List (Sighting τ ν)) :
    stat.value (Stats.total ms) = ms.countP (·.node.kind ∈ stat.kinds) := by
  induction ms with
  | nil => cases stat <;> rfl
  | cons m ms ih =>
    rw [List.countP_cons, ← ih]
    cases stat <;> cases hkind : m.node.kind <;>
      simp +arith [value, kinds, Stats.total, Stats.nodes, hkind]

theorem value_stats (stat : Statistic) : ∀ doc : AnyDocument,
    stat.value doc.stats = doc.number stat.kinds
  | .classic d => by rw [AnyDocument.stats, Stats.ofDocument_eq_total, value_total, AnyDocument.number]
  | .v4 d => by rw [AnyDocument.stats, Stats.ofDocument_eq_total, value_total, AnyDocument.number]

end Statistic

namespace Assertion

/-- The kinds of nodes that a field counts. -/
def countedKinds : List (String × List Visit.Kind) :=
  [("modules", [.module]), ("types", [.typeEntry]), ("values", [.valueEntry]), ("typeNodes", [.type]),
    ("patternNodes", [.pattern]), ("valueNodes", [.value]), ("nodes", [.type, .pattern, .value])]

/-- What an assertion says about a document that is to be migrated to a target. -/
def Holds (bytes : List UInt8) (target : Option Target) : Assertion → Prop
  | dialect name => ∃ d, Dialect.parse? name = some d ∧ Dialect.detectBytes bytes = .ok d
  | decodeError kind path =>
    ∃ x, Finding.Describes bytes x ∧ x.kind = kind ∧ (path = "" ∨ x.path = path)
  | roundTrip =>
    ∃ doc t out again, Migrates bytes target doc t out ∧
      decode (Text.Bytes.encode out) = .ok again ∧ again.encode t.dialect t.mode = .ok out
  | fingerprintStable =>
    ∃ doc t out again print, Migrates bytes target doc t out ∧
      decode (Text.Bytes.encode out) = .ok again ∧
      doc.fingerprint = .ok print ∧ again.fingerprint = .ok print
  | count field value =>
    ∃ kinds doc, (field, kinds) ∈ countedKinds ∧ decode bytes = .ok doc ∧
      (doc.number kinds : Int) = value
  | outputContains text =>
    ∃ doc t out, Migrates bytes target doc t out ∧ text.toList <:+: out.toList
  | unknown _ => False

theorem mem_countedKinds_iff {field : String} {kinds : List Visit.Kind} :
    (field, kinds) ∈ countedKinds ↔
      ∃ stat, Statistic.ofName? field = some stat ∧ kinds = stat.kinds := by
  have htable : countedKinds = Statistic.table.map fun p => (p.1, p.2.kinds) := rfl
  simp only [htable, List.mem_map, Prod.mk.injEq]
  have hnames : ∀ p ∈ Statistic.table, Statistic.ofName? p.1 = some p.2 := by
    simp [Statistic.ofName?, Statistic.table, List.lookup_cons]
  constructor
  · rintro ⟨p, hp, rfl, rfl⟩
    exact ⟨p.2, hnames p hp, rfl⟩
  · rintro ⟨stat, hstat, rfl⟩
    obtain ⟨before, after, htable, -⟩ := List.lookup_eq_some_iff.1 hstat
    exact ⟨(field, stat), by simp [htable], rfl, rfl⟩

section Refute

theorem demand_eq_none_iff {holds : Bool} {expected actual : String} :
    demand holds expected actual = none ↔ holds = true := by
  cases holds <;> simp [demand]

theorem refuteDialect_eq_none_iff (h : Reports bytes target seen) {name : String} :
    refuteDialect seen name = none ↔ (dialect name).Holds bytes target := by
  rw [refuteDialect, Holds]
  cases hname : Dialect.parse? name with
  | none => simp
  | some want => simp [demand_eq_none_iff, h.source]

theorem refuteDecodeError_eq_none_iff (h : Reports bytes target seen) {kind path : String} :
    refuteDecodeError seen kind path = none ↔ (decodeError kind path).Holds bytes target := by
  rw [refuteDecodeError, Holds]
  simp only [← h.issue]
  cases seen.issue with
  | none => simp
  | some x => simp [demand_eq_none_iff]

theorem outputDocument_eq_ok {out : String} {doc : AnyDocument} :
    outputDocument out = .ok doc ↔ decode (Text.Bytes.encode out) = .ok doc :=
  Decoded.mapError_eq_ok

theorem refuteRoundTrip_eq_none_iff (h : Reports bytes target seen) :
    refuteRoundTrip seen target = none ↔ roundTrip.Holds bytes target := by
  rw [Holds]
  cases hout : seen.output with
  | none => simp [refuteRoundTrip, hout, h.not_migrates hout]
  | some out =>
    obtain ⟨doc, t, hm⟩ := (h.output out).1 hout
    obtain ⟨-, rfl, -⟩ := id hm
    simp only [exists_and_left, hm.exists_iff, refuteRoundTrip, hout, ← outputDocument_eq_ok]
    cases outputDocument out with
    | error r => simp
    | ok again =>
      simp only [Except.ok.injEq, exists_eq_left']
      cases again.encode t.dialect t.mode with
      | error f => simp
      | ok text => simp [demand_eq_none_iff]

theorem refuteFingerprint_eq_none_iff (h : Reports bytes target seen) :
    refuteFingerprint seen = none ↔ fingerprintStable.Holds bytes target := by
  rw [Holds]
  cases hout : seen.output with
  | none => simp [refuteFingerprint, hout, h.not_migrates hout]
  | some out =>
    obtain ⟨doc, t, hm⟩ := (h.output out).1 hout
    have hdoc := (h.document doc).2 hm.1
    simp only [exists_and_left, hm.exists_iff, refuteFingerprint, hout, hdoc]
    cases hagain : outputDocument out with
    | error r => simp [← outputDocument_eq_ok, hagain]
    | ok again =>
      have hreread := outputDocument_eq_ok.1 hagain
      obtain ⟨before, hbefore⟩ := AnyDocument.exists_fingerprint_of_decode hm.1
      obtain ⟨after, hafter⟩ := AnyDocument.exists_fingerprint_of_decode hreread
      simpa [hreread, hbefore, hafter, demand_eq_none_iff] using eq_comm

theorem refuteCount_eq_none_iff (h : Reports bytes target seen) {field : String} {value : Int} :
    refuteCount seen field value = none ↔ (count field value).Holds bytes target := by
  rw [refuteCount, Holds]
  simp only [mem_countedKinds_iff]
  cases hstat : Statistic.ofName? field with
  | none => simp
  | some stat =>
    cases hdoc : seen.document with
    | none => simp [h.decode_ne_ok hdoc]
    | some doc =>
      have hread := (h.document doc).1 hdoc
      obtain ⟨summary, hsummary⟩ := AnyDocument.exists_inspect hread
      simp [hsummary, hread, demand_eq_none_iff, AnyDocument.stats_of_inspect hsummary,
        Statistic.value_stats]

theorem refuteContains_eq_none_iff (h : Reports bytes target seen) {text : String} :
    refuteContains seen text = none ↔ (outputContains text).Holds bytes target := by
  rw [refuteContains, Holds]
  cases hout : seen.output with
  | none => simp [h.not_migrates hout]
  | some out =>
    obtain ⟨doc, t, hm⟩ := (h.output out).1 hout
    rw [hm.exists_iff]
    simp [demand_eq_none_iff, Text.contains, Text.occursIn_iff]

/-- An assertion is refuted by what a run observes exactly if it does not hold. -/
theorem refute_eq_none_iff (h : Reports bytes target seen) (a : Assertion) :
    a.refute seen target = none ↔ a.Holds bytes target := by
  cases a with
  | dialect name => exact refuteDialect_eq_none_iff h
  | decodeError kind path => exact refuteDecodeError_eq_none_iff h
  | roundTrip => exact refuteRoundTrip_eq_none_iff h
  | fingerprintStable => exact refuteFingerprint_eq_none_iff h
  | count field value => exact refuteCount_eq_none_iff h
  | outputContains text => exact refuteContains_eq_none_iff h
  | unknown type => simp [refute, Holds]

end Refute

section Evaluate

theorem messages_eq_nil_iff {i : Nat} {as : List Assertion} :
    messages seen target i as = [] ↔ ∀ a ∈ as, a.refute seen target = none := by
  induction as generalizing i with
  | nil => simp [messages]
  | cons a as ih =>
    rw [messages, List.forall_mem_cons]
    cases a.refute seen target with
    | none => simp [ih]
    | some r => simp

theorem any_expectsFailure_iff {as : List Assertion} :
    as.any (·.expectsFailure) = true ↔ ∃ kind path, decodeError kind path ∈ as := by
  rw [List.any_eq_true]
  constructor
  · rintro ⟨a, ha, hexpects⟩
    cases a with
    | decodeError kind path => exact ⟨kind, path, ha⟩
    | _ => cases hexpects
  · rintro ⟨kind, path, ha⟩
    exact ⟨_, ha, rfl⟩

/-- Assertions have no errors if the document can be read or is expected not to be, and they all
hold. -/
theorem evaluate_eq_nil_iff (h : Reports bytes target seen) {as : List Assertion} :
    evaluate seen target as = [] ↔
      ((∃ doc, decode bytes = .ok doc) ∨ ∃ kind path, decodeError kind path ∈ as) ∧
        ∀ a ∈ as, a.Holds bytes target := by
  rw [evaluate, List.append_eq_nil_iff, messages_eq_nil_iff]
  refine and_congr ?_ (forall₂_congr fun a _ => refute_eq_none_iff h a)
  rw [← any_expectsFailure_iff]
  have hfailed := h.isSome_issue_iff
  cases hread : decode bytes with
  | error f =>
    obtain ⟨x, hissue⟩ := Option.isSome_iff_exists.1 (hfailed.2 ⟨f, hread⟩)
    cases as.any (·.expectsFailure) <;> simp [hissue]
  | ok doc =>
    have hnone : seen.issue = none := by simpa [hread] using hfailed
    simp [hnone]

end Evaluate

end Assertion

namespace RunResult

/-- A result passes exactly if it has no errors. -/
def Settled (r : RunResult) : Prop := r.pass = r.errors.isEmpty

variable {r : RunResult} {es : List String}

theorem settled_addError (r : RunResult) (e : String) : (r.addError e).Settled := by
  simp [Settled, addError]

theorem settled_ofObservation (seen : Observation) : (ofObservation seen).Settled := by
  rw [ofObservation]
  split
  · exact settled_addError _ _
  · rfl

/-- However many errors are added, a result that passes exactly if it has none stays one. -/
theorem Settled.foldl (h : r.Settled) (es : List String) : (es.foldl addError r).Settled := by
  induction es generalizing r with
  | nil => exact h
  | cons e es ih => exact ih (settled_addError r e)

theorem errors_foldl (r : RunResult) (es : List String) :
    (es.foldl addError r).errors = r.errors ++ es := by
  induction es generalizing r with
  | nil => simp
  | cons e es ih => simp [ih, addError]

theorem observation_foldl (r : RunResult) (es : List String) :
    (es.foldl addError r).observation = r.observation := by
  induction es generalizing r with
  | nil => rfl
  | cons e es ih => exact ih _

theorem observation_ofObservation (seen : Observation) : (ofObservation seen).observation = seen := by
  rw [ofObservation]
  split <;> rfl

theorem errors_ofObservation_eq_nil_iff :
    (ofObservation seen).errors = [] ↔ seen.unreadable = none := by
  rw [ofObservation]
  split
  · rename_i f hf
    simp [hf, addError]
  · rename_i hf
    simp [hf]

end RunResult

namespace Scenario

variable {s : Scenario} {files : FileTree} {r : RunResult}

/-- A run reads its document, observes what becomes of it and evaluates the assertions. -/
theorem run_eq_ok_iff : s.run files = .ok r ↔ ∃ bytes target seen, s.bytes files = .ok bytes ∧
    s.target? = .ok target ∧ Observation.ofBytes bytes target = .ok seen ∧
    r = (Assertion.evaluate seen target s.assertions).foldl RunResult.addError (.ofObservation seen) := by
  rw [run]
  cases hbytes : s.bytes files with
  | error f => simp [Except.mapError, bind, Except.bind]
  | ok bytes =>
    cases htarget : s.target? with
    | error f => simp [Except.mapError, bind, Except.bind]
    | ok target =>
      cases hseen : Observation.ofBytes bytes target with
      | error f => simp [Except.mapError, bind, Except.bind, hseen]
      | ok seen => simp [Except.mapError, bind, Except.bind, hseen, pure, Except.pure, eq_comm]

/-- The output of a run can be read again, if there is any. -/
theorem unreadable_eq_none_iff (h : Reports bytes target seen) : seen.unreadable = none ↔
    ∀ doc t, decode bytes = .ok doc → target = some t → ∃ out again,
      doc.encode t.dialect t.mode = .ok out ∧ decode (Text.Bytes.encode out) = .ok again := by
  constructor
  · intro hnone doc t hread htarget
    obtain ⟨out, hm⟩ := h.written doc t hread htarget
    cases hagain : decode (Text.Bytes.encode out) with
    | error f =>
      have hsome := (h.unreadable f).2 ⟨doc, t, out, hm, hagain⟩
      rw [hnone] at hsome
      cases hsome
    | ok again => exact ⟨out, again, hm.2.2, hagain⟩
  · intro hall
    by_contra hsome
    obtain ⟨f, hf⟩ := Option.ne_none_iff_exists'.1 hsome
    obtain ⟨doc, t, out, ⟨hread, htarget, hout⟩, hfails⟩ := (h.unreadable f).1 hf
    obtain ⟨out', again, hout', hagain⟩ := hall doc t hread htarget
    cases hout.symm.trans hout'
    cases hfails.symm.trans hagain

/-- A run passes exactly if it has no errors, and exactly if its document can be read or some assertion
expects that it cannot, its output can be read again, and every assertion holds. Its trace shows how far
it went. It has an issue exactly if the document cannot be read, and it is the one that describes why;
then it has neither a document nor an output. -/
theorem pass_iff_every_assertion_holds (hbytes : s.bytes files = .ok bytes)
    (htarget : s.target? = .ok target) (hrun : s.run files = .ok r) :
    (r.pass = true ↔ r.errors = []) ∧
    (r.pass = true ↔
      ((∃ doc, decode bytes = .ok doc) ∨ ∃ kind path, .decodeError kind path ∈ s.assertions) ∧
      (∀ doc t, decode bytes = .ok doc → target = some t → ∃ out again,
        doc.encode t.dialect t.mode = .ok out ∧ decode (Text.Bytes.encode out) = .ok again) ∧
      ∀ a ∈ s.assertions, a.Holds bytes target) ∧
    r.observation.trace.map TraceEvent.stage = Observation.stages (decode bytes) target ∧
    (∀ x, r.observation.issue = some x ↔ Finding.Describes bytes x) ∧
    (r.observation.issue.isSome ↔ ∃ f, decode bytes = .error f) ∧
    (r.observation.issue.isSome → r.observation.document = none ∧ r.observation.output = none) := by
  obtain ⟨bytes', target', seen, hbytes', htarget', hseen, rfl⟩ := run_eq_ok_iff.1 hrun
  cases hbytes.symm.trans hbytes'
  cases htarget.symm.trans htarget'
  have h := Observation.reports_ofBytes hseen
  -- The verdict and the errors are updated together, so they agree after every assertion.
  have hsettled := (RunResult.settled_ofObservation seen).foldl
    (Assertion.evaluate seen target s.assertions)
  have hpass : _ ↔ _ := Bool.eq_iff_iff.1 hsettled
  rw [List.isEmpty_iff] at hpass
  refine ⟨hpass, ?_, ?_⟩
  · rw [hpass, RunResult.errors_foldl, List.append_eq_nil_iff,
      RunResult.errors_ofObservation_eq_nil_iff, unreadable_eq_none_iff h,
      Assertion.evaluate_eq_nil_iff h]
    exact and_left_comm
  · rw [RunResult.observation_foldl, RunResult.observation_ofObservation]
    refine ⟨h.stages, h.issue, h.isSome_issue_iff, fun hissue => ?_⟩
    obtain ⟨f, hf⟩ := h.isSome_issue_iff.1 hissue
    constructor
    · rw [Option.eq_none_iff_forall_ne_some]
      intro doc hdoc
      cases hf.symm.trans ((h.document doc).1 hdoc)
    · rw [Option.eq_none_iff_forall_ne_some]
      intro out hout
      obtain ⟨doc, t, hread, -⟩ := (h.output out).1 hout
      cases hf.symm.trans hread

/-- A scenario can be run if what its document is read as can be written. -/
theorem exists_run (hbytes : s.bytes files = .ok bytes) (htarget : s.target? = .ok target)
    (hwritten : ∀ doc t, decode bytes = .ok doc → target = some t →
      ∃ out, doc.encode t.dialect t.mode = .ok out) : ∃ r, s.run files = .ok r := by
  cases hseen : Observation.ofBytes bytes target with
  | error f =>
    obtain ⟨doc, t, e, hread, ht, hfails, -⟩ := Observation.exists_encode_eq_error hseen
    obtain ⟨out, hout⟩ := hwritten doc t hread ht
    cases hfails.symm.trans hout
  | ok seen => exact ⟨_, run_eq_ok_iff.2 ⟨bytes, target, seen, hbytes, htarget, hseen, rfl⟩⟩

theorem eq_ok_of_toOption {ε α : Type} {x : Except ε α} {a : α} (h : x.toOption = some a) :
    x = .ok a := by
  cases x with
  | error e => cases h
  | ok b =>
    cases h
    rfl

/-- A scenario that migrates the interface of one module. -/
def shop : Scenario where
  name := "shop"
  description := "The interface of a module becomes V4."
  document := " [\"Specs\",[[\"shop\"]],[],\x7b\"modules\":[[[[\"cart\"]],\x7b\x7d]]\x7d]\n"
  target := "Latest"
  expanded := true
  assertions := [.dialect "V3", .count "modules" 1, .count "nodes" 0, .roundTrip, .fingerprintStable,
    .outputContains "\"cart\""]

/-- The bytes of its document. -/
def shopBytes : List UInt8 :=
  Text.Bytes.encode "[\"Specs\",[[\"shop\"]],[],\x7b\"modules\":[[[[\"cart\"]],\x7b\x7d]]\x7d]"

/-- What the document becomes. -/
def shopOutput : String :=
  "\x7b\"formatVersion\":\"4.0.0\",\"distribution\":\x7b\"Specs\":\x7b\"packageName\":\"shop\"," ++
    "\"dependencies\":\x7b\x7d,\"spec\":\x7b\"modules\":\x7b" ++ "\"cart\"" ++
    ":\x7b\"types\":\x7b\x7d,\"values\":\x7b\x7d,\"doc\":\"\"\x7d\x7d\x7d\x7d\x7d\x7d"

/-- What the fingerprints of both are the digests of. -/
def shopStructure : Json :=
  .object [("formatVersion", .number "3"), ("distribution", .array [.string "Specs",
    .array [.array [.string "shop"]], .array [], .object [("modules", .array [.array
      [.array [.array [.string "cart"]],
        .object [("types", .array []), ("values", .array []), ("doc", .null)]]])]])]

theorem decode_shopBytes : ∃ doc, decode shopBytes = .ok doc ∧ doc.stats.modules = 1 ∧
    doc.stats.nodes = 0 ∧ doc.encode .v4 .expanded = .ok shopOutput ∧
    Classic.encodeDocument Classic.codec doc.bare = shopStructure := by
  have hshop : (decode shopBytes).toOption.map (fun doc => (doc.stats.modules, doc.stats.nodes,
      (doc.encode .v4 .expanded).toOption, Classic.encodeDocument Classic.codec doc.bare)) =
        some (1, 0, some shopOutput, shopStructure) := by decide +kernel
  obtain ⟨doc, hdoc, hparts⟩ := Option.map_eq_some_iff.1 hshop
  obtain ⟨hmodules, hnodes, hout, hsame⟩ : _ ∧ _ ∧ _ ∧ _ := by simpa using hparts
  exact ⟨doc, eq_ok_of_toOption hdoc, hmodules, hnodes, eq_ok_of_toOption hout, hsame⟩

theorem decode_shopOutput : ∃ again, decode (Text.Bytes.encode shopOutput) = .ok again ∧
    again.encode .v4 .expanded = .ok shopOutput ∧
    Classic.encodeDocument Classic.codec again.bare = shopStructure := by
  have hagain : (decode (Text.Bytes.encode shopOutput)).toOption.map (fun again =>
      ((again.encode .v4 .expanded).toOption, Classic.encodeDocument Classic.codec again.bare)) =
        some (some shopOutput, shopStructure) := by decide +kernel
  obtain ⟨again, hread, hparts⟩ := Option.map_eq_some_iff.1 hagain
  obtain ⟨hout, hsame⟩ : _ ∧ _ := by simpa using hparts
  exact ⟨again, eq_ok_of_toOption hread, eq_ok_of_toOption hout, hsame⟩

/-- All assertions of the scenario hold; the fingerprints are equal as they are digests of the same. -/
theorem holds_shop : ∀ a ∈ shop.assertions, a.Holds shopBytes (some ⟨.v4, .expanded⟩) := by
  obtain ⟨doc, hread, hmodules, hnodes, hout, hsame⟩ := decode_shopBytes
  obtain ⟨again, hagain, hfixed, hsame'⟩ := decode_shopOutput
  have hm : Migrates shopBytes (some ⟨.v4, .expanded⟩) doc ⟨.v4, .expanded⟩ shopOutput :=
    ⟨hread, rfl, hout⟩
  have hdetect : Dialect.detectBytes shopBytes = .ok .classic := by decide +kernel
  obtain ⟨print, hprint⟩ := AnyDocument.exists_fingerprint_of_decode hread
  have hprint' : again.fingerprint = .ok print := by
    rw [← hprint, AnyDocument.fingerprint, AnyDocument.fingerprint, hsame, hsame']
  simp only [shop, List.forall_mem_cons, Assertion.Holds]
  refine ⟨⟨.classic, rfl, hdetect⟩, ⟨[.module], doc, ?_, hread, ?_⟩,
    ⟨[.type, .pattern, .value], doc, ?_, hread, ?_⟩, ⟨doc, _, _, again, hm, hagain, hfixed⟩,
    ⟨doc, _, _, again, print, hm, hagain, hprint, hprint'⟩, ⟨doc, _, _, hm, ?_⟩,
    List.forall_mem_nil _⟩
  · simp [Assertion.countedKinds]
  · have hcount : doc.number [.module] = 1 := (Statistic.value_stats .modules doc).symm.trans hmodules
    rw [hcount, Nat.cast_one]
  · simp [Assertion.countedKinds]
  · have hcount : doc.number [.type, .pattern, .value] = 0 :=
      (Statistic.value_stats .nodes doc).symm.trans hnodes
    rw [hcount, Nat.cast_zero]
  · have hmiddle (a b c : String) : b.toList <:+: (a ++ b ++ c).toList := by
      rw [String.toList_append, String.toList_append]
      exact List.infix_append _ _ _
    exact hmiddle _ _ _

/-- A scenario whose document has a version that no dialect has. -/
def future : Scenario where
  name := "future"
  description := "There is no version nine."
  document := "\x7b\"formatVersion\":9\x7d"
  assertions := [.decodeError "UNKNOWN_FORMAT_VERSION" "/formatVersion"]

/-- The bytes of its document. -/
def futureBytes : List UInt8 := Text.Bytes.encode "\x7b\"formatVersion\":9\x7d"

/-- The first scenario passes since its assertions hold, and those of the second hold since it passes. -/
theorem shop_passes :
    (∃ r, shop.bytes {} = .ok shopBytes ∧ shop.target? = .ok (some ⟨.v4, .expanded⟩) ∧
      shop.run {} = .ok r ∧ r.pass = true ∧
      r.observation.trace.map TraceEvent.stage = [.detect, .decode, .encode, .redecode]) ∧
    ∃ r x, future.bytes {} = .ok futureBytes ∧ future.target? = .ok none ∧ future.run {} = .ok r ∧
      r.pass = true ∧ r.observation.issue = some x ∧ x.kind = "UNKNOWN_FORMAT_VERSION" ∧
      x.path = "/formatVersion" ∧ r.observation.document = none := by
  constructor
  · have hbytes : shop.bytes {} = .ok shopBytes := by rfl
    have htarget : shop.target? = .ok (some ⟨.v4, .expanded⟩) := by rfl
    obtain ⟨doc, hread, -, -, hout, -⟩ := decode_shopBytes
    obtain ⟨again, hagain, -⟩ := decode_shopOutput
    have hwritten (doc' : AnyDocument) (t : Target) (hread' : decode shopBytes = .ok doc')
        (ht : some (Target.mk .v4 .expanded) = some t) :
        doc'.encode t.dialect t.mode = .ok shopOutput := by
      cases hread.symm.trans hread'
      cases ht
      exact hout
    obtain ⟨r, hrun⟩ := exists_run hbytes htarget fun doc' t hread' ht =>
      ⟨shopOutput, hwritten doc' t hread' ht⟩
    obtain ⟨-, hpass, hstages, -⟩ := pass_iff_every_assertion_holds hbytes htarget hrun
    rw [hread] at hstages
    exact ⟨r, hbytes, htarget, hrun, hpass.2 ⟨.inl ⟨doc, hread⟩, fun doc' t hread' ht =>
      ⟨shopOutput, again, hwritten doc' t hread' ht, hagain⟩, holds_shop⟩, hstages⟩
  · have hbytes : future.bytes {} = .ok futureBytes := by rfl
    have htarget : future.target? = .ok none := by rfl
    have hpass : (future.run {}).toOption.map RunResult.pass = some true := by decide +kernel
    obtain ⟨r, hrun, hpass⟩ := Option.map_eq_some_iff.1 hpass
    have hrun := eq_ok_of_toOption hrun
    obtain ⟨-, hiff, -, hissue, -, hnothing⟩ := pass_iff_every_assertion_holds hbytes htarget hrun
    obtain ⟨-, -, hholds⟩ := hiff.1 hpass
    obtain ⟨x, hx, hkind, hpath⟩ := hholds (.decodeError "UNKNOWN_FORMAT_VERSION" "/formatVersion")
      (by simp [future])
    have hseen := (hissue x).2 hx
    refine ⟨r, x, hbytes, htarget, hrun, hpass, hseen, hkind, ?_, (hnothing (by rw [hseen]; rfl)).1⟩
    exact hpath.resolve_left (by decide)

end Scenario

end IrDialects
