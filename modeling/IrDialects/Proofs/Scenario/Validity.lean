import IrDialects.Proofs.Scenario.Verdict
import IrDialects.Scenario.Validation

/-!
# Valid scenarios

What is checked of a scenario before it is run is what running it relies on: its target and the names
in its assertions mean something, what it says about the output has an output to speak of, and the
expanded form is asked for only where there is one.
-/

namespace IrDialects

/-- Whether a refutation is about the assertion itself, whatever the document. -/
def Refutation.blamesAssertion : Refutation → Bool
  | badDialect _ | unknownField _ | unknownType _ => true
  | mismatch .. | failure _ => false

theorem isIssueCode_iff {s : String} : isIssueCode s = true ↔ ∃ kind : IssueKind, kind.code = s := by
  simp only [isIssueCode, List.any_eq_true, beq_iff_eq]
  constructor
  · rintro ⟨kind, -, rfl⟩
    exact ⟨kind, rfl⟩
  · rintro ⟨kind, rfl⟩
    exact ⟨kind, by cases kind <;> simp, rfl⟩

namespace Assertion

variable {a : Assertion} {as : List Assertion} {hasTarget : Bool} {seen : Observation}
  {target : Option Target} {r : Refutation}

/-- The type of an assertion exists and the names in it mean something. -/
def Meaningful : Assertion → Prop
  | dialect name => ∃ d, Dialect.parse? name = some d
  | decodeError kind _ => ∃ k : IssueKind, k.code = kind
  | roundTrip | fingerprintStable => True
  | count field value => (∃ stat, Statistic.ofName? field = some stat) ∧ 0 ≤ value
  | outputContains text => text ≠ ""
  | unknown _ => False

/-- The assertions that are accepted are the meaningful ones for which there is a target if they need
one. -/
theorem problem?_eq_none_iff :
    a.problem? hasTarget = none ↔ (a.needsTarget = true → hasTarget = true) ∧ a.Meaningful := by
  cases a with
  | dialect name => simp [problem?, type, needsTarget, Meaningful, Option.isSome_iff_exists]
  | decodeError kind path => simp [problem?, type, needsTarget, Meaningful, isIssueCode_iff]
  | roundTrip | fingerprintStable => simp [problem?, type, needsTarget, Meaningful]
  | count field value =>
    cases hstat : Statistic.ofName? field <;>
      simp [problem?, type, needsTarget, Meaningful, hstat]
  | outputContains text => cases hasTarget <;> simp [problem?, type, needsTarget, Meaningful]
  | unknown t =>
    by_cases ht : t = "" <;> simp [problem?, type, needsTarget, Meaningful, ht]

section Output

/-- Whether what becomes of an assertion depends on the output. -/
def InspectsOutput (a : Assertion) : Prop :=
  ∃ (seen : Observation) (output : Option String) (target : Option Target),
    a.refute { seen with output := output } target ≠ a.refute seen target

/-- The empty text is no document. -/
theorem outputDocument_empty :
    outputDocument "" = .error (.mismatch "output decodes"
      "DETECT_FAILED: cannot detect IR dialect: invalid JSON") := by
  have hparse : Json.parseBytes (Text.Bytes.encode "") = .error .invalid := by
    rw [Json.parseBytes, Text.Bytes.decodeFrom_encode]
    rfl
  rw [outputDocument, AnyDocument.decode, hparse]
  rfl

/-- The assertions that need a target are those that look at the output. -/
theorem inspectsOutput_iff : a.InspectsOutput ↔ a.needsTarget = true := by
  cases a with
  | roundTrip =>
    refine iff_of_true ⟨{ trace := [] }, some "", some ⟨.v4, .compact⟩, ?_⟩ rfl
    simp [refute, refuteRoundTrip, outputDocument_empty, missing]
  | fingerprintStable =>
    refine iff_of_true ⟨{ trace := [], document := some (.classic ⟨.defaultClassic, .nested {} 0⟩) },
      some "", none, ?_⟩ rfl
    simp [refute, refuteFingerprint, outputDocument_empty, missing]
  | outputContains text =>
    refine iff_of_true ⟨{ trace := [] }, some text, none, ?_⟩ rfl
    simp [refute, refuteContains, Text.contains, Text.occursIn_iff, demand]
  | _ =>
    refine iff_of_false ?_ (by simp [needsTarget])
    rintro ⟨seen, output, target, hne⟩
    exact hne rfl

end Output

section Blames

theorem blamesAssertion_demand {holds : Bool} {expected actual : String}
    (h : demand holds expected actual = some r) : r.blamesAssertion = false := by
  rw [demand] at h
  split at h
  · cases h
  · cases h
    rfl

theorem blamesAssertion_outputDocument {out : String} (h : outputDocument out = .error r) :
    r.blamesAssertion = false := by
  rw [outputDocument] at h
  cases hread : AnyDocument.decode (Text.Bytes.encode out) with
  | error f =>
    rw [hread] at h
    cases h
    rfl
  | ok doc =>
    rw [hread] at h
    cases h

theorem blamesAssertion_refuteRoundTrip (h : refuteRoundTrip seen target = some r) :
    r.blamesAssertion = false := by
  rw [refuteRoundTrip.eq_def] at h
  split at h
  · split at h
    · rename_i r' hout
      cases h
      exact blamesAssertion_outputDocument hout
    · split at h
      · cases h
        rfl
      · exact blamesAssertion_demand h
  · cases h
    rfl

theorem blamesAssertion_refuteFingerprint (h : refuteFingerprint seen = some r) :
    r.blamesAssertion = false := by
  rw [refuteFingerprint.eq_def] at h
  split at h
  · split at h
    · rename_i r' hout
      cases h
      exact blamesAssertion_outputDocument hout
    · split at h
      · cases h
        rfl
      · cases h
        rfl
      · exact blamesAssertion_demand h
  · cases h
    rfl

/-- A meaningful assertion is refuted by the document, never for what it says. -/
theorem Meaningful.blamesAssertion_eq_false (ha : a.Meaningful) (h : a.refute seen target = some r) :
    r.blamesAssertion = false := by
  -- An assertion is blamed for a name that stands for nothing, and a meaningful one has none.
  cases a with
  | dialect name =>
    obtain ⟨want, hwant⟩ := ha
    simp only [refute, refuteDialect, hwant] at h
    exact blamesAssertion_demand h
  | decodeError kind path =>
    simp only [refute, refuteDecodeError] at h
    split at h
    · cases h
      rfl
    · exact blamesAssertion_demand h
  | roundTrip => exact blamesAssertion_refuteRoundTrip h
  | fingerprintStable => exact blamesAssertion_refuteFingerprint h
  | count field value =>
    obtain ⟨⟨stat, hstat⟩, -⟩ := ha
    simp only [refute, refuteCount, hstat] at h
    split at h
    · cases h
      rfl
    · split at h
      · cases h
        rfl
      · exact blamesAssertion_demand h
  | outputContains text =>
    simp only [refute, refuteContains] at h
    split at h
    · cases h
      rfl
    · exact blamesAssertion_demand h
  | unknown type => exact ha.elim

/-- Each message is about an assertion of the list, at its index. -/
theorem exists_refute_of_mem_messages {start : Nat} {e : String}
    (h : e ∈ messages seen target start as) :
    ∃ i a r, as[i]? = some a ∧ a.refute seen target = some r ∧
      e = "assertion " ++ toString (start + i) ++ " (" ++ a.type ++ "): "
        ++ r.message a.type seen.trace := by
  induction as generalizing start with
  | nil => cases h
  | cons a as ih =>
    rw [messages] at h
    have later : e ∈ messages seen target (start + 1) as → ∃ i b r, (a :: as)[i]? = some b ∧
        b.refute seen target = some r ∧ e = "assertion " ++ toString (start + i) ++ " (" ++ b.type
          ++ "): " ++ r.message b.type seen.trace := by
      intro hmem
      obtain ⟨i, b, r, hi, hr, rfl⟩ := ih hmem
      exact ⟨i + 1, b, r, by simpa using hi, hr, by rw [Nat.add_right_comm, Nat.add_assoc]⟩
    cases hr : a.refute seen target with
    | none =>
      rw [hr] at h
      exact later h
    | some r =>
      rw [hr] at h
      obtain rfl | h := List.mem_cons.1 h
      · exact ⟨0, a, r, rfl, hr, rfl⟩
      · exact later h

/-- An error is about the document: it cannot be read, or what it is read as refutes an assertion. -/
def ConcernsDocument (as : List Assertion) (seen : Observation) (target : Option Target)
    (e : String) : Prop :=
  (∃ f, seen.issue = some f ∧ e = "unexpected decode failure: " ++ findingText f) ∨
  ∃ (i : Nat) (a : Assertion) (r : Refutation), as[i]? = some a ∧ a.refute seen target = some r ∧
    r.blamesAssertion = false ∧
    e = "assertion " ++ toString i ++ " (" ++ a.type ++ "): " ++ r.message a.type seen.trace

/-- The errors of meaningful assertions are about the document. -/
theorem concernsDocument_of_mem_evaluate (has : ∀ a ∈ as, a.Meaningful) {e : String}
    (h : e ∈ evaluate seen target as) : ConcernsDocument as seen target e := by
  rw [evaluate] at h
  obtain h | h := List.mem_append.1 h
  · left
    split at h
    · rename_i f hf
      split_ifs at h
      · cases h
      · exact ⟨f, hf, List.mem_singleton.1 h⟩
    · cases h
  · obtain ⟨i, a, r, hi, hr, rfl⟩ := exists_refute_of_mem_messages h
    have ha := has a (List.mem_of_getElem? hi)
    exact .inr ⟨i, a, r, hi, hr, ha.blamesAssertion_eq_false hr, by rw [Nat.zero_add]⟩

end Blames

end Assertion

namespace Scenario

variable {s : Scenario} {inputExists : String → Bool}

theorem assertionProblem?_eq_none_iff {hasTarget : Bool} {i : Nat} {as : List Assertion} :
    assertionProblem? hasTarget i as = none ↔ ∀ a ∈ as, a.problem? hasTarget = none := by
  induction as generalizing i with
  | nil => simp [assertionProblem?]
  | cons a as ih =>
    rw [assertionProblem?, List.forall_mem_cons]
    cases a.problem? hasTarget with
    | none => simp [ih]
    | some p => simp

/-- What is checked of a target: it is a dialect, and V4 if the expanded form is asked for. -/
theorem exists_target?_of_targetProblem? (h : s.targetProblem? = none) :
    ∃ target, s.target? = .ok target ∧ (s.target.isEmpty = false → target.isSome = true) ∧
      ∀ t, target = some t →
        (t.mode = .expanded ↔ s.expanded = true) ∧ (t.mode = .expanded → t.dialect = .v4) := by
  rw [targetProblem?] at h
  cases htarget : s.target.isEmpty with
  | true => exact ⟨none, by simp [target?, htarget], by simp, by simp⟩
  | false =>
    simp only [htarget] at h
    cases hd : Dialect.parse? s.target with
    | none => simp [hd] at h
    | some d =>
      have hv4 : s.expanded = true → d = .v4 := by simpa [hd] using h
      refine ⟨some ⟨d, if s.expanded then .expanded else .compact⟩,
        by simp [target?, htarget, hd], fun _ => rfl, ?_⟩
      rintro t ⟨⟩
      cases hexpanded : s.expanded with
      | false => simp
      | true => simp [hv4 hexpanded]

/-- The parts of a scenario that was accepted have no problem. -/
theorem parts_of_problem?_eq_none (h : s.problem? inputExists = none) : s.targetProblem? = none ∧
    ∀ a ∈ s.assertions, a.problem? (!s.target.isEmpty) = none := by
  rw [problem?] at h
  cases htarget : s.targetProblem? with
  | some p =>
    simp only [htarget] at h
    split_ifs at h
  | none =>
    simp only [htarget] at h
    split_ifs at h
    exact ⟨rfl, assertionProblem?_eq_none_iff.1 h⟩

/-- The assertions of a scenario that was accepted are meaningful, and there is a target if they look at
the output. -/
theorem assertions_of_problem?_eq_none (h : s.problem? inputExists = none) {a : Assertion}
    (ha : a ∈ s.assertions) : a.Meaningful ∧ (a.InspectsOutput → s.target.isEmpty = false) := by
  obtain ⟨-, hassertions⟩ := parts_of_problem?_eq_none h
  obtain ⟨hneeds, hmeaningful⟩ := Assertion.problem?_eq_none_iff.1 (hassertions a ha)
  refine ⟨hmeaningful, fun houtput => ?_⟩
  simpa using hneeds (Assertion.inspectsOutput_iff.1 houtput)

/-- A run complains about the target only if the target is no dialect. -/
theorem run_ne_target {files : FileTree} {name : String} {target : Option Target}
    (htarget : s.target? = .ok target) : s.run files ≠ .error (.target name) := by
  rw [run, htarget]
  cases s.bytes files with
  | error f => simp [Except.mapError, bind, Except.bind]
  | ok bytes =>
    cases hseen : Observation.ofBytes bytes target with
    | error f =>
      obtain ⟨doc, t, e, -, -, -, rfl⟩ := Observation.exists_encode_eq_error hseen
      simp [Except.mapError, bind, Except.bind, hseen]
    | ok seen => simp [Except.mapError, bind, Except.bind, hseen, pure, Except.pure]

/-- A scenario that was accepted is run as it says: its target is a dialect, no assertion is blamed for
what it says, what looks at the output has a target, and the expanded form is written in V4 only. -/
theorem accepted_scenarios_are_understood (h : s.problem? inputExists = none) :
    (∀ files name, s.run files ≠ .error (.target name)) ∧
    (∀ a ∈ s.assertions, ∀ seen target r, Assertion.refute seen target a = some r →
      r.blamesAssertion = false) ∧
    ∃ target, s.target? = .ok target ∧
      (∀ a ∈ s.assertions, a.InspectsOutput → target.isSome = true) ∧
      (∀ t, target = some t → (t.mode = .expanded ↔ s.expanded = true) ∧
        (t.mode = .expanded → t.dialect = .v4)) ∧
      ∀ files r, s.run files = .ok r → ∃ bytes, s.bytes files = .ok bytes ∧
        Observation.ofBytes bytes target = .ok r.observation ∧
        r.errors = (RunResult.ofObservation r.observation).errors
          ++ Assertion.evaluate r.observation target s.assertions ∧
        ∀ e ∈ Assertion.evaluate r.observation target s.assertions,
          Assertion.ConcernsDocument s.assertions r.observation target e := by
  obtain ⟨target, htarget, hsome, hmode⟩ :=
    exists_target?_of_targetProblem? (parts_of_problem?_eq_none h).1
  have hmeaningful : ∀ a ∈ s.assertions, a.Meaningful :=
    fun a ha => (assertions_of_problem?_eq_none h ha).1
  refine ⟨fun files name => run_ne_target htarget,
    fun a ha seen target r hr => (hmeaningful a ha).blamesAssertion_eq_false hr, target, htarget,
    fun a ha houtput => hsome ((assertions_of_problem?_eq_none h ha).2 houtput), hmode, ?_⟩
  intro files r hrun
  obtain ⟨bytes, target', seen, hbytes, htarget', hseen, rfl⟩ := run_eq_ok_iff.1 hrun
  cases htarget.symm.trans htarget'
  refine ⟨bytes, hbytes, ?_⟩
  rw [RunResult.errors_foldl, RunResult.observation_foldl, RunResult.observation_ofObservation]
  exact ⟨hseen, rfl, fun e he => Assertion.concernsDocument_of_mem_evaluate hmeaningful he⟩

theorem shop_is_understood : shop.problem? (fun _ => false) = none ∧
    (∀ files name, shop.run files ≠ .error (.target name)) ∧
    ∃ t, shop.target? = .ok (some t) ∧ t.mode = .expanded ∧ t.dialect = .v4 := by
  have hvalid : shop.problem? (fun _ => false) = none := by decide +kernel
  obtain ⟨hrun, -, target, htarget, hsome, hmode, -⟩ := accepted_scenarios_are_understood hvalid
  refine ⟨hvalid, hrun, ?_⟩
  have houtput : Assertion.roundTrip.InspectsOutput := Assertion.inspectsOutput_iff.2 rfl
  obtain ⟨t, rfl⟩ := Option.isSome_iff_exists.1 (hsome .roundTrip (by simp [shop]) houtput)
  obtain ⟨hexpanded, hv4⟩ := hmode t rfl
  exact ⟨t, htarget, hexpanded.2 rfl, hv4 (hexpanded.2 rfl)⟩

end Scenario

end IrDialects
