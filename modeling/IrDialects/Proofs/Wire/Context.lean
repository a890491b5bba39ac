import IrDialects.Wire.Issue

/-!
# What becomes of an issue on its way out

Every step that a fault takes out of a document keeps the complaint, and path and tag follow the steps.
The steps are told a second time for faults that refer to their issues: a store lists the issues made so
far, and several faults may share one. There a step adds to the store and changes nothing in it, and
what a fault refers to is what it is by itself.
-/

namespace IrDialects

section Steps

namespace ContextStep

/-- The segment that a step puts in front of a path. -/
def segment? : ContextStep → Option String
  | under segment => some segment
  | _ => none

/-- The tag of the node that a step leaves. -/
def enclosing? : ContextStep → Option String
  | tagged tag => some tag
  | _ => none

/-- The tag after a step: a new one replaces it, that of the node around only an empty one. -/
def retag : ContextStep → String → String
  | tagged tag, own => if own.isEmpty then tag else own
  | withTag tag, _ => tag
  | _, own => own

/-- An issue after a step. -/
def onIssue : ContextStep → Issue → Issue
  | under segment => Issue.under segment
  | tagged tag => Issue.tagged tag
  | withTag tag => Issue.withTag tag
  | wrapped _ => id

theorem onIssue_eq (step : ContextStep) (e : Issue) :
    step.onIssue e = ⟨e.complaint, step.segment?.toList ++ e.path, step.retag e.tag⟩ := by
  cases step with
  | under segment => rfl
  | tagged tag =>
    rw [onIssue, Issue.tagged, retag]
    split <;> rfl
  | withTag tag => rfl
  | wrapped context => rfl

end ContextStep

/-- An issue after steps, the first of which comes first. -/
def Issue.after (e : Issue) (steps : List ContextStep) : Issue :=
  steps.foldl (fun e step => step.onIssue e) e

theorem Issue.after_eq (e : Issue) (steps : List ContextStep) :
    e.after steps = ⟨e.complaint, (steps.filterMap ContextStep.segment?).reverse ++ e.path,
      steps.foldl (fun own step => step.retag own) e.tag⟩ := by
  induction steps generalizing e with
  | nil => rfl
  | cons step steps ih =>
    have hstep : e.after (step :: steps) = (step.onIssue e).after steps := rfl
    rw [hstep, ih, ContextStep.onIssue_eq, List.filterMap_cons]
    cases step.segment? with
    | none => rfl
    | some segment =>
      rw [List.reverse_cons, List.append_assoc]
      rfl

/-- Without a step that sets the tag, an issue keeps its tag or gets that of the first node around it
that has one. -/
theorem ContextStep.foldl_retag {steps : List ContextStep} (h : ∀ tag, withTag tag ∉ steps)
    (own : String) : steps.foldl (fun own step => step.retag own) own =
      ((own :: steps.filterMap enclosing?).find? fun tag => !tag.isEmpty).getD "" := by
  induction steps generalizing own with
  | nil =>
    rw [List.foldl_nil, List.filterMap_nil, List.find?_cons]
    cases hown : own.isEmpty with
    | false => rfl
    | true => exact String.isEmpty_iff.1 hown
  | cons step steps ih =>
    have hsteps : ∀ tag, withTag tag ∉ steps := fun tag hmem => h tag (List.mem_cons_of_mem _ hmem)
    rw [List.foldl_cons, ih hsteps, List.filterMap_cons]
    cases step with
    | under segment => rfl
    | wrapped context => rfl
    | withTag tag => exact absurd (List.mem_cons_self ..) (h tag)
    | tagged tag =>
      simp only [retag, enclosing?]
      cases hown : own.isEmpty with
      | false => simp [hown]
      | true => simp [hown]

end Steps

namespace Fault

theorem issue?_apply (step : ContextStep) (f : Fault) :
    (step.apply f).issue? = f.issue?.map step.onIssue := by
  cases step with
  | wrapped context =>
    rw [ContextStep.onIssue, Option.map_id_apply]
    rfl
  | under segment =>
    rw [ContextStep.apply, under]
    cases h : f.issue? with
    | none => exact h
    | some e => rfl
  | withTag tag =>
    rw [ContextStep.apply, withTag]
    cases h : f.issue? with
    | none => exact h
    | some e => rfl
  | tagged tag =>
    rw [ContextStep.apply, tagged]
    cases h : f.issue? with
    | none => exact h
    | some e =>
      change (if e.tag.isEmpty then issue (e.withTag tag) else f).issue? =
        some (if e.tag.isEmpty then e.withTag tag else e)
      split
      · rfl
      · exact h

theorem issue?_after (f : Fault) (steps : List ContextStep) :
    (f.after steps).issue? = f.issue?.map (·.after steps) := by
  induction steps generalizing f with
  | nil => exact (Option.map_id_apply ..).symm
  | cons step steps ih =>
    have hstep : f.after (step :: steps) = (step.apply f).after steps := rfl
    rw [hstep, ih, issue?_apply, Option.map_map]
    rfl

end Fault

/-- The issues made so far. An issue is referred to by its index. -/
abbrev IssueStore := List Issue

/-- A fault that refers to its issue. -/
inductive FaultRef where
  | issue (address : Nat)
  | plain (text : String)
  | wrapped (context : String) (cause : FaultRef)

namespace FaultRef

/-- The issue at the bottom of a fault. -/
def issue? (s : IssueStore) : FaultRef → Option Issue
  | issue address => s[address]?
  | plain _ => none
  | wrapped _ cause => cause.issue? s

/-- The fault by itself, if its issue is in the store. -/
def fault? (s : IssueStore) : FaultRef → Option Fault
  | issue address => s[address]?.map .issue
  | plain text => some (.plain text)
  | wrapped context cause => (cause.fault? s).map (.wrapped context)

/-- A fault that refers to a new issue. -/
def new (e : Issue) (s : IssueStore) : FaultRef × IssueStore := (issue s.length, s ++ [e])

/-- A fault after a step. An issue is never written to: where the step changes it, a new one is made. -/
def apply (step : ContextStep) (f : FaultRef) (s : IssueStore) : FaultRef × IssueStore :=
  match step, f.issue? s with
  | .under segment, some e => new (e.under segment) s
  | .under segment, none => (wrapped segment f, s)
  | .tagged tag, some e => if e.tag.isEmpty then new (e.withTag tag) s else (f, s)
  | .withTag tag, some e => new (e.withTag tag) s
  | .wrapped context, _ => (wrapped context f, s)
  | _, none => (f, s)

/-- A fault after steps, the first of which comes first. -/
def after : List ContextStep → FaultRef → IssueStore → FaultRef × IssueStore
  | [], f, s => (f, s)
  | step :: steps, f, s => after steps (f.apply step s).1 (f.apply step s).2

variable (f : FaultRef) (s : IssueStore)

theorem issue?_eq_bind : f.issue? s = (f.fault? s).bind Fault.issue? := by
  induction f with
  | issue address =>
    rw [issue?, fault?]
    cases s[address]? <;> rfl
  | plain text => rfl
  | wrapped context cause ih =>
    rw [issue?, fault?, ih]
    cases cause.fault? s <;> rfl

theorem fault?_new (e : Issue) : (new e s).1.fault? (new e s).2 = some (.issue e) := by
  rw [new, fault?, List.getElem?_concat_length]
  rfl

theorem prefix_new (e : Issue) : s <+: (new e s).2 := List.prefix_append s [e]

theorem prefix_apply (step : ContextStep) : s <+: (f.apply step s).2 := by
  have hself : s <+: s := List.prefix_rfl
  cases hissue : f.issue? s with
  | none => cases step <;> simpa only [apply, hissue] using hself
  | some e =>
    cases step with
    | under segment => simpa only [apply, hissue] using prefix_new s (e.under segment)
    | withTag tag => simpa only [apply, hissue] using prefix_new s (e.withTag tag)
    | wrapped context => simpa only [apply, hissue] using hself
    | tagged tag =>
      simp only [apply, hissue]
      split
      · exact prefix_new s _
      · exact hself

theorem fault?_apply (step : ContextStep) :
    (f.apply step s).1.fault? (f.apply step s).2 = (f.fault? s).map step.apply := by
  -- both have the same issue and so take the same branch
  have hissue := issue?_eq_bind f s
  cases hf : f.fault? s with
  | none =>
    rw [hf, Option.bind_none] at hissue
    cases step <;> simp [apply, hissue, fault?, hf]
  | some fault =>
    rw [hf, Option.bind_some] at hissue
    cases he : fault.issue? with
    | none =>
      rw [he] at hissue
      cases step <;>
        simp [apply, hissue, fault?, hf, he, ContextStep.apply, Fault.under, Fault.tagged, Fault.withTag]
    | some e =>
      rw [he] at hissue
      cases step with
      | under segment => simp [apply, hissue, fault?_new, he, ContextStep.apply, Fault.under]
      | withTag tag => simp [apply, hissue, fault?_new, he, ContextStep.apply, Fault.withTag]
      | wrapped context => simp [apply, fault?, hf, ContextStep.apply]
      | tagged tag =>
        by_cases htag : e.tag.isEmpty
        · simp [apply, hissue, fault?_new, he, htag, ContextStep.apply, Fault.tagged]
        · simp [apply, hissue, hf, he, htag, ContextStep.apply, Fault.tagged]

theorem prefix_after (steps : List ContextStep) : s <+: (f.after steps s).2 := by
  induction steps generalizing f s with
  | nil => exact List.prefix_rfl
  | cons step steps ih => exact (prefix_apply f s step).trans (ih _ _)

theorem fault?_after (steps : List ContextStep) :
    (f.after steps s).1.fault? (f.after steps s).2 = (f.fault? s).map (·.after steps) := by
  induction steps generalizing f s with
  | nil => exact (Option.map_id_apply ..).symm
  | cons step steps ih =>
    rw [after, ih, fault?_apply, Option.map_map]
    rfl

end FaultRef

/-- Whatever steps a fault takes, its issue keeps the complaint; the path begins with the segments of
the steps, the last of them first, and the tag is that of the last step that sets it or else the first
one that is not empty. A fault without an issue never gets one. No issue that was made before the steps
is changed by them, also if others refer to it. -/
theorem Fault.context_accumulates (steps : List ContextStep) :
    (∀ f : Fault, (f.after steps).issue? = f.issue?.map fun e =>
      { complaint := e.complaint
        path := (steps.filterMap ContextStep.segment?).reverse ++ e.path
        tag := steps.foldl (fun own step => step.retag own) e.tag }) ∧
    ((∀ tag, ContextStep.withTag tag ∉ steps) → ∀ own,
      steps.foldl (fun own step => step.retag own) own =
        ((own :: steps.filterMap ContextStep.enclosing?).find? fun tag => !tag.isEmpty).getD "") ∧
    ∀ (f : FaultRef) (s : IssueStore), s <+: (f.after steps s).2 ∧
      (f.after steps s).1.fault? (f.after steps s).2 = (f.fault? s).map (·.after steps) := by
  refine ⟨fun f => ?_, ContextStep.foldl_retag, fun f s => ?_⟩
  · rw [issue?_after]
    exact congrArg (Option.map · f.issue?) (funext fun e => e.after_eq steps)
  · exact ⟨f.prefix_after s steps, f.fault?_after s steps⟩

end IrDialects
