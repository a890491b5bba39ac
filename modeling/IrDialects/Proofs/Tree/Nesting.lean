import IrDialects.Proofs.Tree.Conditions

/-!
# Deeply nested trees

A family of distributions whose trees are nested as deeply as one likes: the interface of a package
whose only type stands for a function that takes a function, and so on.
-/

namespace IrDialects

variable {τ ν : Type}

/-- The type of functions whose arguments are functions, `n` levels deep. -/
def TypeExpr.nested (a : τ) : Nat → TypeExpr τ
  | 0 => .unit a
  | n + 1 => .function a (nested a n) (.unit a)

/-- A distribution with one type, nested `n` levels deep. -/
def Distribution.nested (a : τ) (n : Nat) : Distribution τ ν :=
  .specs ⟨[]⟩ [] ⟨[⟨⟨[]⟩, ⟨[⟨⟨[]⟩, "", .synonym [] (.nested a n)⟩], [], ""⟩⟩]⟩

variable {P : Conditions τ ν} {a : τ}

theorem TypeExpr.satisfies_nested (ha : P.typeAttrs a) (n : Nat) : (nested a n).Satisfies P := by
  induction n with
  | zero => exact .unit ha
  | succ n ih => exact .function ha ih (.unit ha)

theorem Distribution.satisfies_nested (ha : P.typeAttrs a) (hn : ∀ n : Name, n.words = [] → P.name n)
    (hp : ∀ p : Path, p.names = [] → P.path p) (hns : ∀ ns : List Name, ns.Nodup → P.names ns)
    (hps : ∀ ps : List Path, ps.Nodup → P.paths ps) (n : Nat) :
    (nested a n : Distribution τ ν).Satisfies P := by
  refine .specs (hp _ rfl) ⟨⟨by simp, hps _ (by simp)⟩, by simp⟩ ⟨⟨?_, hps _ (by simp)⟩, ?_⟩
  · simpa using hp ⟨[]⟩ rfl
  · simp only [List.mem_singleton, forall_eq]
    refine ⟨⟨?_, hns _ (by simp)⟩, ?_, ⟨by simp, hns _ (by simp)⟩, by simp⟩
    · simpa using hn ⟨[]⟩ rfl
    · simp only [List.mem_singleton, forall_eq]
      exact .synonym (by simp) (TypeExpr.satisfies_nested ha n)

end IrDialects
