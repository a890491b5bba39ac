import IrDialects.Text.Units
import Mathlib.Data.List.Basic

/-!
# The order of code units

A text is determined by its UTF-16 code units: units of characters beyond the basic plane are
surrogates, and no character is one. So the order by code units is a total order of texts.
-/

namespace IrDialects.Text.Units

theorem le_nil {xs : List Nat} : le xs [] = true ↔ xs = [] := by
  cases xs <;> simp [le]

theorem le_cons {x y : Nat} {xs ys : List Nat} :
    le (x :: xs) (y :: ys) = true ↔ x < y ∨ x = y ∧ le xs ys = true := by
  simp [le]

theorem le_trans {xs ys zs : List Nat} (hxy : le xs ys) (hyz : le ys zs) : le xs zs := by
  induction xs generalizing ys zs with
  | nil => rfl
  | cons x xs ih =>
    cases ys with
    | nil => cases le_nil.1 hxy
    | cons y ys =>
      cases zs with
      | nil => cases le_nil.1 hyz
      | cons z zs =>
        rw [le_cons] at *
        rcases hxy with hlt | ⟨rfl, hxy⟩
        · rcases hyz with hlt' | ⟨rfl, -⟩
          · exact .inl (Nat.lt_trans hlt hlt')
          · exact .inl hlt
        · rcases hyz with hlt' | ⟨rfl, hyz⟩
          · exact .inl hlt'
          · exact .inr ⟨rfl, ih hxy hyz⟩

theorem le_total (xs ys : List Nat) : le xs ys = true ∨ le ys xs = true := by
  induction xs generalizing ys with
  | nil => exact .inl rfl
  | cons x xs ih =>
    cases ys with
    | nil => exact .inr rfl
    | cons y ys =>
      rw [le_cons, le_cons]
      rcases Nat.lt_trichotomy x y with hlt | rfl | hlt
      · exact .inl (.inl hlt)
      · rcases ih ys with h | h
        · exact .inl (.inr ⟨rfl, h⟩)
        · exact .inr (.inr ⟨rfl, h⟩)
      · exact .inr (.inl hlt)

theorem le_antisymm {xs ys : List Nat} (hxy : le xs ys) (hyx : le ys xs) : xs = ys := by
  induction xs generalizing ys with
  | nil => exact (le_nil.1 hyx).symm
  | cons x xs ih =>
    cases ys with
    | nil => cases le_nil.1 hxy
    | cons y ys =>
      rw [le_cons] at hxy hyx
      rcases hxy with hlt | ⟨rfl, hxy⟩
      · omega
      · rcases hyx with hlt | ⟨-, hyx⟩
        · omega
        · rw [ih hxy hyx]

theorem toNat_valid (c : Char) : c.toNat < 0xD800 ∨ 0xDFFF < c.toNat ∧ c.toNat < 0x110000 := c.valid

/-- The first character and what follows it are determined by the code units. -/
theorem ofChar_append_inj {c d : Char} {xs ys : List Nat} (h : ofChar c ++ xs = ofChar d ++ ys) :
    c = d ∧ xs = ys := by
  have hc := toNat_valid c
  have hd := toNat_valid d
  by_cases hsmall : c.toNat < 0x10000 <;> by_cases hsmall' : d.toNat < 0x10000
  · simp only [ofChar, if_pos hsmall, if_pos hsmall', List.singleton_append, List.cons.injEq] at h
    exact ⟨Char.toNat_inj.1 h.1, h.2⟩
  · -- The unit of `c` would be the first half of a pair.
    simp only [ofChar, if_pos hsmall, if_neg hsmall', List.cons_append, List.nil_append,
      List.cons.injEq] at h
    omega
  · simp only [ofChar, if_neg hsmall, if_pos hsmall', List.cons_append, List.nil_append,
      List.cons.injEq] at h
    omega
  · simp only [ofChar, if_neg hsmall, if_neg hsmall', List.cons_append, List.nil_append,
      List.cons.injEq] at h
    obtain ⟨hhigh, hlow, hrest⟩ := h
    exact ⟨Char.toNat_inj.1 (by omega), hrest⟩

theorem ofChar_ne_nil (c : Char) : ofChar c ≠ [] := by
  rw [ofChar]
  split <;> simp

theorem ofText_injective : Function.Injective ofText := by
  have key : ∀ cs ds : List Char, cs.flatMap ofChar = ds.flatMap ofChar → cs = ds := by
    intro cs
    induction cs with
    | nil =>
      intro ds h
      cases ds with
      | nil => rfl
      | cons d ds => simp [ofChar_ne_nil] at h
    | cons c cs ih =>
      intro ds h
      cases ds with
      | nil => simp [ofChar_ne_nil] at h
      | cons d ds =>
        obtain ⟨rfl, hrest⟩ := ofChar_append_inj h
        rw [ih ds hrest]
  intro s t h
  exact String.toList_injective (key s.toList t.toList h)

theorem textLe_trans (a b c : String) (hab : textLe a b) (hbc : textLe b c) : textLe a c :=
  le_trans hab hbc

theorem textLe_total (a b : String) : textLe a b || textLe b a :=
  Bool.or_eq_true_iff.2 (le_total (ofText a) (ofText b))

theorem textLe_antisymm {a b : String} (hab : textLe a b) (hba : textLe b a) : a = b :=
  ofText_injective (le_antisymm hab hba)

end IrDialects.Text.Units
