import IrDialects.Json.Writer
import Mathlib.Data.List.Basic

/-!
# Strings between quotation marks

A string is written character by character, each for itself or as an escape, and reading what stands
between the quotation marks gives the string back.
-/

namespace IrDialects.Json

open Text

namespace Reader

theorem hexValue?_hexDigit (n : Nat) : Bytes.hexValue? (Quoted.hexDigit n) = some (n % 16) := by
  have h : ∀ m < 16, Bytes.hexValue? (Nat.digitChar m) = some m := by decide
  exact h (n % 16) (Nat.mod_lt n (by omega))

/-- Four digits of base sixteen spell the code unit they are made from. -/
theorem unit?_hex {n : Nat} (h : n < 0x10000) :
    ∃ a b c d, Quoted.hex 4 n = [a, b, c, d] ∧ unit? a b c d = some n := by
  refine ⟨_, _, _, _, rfl, ?_⟩
  simp only [unit?, hexValue?_hexDigit, Option.pure_def, Option.bind_eq_bind, Option.bind_some,
    Option.some.injEq]
  omega

/-- A code unit that is no half of a pair stands for its character, whatever follows. -/
theorem assemble_unit {u : Nat} (hh : isHigh u = false) (hl : isLow u = false) (ps : List Piece) :
    assemble (.unit u :: ps) = Char.ofNat u :: assemble ps := by
  have hlone : loneUnit u = Char.ofNat u := by simp [loneUnit, hh, hl]
  cases ps with
  | nil => simp [assemble, hlone]
  | cons p ps => cases p <;> simp [assemble, hlone, hh]

/-- An escape with a letter of its own. -/
theorem pieces?_escaped (g : Grammar) {e c : Char} (h : escaped? e = some c) (tail : List Char) :
    pieces? g ('\\' :: e :: tail) = (pieces? g tail).map fun r => (.char c :: r.1, r.2) := by
  have hu : e ≠ 'u' := by
    rintro rfl
    cases h
  rw [pieces?]
  · rw [h]
    cases pieces? g tail <;> rfl
  · rintro _ _ _ _ _ rfl _
    exact hu rfl

/-- An escape of a code unit. -/
theorem pieces?_unit (g : Grammar) {a b c d : Char} {u : Nat} (h : unit? a b c d = some u)
    (tail : List Char) :
    pieces? g ('\\' :: 'u' :: a :: b :: c :: d :: tail) =
      (pieces? g tail).map fun r => (.unit u :: r.1, r.2) := by
  rw [pieces?, h]
  cases pieces? g tail <;> rfl

/-- A character that stands for itself. -/
theorem pieces?_plain (g : Grammar) {c : Char} (hq : c ≠ '"') (hb : c ≠ '\\')
    (hc : ¬ c.toNat < 0x20) (tail : List Char) :
    pieces? g (c :: tail) = (pieces? g tail).map fun r => (.char c :: r.1, r.2) := by
  rw [pieces?]
  · have hraw : (decide (c.toNat < 0x20) && !g.rawControls) = false := by simp [hc]
    rw [hraw]
    cases pieces? g tail <;> rfl
  · exact hq
  · intro _ _ _ _ _ h _
    exact hb h
  · intro _ _ h _
    exact hb h

end Reader

namespace Writer

open Reader

/-- A written character is read as one piece, and that piece stands for the character. -/
theorem exists_piece (g : Grammar) (st : Style) (c : Char) :
    ∃ p : Piece, (∀ ps, assemble (p :: ps) = c :: assemble ps) ∧
      ∀ tail, pieces? g (escapeChar st c ++ tail) =
        (pieces? g tail).map fun r => (p :: r.1, r.2) := by
  have letter {e : Char} (he : escaped? e = some c) :
      ∃ p : Piece, (∀ ps, assemble (p :: ps) = c :: assemble ps) ∧
        ∀ tail, pieces? g (['\\', e] ++ tail) = (pieces? g tail).map fun r => (p :: r.1, r.2) :=
    ⟨.char c, fun _ => by rw [assemble], pieces?_escaped g he⟩
  rw [escapeChar]
  split_ifs with h1 h2 h3 h4 h5 h6 h7 h8
  · exact letter (by rw [h1]; rfl)
  · exact letter (by rw [h2]; rfl)
  · exact letter (by rw [h3]; rfl)
  · exact letter (by rw [h4]; rfl)
  · exact letter (by rw [h5]; rfl)
  · exact letter (by rw [h6]; rfl)
  · exact letter (by rw [h7]; rfl)
  · -- Control characters and separators are far from the surrogates.
    have hsmall : c.toNat < 0xD800 := by
      simp only [Bool.or_eq_true, Bool.and_eq_true, decide_eq_true_eq] at h8
      rcases h8 with h8 | ⟨-, rfl | rfl⟩
      · omega
      · decide
      · decide
    obtain ⟨a, b, d, e, hhex, hunit⟩ := unit?_hex (show c.toNat < 0x10000 by omega)
    have hh : isHigh c.toNat = false := by
      simp [isHigh]
      omega
    have hl : isLow c.toNat = false := by
      simp [isLow]
      omega
    refine ⟨.unit c.toNat, fun ps => ?_, fun tail => ?_⟩
    · rw [assemble_unit hh hl, Char.ofNat_toNat]
    · rw [hhex]
      exact pieces?_unit g hunit tail
  · have hge : ¬ c.toNat < 0x20 := by
      simp only [Bool.or_eq_true, not_or, decide_eq_true_eq] at h8
      exact h8.1
    exact ⟨.char c, fun _ => by rw [assemble], pieces?_plain g h1 h2 hge⟩

theorem exists_pieces (g : Grammar) (st : Style) (cs rest : List Char) :
    ∃ ps, assemble ps = cs ∧
      pieces? g (cs.flatMap (escapeChar st) ++ '"' :: rest) = some (ps, rest) := by
  induction cs with
  | nil => exact ⟨[], by rw [assemble], by rw [List.flatMap_nil, List.nil_append, pieces?]⟩
  | cons c cs ih =>
    obtain ⟨p, hp, hread⟩ := exists_piece g st c
    obtain ⟨ps, hps, hrest⟩ := ih
    refine ⟨p :: ps, by rw [hp, hps], ?_⟩
    rw [List.flatMap_cons, List.append_assoc, hread, hrest]
    rfl

/-- A written string is read back, whatever follows it. -/
theorem string?_string (g : Grammar) (st : Style) (s : String) (rest : List Char) :
    ∃ cs, string st s rest = '"' :: cs ∧ string? g cs = some (s, rest) := by
  obtain ⟨ps, hps, hread⟩ := exists_pieces g st s.toList rest
  refine ⟨_, rfl, ?_⟩
  simp [string?, hread, hps]

end Writer

end IrDialects.Json
