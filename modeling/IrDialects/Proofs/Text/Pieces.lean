import IrDialects.Text.Pieces
import Mathlib.Data.List.Basic

/-!
# Pieces of joined texts

Texts that are joined by a character which none of them contains are found again as pieces. Replacing
all occurrences of a text goes on behind each occurrence.
-/

namespace IrDialects.Text

theorem pieces_eq_splitOn (sep : Char) (cs : List Char) : pieces sep cs = cs.splitOn sep := by
  induction cs with
  | nil => rfl
  | cons c cs ih =>
    rw [pieces, ih, List.splitOn_cons_eq_if_modifyHead]
    by_cases hc : c = sep
    · rw [if_pos hc, if_pos (by simpa using hc)]
    · rw [if_neg hc, if_neg (by simpa using hc)]
      have hne := List.splitOn_ne_nil sep cs
      cases hs : cs.splitOn sep with
      | nil => contradiction
      | cons p ps => rfl

theorem forall_mem_intercalate {sep : Char} {css : List (List Char)} {p : Char → Prop}
    (h : ∀ cs ∈ css, ∀ c ∈ cs, p c) (hsep : p sep) : ∀ c ∈ [sep].intercalate css, p c := by
  induction css with
  | nil => simp
  | cons cs css ih =>
    rw [List.forall_mem_cons] at h
    cases css with
    | nil => simpa using h.1
    | cons ds css =>
      intro c hc
      rw [List.intercalate_cons_cons, List.mem_append, List.mem_append, List.mem_singleton] at hc
      rcases hc with (hc | rfl) | hc
      · exact h.1 c hc
      · exact hsep
      · exact ih h.2 c hc

theorem pieces_intercalate {sep : Char} {css : List (List Char)} (h : ∀ cs ∈ css, sep ∉ cs)
    (hne : css ≠ []) : pieces sep ([sep].intercalate css) = css := by
  rw [pieces_eq_splitOn, List.splitOn_intercalate sep h hne]

theorem intercalate_pieces (sep : Char) (cs : List Char) : [sep].intercalate (pieces sep cs) = cs := by
  rw [pieces_eq_splitOn, List.intercalate_splitOn]

theorem not_mem_of_mem_pieces {sep : Char} {cs p : List Char} (h : p ∈ pieces sep cs) : sep ∉ p := by
  induction cs generalizing p with
  | nil =>
    obtain rfl : p = [] := by simpa [pieces] using h
    simp
  | cons c cs ih =>
    rw [pieces] at h
    split at h
    · rcases List.mem_cons.1 h with rfl | h
      · simp
      · exact ih h
    · rename_i hc
      split at h
      · obtain rfl : p = [c] := by simpa using h
        simpa using Ne.symm hc
      · rename_i q qs hq
        rw [hq] at ih
        rcases List.mem_cons.1 h with rfl | h
        · rw [List.mem_cons, not_or]
          exact ⟨Ne.symm hc, ih (List.mem_cons_self ..)⟩
        · exact ih (List.mem_cons_of_mem _ h)

/-- The pieces of a text are the texts without the separator that it is joined from. -/
theorem pieces_eq_iff {sep : Char} {cs : List Char} {css : List (List Char)} :
    pieces sep cs = css ↔ css ≠ [] ∧ (∀ p ∈ css, sep ∉ p) ∧ cs = [sep].intercalate css := by
  constructor
  · rintro rfl
    refine ⟨?_, fun p hp => not_mem_of_mem_pieces hp, (intercalate_pieces sep cs).symm⟩
    rw [pieces_eq_splitOn]
    exact List.splitOn_ne_nil sep cs
  · rintro ⟨hne, hsep, rfl⟩
    exact pieces_intercalate hsep hne

theorem pieces_eq_pair_iff {sep : Char} {cs first second : List Char} :
    pieces sep cs = [first, second] ↔
      sep ∉ first ∧ sep ∉ second ∧ cs = first ++ sep :: second := by
  rw [pieces_eq_iff, List.intercalate_cons_cons, List.intercalate_singleton, List.append_assoc]
  simp [and_assoc]

theorem pieces_eq_triple_iff {sep : Char} {cs first second third : List Char} :
    pieces sep cs = [first, second, third] ↔
      sep ∉ first ∧ sep ∉ second ∧ sep ∉ third ∧
        cs = first ++ sep :: (second ++ sep :: third) := by
  rw [pieces_eq_iff, List.intercalate_cons_cons, List.intercalate_cons_cons,
    List.intercalate_singleton, List.append_assoc, List.append_assoc]
  simp [and_assoc]

theorem cut?_append {sep : Char} {before : List Char} (h : sep ∉ before) (after : List Char) :
    cut? sep (before ++ sep :: after) = some (before, after) := by
  induction before with
  | nil => simp [cut?]
  | cons c cs ih =>
    rw [List.mem_cons, not_or] at h
    simp [cut?, ih h.2, Ne.symm h.1]

theorem cut?_eq_none {sep : Char} {cs : List Char} (h : sep ∉ cs) : cut? sep cs = none := by
  induction cs with
  | nil => rfl
  | cons c cs ih =>
    rw [List.mem_cons, not_or] at h
    simp [cut?, ih h.2, Ne.symm h.1]

theorem cut?_eq_none_iff {sep : Char} {cs : List Char} : cut? sep cs = none ↔ sep ∉ cs := by
  refine ⟨fun h hmem => ?_, cut?_eq_none⟩
  obtain ⟨before, after, rfl, hbefore⟩ := List.eq_append_cons_of_mem hmem
  rw [cut?_append hbefore] at h
  cases h

/-- A text is cut at its first separator. -/
theorem cut?_eq_some_iff {sep : Char} {cs before after : List Char} :
    cut? sep cs = some (before, after) ↔ sep ∉ before ∧ cs = before ++ sep :: after := by
  constructor
  · intro h
    by_cases hmem : sep ∈ cs
    · obtain ⟨front, back, rfl, hfront⟩ := List.eq_append_cons_of_mem hmem
      rw [cut?_append hfront] at h
      cases h
      exact ⟨hfront, rfl⟩
    · rw [cut?_eq_none hmem] at h
      cases h
  · rintro ⟨h, rfl⟩
    exact cut?_append h after

theorem replaceFirst_eq_self {old : Char} (new : Char) {cs : List Char} (h : old ∉ cs) :
    replaceFirst old new cs = cs := by
  induction cs with
  | nil => rfl
  | cons c cs ih =>
    rw [List.mem_cons, not_or] at h
    rw [replaceFirst, if_neg (Ne.symm h.1), ih h.2]

theorem replaceFirst_append {old : Char} (new : Char) {before : List Char} (h : old ∉ before)
    (after : List Char) :
    replaceFirst old new (before ++ old :: after) = before ++ new :: after := by
  induction before with
  | nil => simp [replaceFirst]
  | cons c cs ih =>
    rw [List.mem_cons, not_or] at h
    rw [List.cons_append, replaceFirst, if_neg (Ne.symm h.1), ih h.2, List.cons_append]

section ReplaceAll

variable {old : List Char} (new : List Char)

theorem replaceFrom_eq_replaceAll (skip : Nat) (cs : List Char) :
    replaceFrom old new skip cs = replaceAll old new (cs.drop skip) := by
  induction skip generalizing cs with
  | zero => rfl
  | succ skip ih =>
    cases cs with
    | nil => rfl
    | cons c cs =>
      rw [replaceFrom, List.drop_succ_cons]
      exact ih cs

theorem replaceAll_append (hold : old ≠ []) (cs : List Char) :
    replaceAll old new (old ++ cs) = new ++ replaceAll old new cs := by
  cases old with
  | nil => contradiction
  | cons o old =>
    have hprefix : (o :: old).isPrefixOf (o :: (old ++ cs)) :=
      List.isPrefixOf_iff_prefix.2 (List.prefix_append (o :: old) cs)
    rw [List.cons_append, replaceAll, replaceFrom, if_pos hprefix, replaceFrom_eq_replaceAll,
      List.length_cons, Nat.add_sub_cancel, List.drop_left]

theorem replaceAll_cons {c : Char} {cs : List Char} (h : ¬ old <+: c :: cs) :
    replaceAll old new (c :: cs) = c :: replaceAll old new cs := by
  have hprefix : ¬ old.isPrefixOf (c :: cs) := mt List.isPrefixOf_iff_prefix.1 h
  rw [replaceAll, replaceFrom, if_neg hprefix]
  rfl

/-- Replacing a character replaces it wherever it stands. -/
theorem replaceAll_singleton (old : Char) (cs : List Char) :
    replaceAll [old] new cs = cs.flatMap fun c => if c = old then new else [c] := by
  induction cs with
  | nil => rfl
  | cons c cs ih =>
    rw [List.flatMap_cons]
    by_cases hc : c = old
    · subst hc
      rw [if_pos rfl, ← ih]
      exact replaceAll_append new (List.cons_ne_nil c []) cs
    · rw [if_neg hc, ← ih]
      refine replaceAll_cons new fun h => hc ?_
      exact (List.cons_prefix_cons.1 h).1.symm

theorem notMem_replaceAll {old : Char} (h : old ∉ new) (cs : List Char) :
    old ∉ replaceAll [old] new cs := by
  rw [replaceAll_singleton, List.mem_flatMap]
  rintro ⟨c, -, hc⟩
  split at hc
  · exact h hc
  · rename_i hne
    exact hne (List.mem_singleton.1 hc).symm

/-- Where a mark is followed by `key` for the character `c` only, replacing the two by `c` undoes what
was written for `c` and nothing else. -/
theorem replaceAll_pair {mark key c : Char} {f : Char → List Char} (hc : f c = [mark, key])
    (hf : ∀ d, d ≠ c → d ≠ mark ∧ f d = [d] ∨ ∃ k, k ≠ key ∧ k ≠ mark ∧ f d = [mark, k])
    (cs : List Char) :
    replaceAll [mark, key] [c] (cs.flatMap f) = cs.flatMap fun d => if d = c then [c] else f d := by
  induction cs with
  | nil => rfl
  | cons d cs ih =>
    rw [List.flatMap_cons, List.flatMap_cons, ← ih]
    by_cases hd : d = c
    · rw [if_pos hd, hd, hc]
      exact replaceAll_append [c] (List.cons_ne_nil mark [key]) _
    · rw [if_neg hd]
      rcases hf d hd with ⟨hmark, hfd⟩ | ⟨k, hkey, hmark, hfd⟩
      · rw [hfd]
        refine replaceAll_cons [c] fun h => hmark ?_
        exact (List.cons_prefix_cons.1 h).1.symm
      · rw [hfd]
        have hpair : ¬ [mark, key] <+: mark :: k :: cs.flatMap f := by
          intro h
          obtain ⟨-, htail⟩ := List.cons_prefix_cons.1 h
          exact hkey (List.cons_prefix_cons.1 htail).1.symm
        -- the key is not a mark either, so no occurrence begins inside the pair
        have hkey' : ¬ [mark, key] <+: k :: cs.flatMap f := by
          intro h
          exact hmark (List.cons_prefix_cons.1 h).1.symm
        rw [List.cons_append, List.cons_append, List.nil_append, replaceAll_cons [c] hpair,
          replaceAll_cons [c] hkey']
        rfl

end ReplaceAll

end IrDialects.Text
