import IrDialects.Naming.Name
import Mathlib.Data.List.Basic

/-!
# Segmentation

A token is a letter with small letters after it or a run of digits, and it is cut out of a text as
long as it can be. A text can be cut into tokens and what stands between them in exactly one way, and
the words of the name that it spells are these tokens in small letters.
-/

namespace IrDialects

namespace Name

/-- A run of small letters or a run of digits. -/
def IsWord (w : String) : Prop :=
  w.toList ≠ [] ∧ ((∀ c ∈ w.toList, isSmall c) ∨ ∀ c ∈ w.toList, isDigit c)

-- The characters are looked through one by one, not all characters that there are.
instance (w : String) : Decidable (IsWord w) :=
  @instDecidableAnd _ _ inferInstance
    (@instDecidableOr _ _ (List.decidableBAll _ _) (List.decidableBAll _ _))

/-- An ASCII letter or digit. -/
def isWordChar (c : Char) : Bool := isLetter c || isDigit c

theorem isSmall_iff {c : Char} : isSmall c ↔ 97 ≤ c.toNat ∧ c.toNat ≤ 122 := by
  simp only [isSmall, Bool.and_eq_true, decide_eq_true_eq, Char.le_def, UInt32.le_iff_toNat_le]
  exact Iff.rfl

theorem isDigit_iff {c : Char} : isDigit c ↔ 48 ≤ c.toNat ∧ c.toNat ≤ 57 := by
  simp only [isDigit, Bool.and_eq_true, decide_eq_true_eq, Char.le_def, UInt32.le_iff_toNat_le]
  exact Iff.rfl

theorem isLetter_iff {c : Char} :
    isLetter c ↔ 97 ≤ c.toNat ∧ c.toNat ≤ 122 ∨ 65 ≤ c.toNat ∧ c.toNat ≤ 90 := by
  rw [isLetter, Bool.or_eq_true, isSmall_iff]
  simp only [Bool.and_eq_true, decide_eq_true_eq, Char.le_def, UInt32.le_iff_toNat_le]
  exact Iff.rfl

theorem isLetter_of_isSmall {c : Char} (h : isSmall c) : isLetter c := by simp [isLetter, h]

theorem not_isDigit_of_isLetter {c : Char} (h : isLetter c) : isDigit c = false := by
  rw [Bool.eq_false_iff]
  intro hd
  have := isLetter_iff.1 h
  have := isDigit_iff.1 hd
  omega

theorem toLower_eq_self {c : Char} (h : isSmall c ∨ isDigit c) : c.toLower = c := by
  have hc : ¬ (65 ≤ c.toNat ∧ c.toNat ≤ 90) := by
    rcases h with h | h
    · have := isSmall_iff.1 h
      omega
    · have := isDigit_iff.1 h
      omega
  delta Char.toLower
  rw [dif_neg]
  exact fun h => hc ⟨UInt32.le_iff_toNat_le.1 h.1, UInt32.le_iff_toNat_le.1 h.2⟩

theorem isSmall_toLower {c : Char} (h : isLetter c) : isSmall c.toLower := by
  rcases isLetter_iff.1 h with hc | ⟨hl, hu⟩
  · rwa [toLower_eq_self (.inl (isSmall_iff.2 hc)), isSmall_iff]
  · have hcap : c.val ≥ 'A'.val ∧ c.val ≤ 'Z'.val :=
      ⟨UInt32.le_iff_toNat_le.2 hl, UInt32.le_iff_toNat_le.2 hu⟩
    have hlower : c.toLower.toNat = c.toNat + 32 := by
      delta Char.toLower
      rw [dif_pos hcap]
      change (c.val + 32).toNat = _
      rw [UInt32.toNat_add]
      change (c.toNat + 32) % 2 ^ 32 = _
      omega
    rw [isSmall_iff, hlower]
    omega

/-- Base letters change nothing below the end of ASCII. -/
theorem fold_eq_self {cs : List Char} (h : ∀ c ∈ cs, c.toNat < 0x80) :
    Text.BaseLetter.fold cs = cs := by
  induction cs with
  | nil => rfl
  | cons c cs ih =>
    rw [List.forall_mem_cons] at h
    have hc : Text.BaseLetter.foldChar c = [c] := by rw [Text.BaseLetter.foldChar, if_pos h.1]
    rw [Text.BaseLetter.fold, List.flatMap_cons, hc, ← Text.BaseLetter.fold, ih h.2]
    rfl

section Tokens

/-- `IsToken t more`: `t` is a letter with small letters after it or a run of digits, and the
characters of the class `more` would make it longer. -/
inductive IsToken : List Char → (Char → Bool) → Prop
  | letters {c : Char} {cs : List Char} (head : isLetter c) (tail : ∀ d ∈ cs, isSmall d) :
      IsToken (c :: cs) isSmall
  | digits {c : Char} {cs : List Char} (head : isDigit c) (tail : ∀ d ∈ cs, isDigit d) :
      IsToken (c :: cs) isDigit

/-- A token in small letters. -/
def small (t : List Char) : String := String.ofList (t.map Char.toLower)

variable {c d : Char} {t cs rest : List Char} {more : Char → Bool}

private theorem continues_of_isLetter (h : isLetter c) : continues c = isSmall := by
  funext d
  simp [continues, h, not_isDigit_of_isLetter h]

private theorem continues_of_isDigit (h : isDigit c) : continues c = isDigit := by
  have hc : isLetter c = false := by
    rw [Bool.eq_false_iff]
    exact fun hl => Bool.eq_false_iff.1 (not_isDigit_of_isLetter hl) h
  funext d
  simp [continues, h, hc]

/-- A character that goes on with a word is gone on with by the same characters. -/
private theorem continues_eq_of_continues (h : continues c d) : continues d = continues c := by
  simp only [continues, Bool.or_eq_true, Bool.and_eq_true] at h
  rcases h with ⟨hc, hd⟩ | ⟨hc, hd⟩
  · rw [continues_of_isLetter hc, continues_of_isLetter (isLetter_of_isSmall hd)]
  · rw [continues_of_isDigit hc, continues_of_isDigit hd]

private theorem isWordChar_of_continues (h : continues c d) : isWordChar c ∧ isWordChar d := by
  simp only [continues, Bool.or_eq_true, Bool.and_eq_true] at h
  rcases h with ⟨hc, hd⟩ | ⟨hc, hd⟩
  · simp [isWordChar, hc, isLetter_of_isSmall hd]
  · simp [isWordChar, hc, hd]

/-- A token is a first character with characters that go on with it. -/
theorem isToken_iff : IsToken t more ↔
    ∃ c cs, t = c :: cs ∧ isWordChar c ∧ more = continues c ∧ ∀ d ∈ cs, continues c d := by
  constructor
  · rintro (⟨hc, hcs⟩ | ⟨hc, hcs⟩)
    · exact ⟨_, _, rfl, by simp [isWordChar, hc], (continues_of_isLetter hc).symm,
        by rwa [continues_of_isLetter hc]⟩
    · exact ⟨_, _, rfl, by simp [isWordChar, hc], (continues_of_isDigit hc).symm,
        by rwa [continues_of_isDigit hc]⟩
  · rintro ⟨c, cs, rfl, hc, rfl, hcs⟩
    rcases Bool.or_eq_true_iff.1 hc with hc | hc
    · rw [continues_of_isLetter hc] at hcs ⊢
      exact .letters hc hcs
    · rw [continues_of_isDigit hc] at hcs ⊢
      exact .digits hc hcs

theorem IsToken.isWordChar (h : IsToken t more) : ∀ c ∈ t, isWordChar c := by
  obtain ⟨c, cs, rfl, hc, -, hcs⟩ := isToken_iff.1 h
  exact List.forall_mem_cons.2 ⟨hc, fun d hd => (isWordChar_of_continues (hcs d hd)).2⟩

/-- No separator makes a token longer. -/
theorem IsToken.isWordChar_of_more (h : IsToken t more) (hd : more d) : Name.isWordChar d := by
  obtain ⟨c, cs, rfl, -, rfl, -⟩ := isToken_iff.1 h
  exact (isWordChar_of_continues hd).2

/-- A character that the first one of a token goes on with makes the token longer in front. -/
private theorem IsToken.cons (h : IsToken (d :: cs) more) (hc : continues c d) :
    IsToken (c :: d :: cs) more := by
  obtain ⟨_, _, ⟨rfl, rfl⟩, -, rfl, hcs⟩ := isToken_iff.1 h
  have heq := continues_eq_of_continues hc
  refine isToken_iff.2 ⟨c, _, rfl, (isWordChar_of_continues hc).1, heq, ?_⟩
  exact List.forall_mem_cons.2 ⟨hc, heq ▸ hcs⟩

theorem IsToken.isWord (h : IsToken t more) : IsWord (small t) := by
  rw [IsWord, small, String.toList_ofList]
  obtain ⟨hc, hcs⟩ | ⟨hc, hcs⟩ := h
  · refine ⟨by simp, .inl (List.forall_mem_map.2 (List.forall_mem_cons.2 ⟨?_, fun d hd => ?_⟩))⟩
    · exact isSmall_toLower hc
    · exact isSmall_toLower (isLetter_of_isSmall (hcs d hd))
  · refine ⟨by simp, .inr (List.forall_mem_map.2 (List.forall_mem_cons.2 ⟨?_, fun d hd => ?_⟩))⟩
    · rwa [toLower_eq_self (.inr hc)]
    · rw [toLower_eq_self (.inr (hcs d hd))]
      exact hcs d hd

/-- A word is a token, and it is in small letters. -/
theorem IsWord.isToken {w : String} (h : IsWord w) :
    (∃ more, IsToken w.toList more) ∧ small w.toList = w := by
  have hlower : w.toList.map Char.toLower = w.toList := by
    calc w.toList.map Char.toLower = w.toList.map id :=
          List.map_congr_left fun c hc => toLower_eq_self (h.2.imp (· c hc) (· c hc))
      _ = w.toList := List.map_id _
  refine ⟨?_, by rw [small, hlower, String.ofList_toList]⟩
  obtain ⟨hne, hchars⟩ := h
  obtain ⟨c, cs, hw⟩ := List.exists_cons_of_ne_nil hne
  simp only [hw, List.forall_mem_cons] at hchars ⊢
  rcases hchars with ⟨hc, hcs⟩ | ⟨hc, hcs⟩
  · exact ⟨_, .letters (isLetter_of_isSmall hc) hcs⟩
  · exact ⟨_, .digits hc hcs⟩

end Tokens

section Scan

variable {c : Char} {t g cs rest word : List Char} {more : Char → Bool}

/-- No ASCII letter and no digit. -/
def IsGap (g : List Char) : Prop := ∀ c ∈ g, ¬ isWordChar c

private theorem scan_continue (h : ∀ d ∈ cs, continues c d) :
    scan (c :: word) (cs ++ rest) = scan (cs.reverse ++ c :: word) rest := by
  induction cs generalizing c word with
  | nil => rfl
  | cons d cs ih =>
    rw [List.forall_mem_cons] at h
    have hstep : scan (c :: word) (d :: cs ++ rest) = scan (d :: c :: word) (cs ++ rest) := by
      simp [scan, h.1]
    rw [hstep, ih (continues_eq_of_continues h.1 ▸ h.2), List.reverse_cons, List.append_assoc]
    rfl

private theorem scan_stop (h : ∀ d ∈ rest.head?, ¬ continues c d) :
    scan (c :: word) rest = finish (c :: word) ++ scan [] rest := by
  cases rest with
  | nil => simp [scan, finish]
  | cons d rest =>
    have hd : continues c d = false := by simpa using h
    simp only [scan, List.head?_cons, Option.any_some, hd, Bool.false_eq_true, if_false,
      List.head?_nil, Option.any_none]
    split <;> simp [finish]

private theorem finish_reverse (h : t ≠ []) : finish t.reverse = [small t] := by
  cases hr : t.reverse with
  | nil => exact absurd (List.reverse_eq_nil_iff.1 hr) h
  | cons c cs => rw [finish, ← hr, List.reverse_reverse, small]

/-- A token is collected as a whole, unless what follows makes it longer. -/
theorem scan_token (h : IsToken t more) (hrest : ∀ d ∈ rest.head?, ¬ more d) :
    scan [] (t ++ rest) = small t :: scan [] rest := by
  obtain ⟨c, cs, rfl, hc, rfl, hcs⟩ := isToken_iff.1 h
  have hstart : scan [] (c :: cs ++ rest) = scan [c] (cs ++ rest) := by
    have hc' : isLetter c || isDigit c := hc
    simp [scan, hc', finish]
  have hword : scan (cs.reverse ++ [c]) rest = finish (cs.reverse ++ [c]) ++ scan [] rest := by
    -- The latest character is gone on with by the same ones as the first.
    cases hr : cs.reverse with
    | nil => exact scan_stop hrest
    | cons e es =>
      have he : e ∈ cs := List.mem_reverse.1 (by simp [hr])
      exact scan_stop (continues_eq_of_continues (hcs e he) ▸ hrest)
  rw [hstart, scan_continue hcs, hword, ← List.reverse_cons, finish_reverse (by simp)]
  rfl

/-- Nothing is collected between tokens. -/
theorem scan_gap (h : IsGap g) : scan [] (g ++ rest) = scan [] rest := by
  induction g with
  | nil => rfl
  | cons c g ih =>
    have h' := List.forall_mem_cons.1 h
    have hc : ¬ (isLetter c || isDigit c) := h'.1
    rw [← ih h'.2]
    simp [scan, hc, finish]

end Scan

/-- A token and what stands behind it, up to the next token. -/
structure Segment where
  token : List Char
  gap : List Char
deriving DecidableEq, Repr

/-- The characters of tokens and of what stands behind them. -/
def spread (gs : List Segment) : List Char := gs.flatMap fun g => g.token ++ g.gap

/-- Every token is as long as it can be, and what stands behind tokens holds no letter or digit. -/
inductive IsSegmented : List Segment → Prop
  | nil : IsSegmented []
  | cons {t g : List Char} {gs : List Segment} {more : Char → Bool} (token : IsToken t more)
      (gap : IsGap g) (maximal : ∀ c ∈ (g ++ spread gs).head?, ¬ more c) (rest : IsSegmented gs) :
      IsSegmented (⟨t, g⟩ :: gs)

/-- What stands before the first token of a text, and the tokens. -/
structure Segmentation where
  lead : List Char
  segments : List Segment
deriving DecidableEq, Repr

/-- `d` cuts the text `cs` into longest tokens and what stands between them. -/
structure Segmentation.Cuts (d : Segmentation) (cs : List Char) : Prop where
  lead : IsGap d.lead
  segments : IsSegmented d.segments
  text : d.lead ++ spread d.segments = cs

/-- The tokens in small letters. -/
def Segmentation.words (d : Segmentation) : List String := d.segments.map fun g => small g.token

section Segmentation

variable {c : Char} {t g cs rest : List Char} {gs gs' : List Segment} {d d' : Segmentation}

theorem spread_cons : spread (⟨t, g⟩ :: gs) = t ++ (g ++ spread gs) := by simp [spread]

/-- What begins a list of segments is a token. -/
theorem IsSegmented.head_spread (h : IsSegmented gs) : ∀ c ∈ (spread gs).head?, isWordChar c := by
  cases h with
  | nil => simp [spread]
  | cons token _ _ _ =>
    obtain ⟨c, cs, rfl, hc, -, -⟩ := isToken_iff.1 token
    simpa [spread_cons] using hc

/-- What a class of characters begins, up to the first character outside of it, is determined. -/
private theorem append_inj_of_class {p : Char → Bool} {l l' r r' : List Char} (h : ∀ c ∈ l, p c)
    (h' : ∀ c ∈ l', p c) (hr : ∀ c ∈ r.head?, ¬ p c) (hr' : ∀ c ∈ r'.head?, ¬ p c)
    (e : l ++ r = l' ++ r') : l = l' ∧ r = r' := by
  have htake : ∀ {l r : List Char}, (∀ c ∈ l, p c) → (∀ c ∈ r.head?, ¬ p c) →
      (l ++ r).takeWhile p = l := by
    intro l r hl hr
    rw [List.takeWhile_append_of_pos hl]
    cases r with
    | nil => simp
    | cons c r => rw [List.takeWhile_cons_of_neg (hr c rfl), List.append_nil]
  have hl : l = l' := by rw [← htake h hr, e, htake h' hr']
  subst hl
  exact ⟨rfl, List.append_cancel_left e⟩

private theorem IsGap.append_inj {g g' : List Char} (hg : IsGap g) (hg' : IsGap g')
    (h : IsSegmented gs) (h' : IsSegmented gs') (e : g ++ spread gs = g' ++ spread gs') :
    g = g' ∧ spread gs = spread gs' := by
  refine append_inj_of_class (p := fun c => !isWordChar c) ?_ ?_ ?_ ?_ e
  · simpa [IsGap] using hg
  · simpa [IsGap] using hg'
  · simpa using h.head_spread
  · simpa using h'.head_spread

private theorem IsSegmented.eq_of_spread_eq (h : IsSegmented gs) (h' : IsSegmented gs')
    (e : spread gs = spread gs') : gs = gs' := by
  induction h generalizing gs' with
  | nil =>
    cases h' with
    | nil => rfl
    | cons token _ _ _ =>
      obtain ⟨c, cs, rfl, -⟩ := isToken_iff.1 token
      simp [spread] at e
  | @cons t g gs more token gap maximal rest ih =>
    obtain ⟨c, cs, rfl, -, rfl, hcs⟩ := isToken_iff.1 token
    cases h' with
    | nil => simp [spread] at e
    | cons token' gap' maximal' rest' =>
      obtain ⟨c', cs', rfl, -, rfl, hcs'⟩ := isToken_iff.1 token'
      rw [spread_cons, spread_cons, List.cons_append, List.cons_append] at e
      obtain ⟨rfl, htail⟩ := List.cons.inj e
      obtain ⟨rfl, hgaps⟩ := append_inj_of_class hcs hcs' maximal maximal' htail
      obtain ⟨rfl, hrest⟩ := gap.append_inj gap' rest rest' hgaps
      rw [ih rest' hrest]

/-- A text is cut in no two ways. -/
theorem Segmentation.Cuts.unique (h : d.Cuts cs) (h' : d'.Cuts cs) : d = d' := by
  obtain ⟨hlead, hspread⟩ :=
    h.lead.append_inj h'.lead h.segments h'.segments (h.text.trans h'.text.symm)
  have hsegments := h.segments.eq_of_spread_eq h'.segments hspread
  cases d
  cases d'
  exact congrArg₂ Segmentation.mk hlead hsegments

/-- Every text can be cut. -/
theorem exists_cuts (cs : List Char) : ∃ d : Segmentation, d.Cuts cs := by
  -- From the end: the first character opens a token of its own, joins the next one or the gap.
  induction cs with
  | nil => exact ⟨⟨[], []⟩, by simp [IsGap], .nil, rfl⟩
  | cons c cs ih =>
    obtain ⟨⟨lead, gs⟩, hlead, hgs, rfl⟩ := ih
    by_cases hc : isWordChar c
    · by_cases hnext : ∃ d ∈ (lead ++ spread gs).head?, continues c d
      · -- The character goes on with the first token, and nothing stands before that.
        obtain ⟨d, hd, hcont⟩ := hnext
        have hd' := (isWordChar_of_continues hcont).2
        cases lead with
        | cons e lead =>
          obtain rfl : e = d := by simpa using hd
          exact absurd hd' (hlead e (by simp))
        | nil =>
          cases hgs with
          | nil => simp [spread] at hd
          | @cons t g gs more token gap maximal rest =>
            obtain ⟨e, es, rfl, -⟩ := isToken_iff.1 token
            obtain rfl : e = d := by simpa [spread_cons] using hd
            exact ⟨⟨[], ⟨c :: e :: es, g⟩ :: gs⟩, hlead, .cons (token.cons hcont) gap maximal rest,
              by simp [spread_cons]⟩
      · have htoken : IsToken [c] (continues c) := isToken_iff.2 ⟨c, [], rfl, hc, rfl, by simp⟩
        refine ⟨⟨[], ⟨[c], lead⟩ :: gs⟩, by simp [IsGap], .cons htoken hlead ?_ hgs,
          by simp [spread_cons]⟩
        exact fun d hd hcont => hnext ⟨d, hd, hcont⟩
    · exact ⟨⟨c :: lead, gs⟩, List.forall_mem_cons.2 ⟨hc, hlead⟩, hgs, rfl⟩

theorem IsSegmented.scan_eq (h : IsSegmented gs) :
    scan [] (spread gs) = gs.map fun g => small g.token := by
  induction h with
  | nil => rfl
  | cons token gap maximal rest ih =>
    rw [spread_cons, scan_token token maximal, scan_gap gap, ih, List.map_cons]

/-- The words collected from a text are its tokens in small letters. -/
theorem Segmentation.Cuts.scan_eq (h : d.Cuts cs) : scan [] cs = d.words := by
  rw [← h.text, scan_gap h.lead, h.segments.scan_eq, words]

private theorem IsSegmented.isWord (h : IsSegmented gs) : ∀ g ∈ gs, IsWord (small g.token) := by
  induction h with
  | nil => simp
  | cons token _ _ _ ih => exact List.forall_mem_cons.2 ⟨token.isWord, ih⟩

private theorem filter_gap (h : IsGap g) : g.filter isWordChar = [] :=
  List.filter_eq_nil_iff.2 h

private theorem IsSegmented.flatMap_small (h : IsSegmented gs) :
    gs.flatMap (fun g => (small g.token).toList) =
      ((spread gs).filter isWordChar).map Char.toLower := by
  induction h with
  | nil => rfl
  | cons token gap _ _ ih =>
    rw [spread_cons, List.filter_append, List.filter_append, filter_gap gap,
      List.filter_eq_self.2 token.isWordChar, List.nil_append, List.map_append, List.flatMap_cons,
      ih, small, String.toList_ofList]

/-- Whatever the text is, its words are runs of small letters or of digits. -/
theorem isWord_of_mem_scan : ∀ w ∈ scan [] cs, IsWord w := by
  obtain ⟨d, hd⟩ := exists_cuts cs
  rw [hd.scan_eq]
  exact List.forall_mem_map.2 hd.segments.isWord

/-- The words of a text hold its letters and digits, in order. -/
theorem flatMap_scan : (scan [] cs).flatMap String.toList = (cs.filter isWordChar).map Char.toLower := by
  obtain ⟨d, hd⟩ := exists_cuts cs
  rw [hd.scan_eq, ← hd.text, List.filter_append, filter_gap hd.lead, List.nil_append,
    ← hd.segments.flatMap_small, Segmentation.words, List.flatMap_map]

/-- Parsing a name cuts the base letters of a text, which for an ASCII text are the text, into
longest tokens, in the only way in which they can be cut; its words are the tokens in small letters.
So each word is a run of small letters or of digits, and together they are the letters and digits of
the text in small letters. -/
theorem parse_cuts_into_longest_tokens (s : String) :
    (∃! d : Segmentation, d.Cuts (Text.BaseLetter.fold s.toList)) ∧
      (∀ d : Segmentation, d.Cuts (Text.BaseLetter.fold s.toList) → (parse s).words = d.words) ∧
      (∀ w ∈ (parse s).words, IsWord w) ∧
      (parse s).words.flatMap String.toList =
        ((Text.BaseLetter.fold s.toList).filter isWordChar).map Char.toLower ∧
      ((∀ c ∈ s.toList, c.toNat < 0x80) → Text.BaseLetter.fold s.toList = s.toList) := by
  obtain ⟨d, hd⟩ := exists_cuts (Text.BaseLetter.fold s.toList)
  refine ⟨⟨d, hd, fun d' hd' => hd'.unique hd⟩, fun d' hd' => ?_, ?_, ?_, fold_eq_self⟩
  · rw [parse, ofChars, hd'.scan_eq]
  · exact isWord_of_mem_scan
  · exact flatMap_scan

example : (parse "valueInUSD").words = ["value", "in", "u", "s", "d"] := by decide

end Segmentation

end Name

end IrDialects
