import IrDialects.Json.Reader
import IrDialects.Proofs.Number.DecimalLiteral
import IrDialects.Proofs.Number.Shortest

/-!
# Number spellings

A number is read as the longest run of number characters at its place. The spellings of whole
numbers of 64 bits and of finite floating-point numbers are literals of the JSON grammar, and
literals within the range of floating-point numbers are read back whatever follows them.
-/

namespace IrDialects.Json.Reader

open Number

/-- A spelling that is read as one number: number characters after a digit or a minus sign that
denote a finite number. -/
structure IsToken (s : String) : Prop where
  head : s.toList.head?.any fun c => c.isDigit || c == '-'
  chars : ∀ c ∈ s.toList, isNumberChar c
  numeral : isNumeral s.toList

/-- A spelling that a grammar reads as one number. -/
structure IsTokenOf (g : Grammar) (s : String) : Prop where
  head : s.toList.head?.any fun c => c.isDigit || c == '-'
  chars : ∀ c ∈ s.toList, isNumberChar c
  number : g.isNumber s.toList

/-- A text that no number goes on with. -/
def Ends (rest : List Char) : Prop := ∀ c ∈ rest.head?, isNumberChar c = false

theorem isNumberChar_of_isDigit {c : Char} (h : c.isDigit) : isNumberChar c := by
  simp [isNumberChar, h]

theorem isNumber_lenient : lenient.isNumber = isNumeral := rfl

theorem isNumber_strict : strict.isNumber = isLiteral := rfl

theorem IsToken.isTokenOf {s : String} (h : IsToken s) : IsTokenOf lenient s := by
  refine ⟨h.head, h.chars, ?_⟩
  rw [isNumber_lenient]
  exact h.numeral

theorem takeWhile_append_of_ends {cs rest : List Char} (hcs : ∀ c ∈ cs, isNumberChar c)
    (h : Ends rest) :
    (cs ++ rest).takeWhile isNumberChar = cs ∧ (cs ++ rest).dropWhile isNumberChar = rest := by
  rw [List.takeWhile_append_of_pos hcs, List.dropWhile_append_of_pos hcs]
  cases rest with
  | nil => simp
  | cons c rest =>
    have hc : isNumberChar c = false := h c rfl
    simp [hc]

/-- A number is read up to the first character that cannot belong to it. -/
theorem number?_append {g : Grammar} {s : String} {rest : List Char}
    (hs : ∀ c ∈ s.toList, isNumberChar c) (hg : g.isNumber s.toList) (h : Ends rest) :
    number? g (s.toList ++ rest) = some (.number s, rest) := by
  obtain ⟨htake, hdrop⟩ := takeWhile_append_of_ends hs h
  simp only [number?, htake, hdrop, hg, if_true, String.ofList_toList]

private theorem digits?_eq_some {cs rest : List Char} (h : digits? cs = some rest) :
    ∃ ds, cs = ds ++ rest ∧ ds ≠ [] ∧ ∀ d ∈ ds, d.isDigit := by
  cases cs with
  | nil => cases h
  | cons c cs =>
    rw [digits?] at h
    split at h
    · rename_i hc
      cases h
      refine ⟨c :: cs.takeWhile Char.isDigit, ?_, List.cons_ne_nil _ _, fun d hd => ?_⟩
      · rw [List.cons_append, List.takeWhile_append_dropWhile]
      · rcases List.mem_cons.1 hd with rfl | hd
        · exact hc
        · exact List.all_eq_true.1 List.all_takeWhile d hd
    · cases h

private theorem exponentPart?_eq_some {cs : List Char} (h : exponentPart? cs = some []) :
    ∃ e : Option Exponent, cs = (e.map Exponent.chars).getD [] ∧ ∀ x ∈ e, x.Regular := by
  cases cs with
  | nil => exact ⟨none, rfl, by simp⟩
  | cons c cs =>
    rw [exponentPart?.eq_def] at h
    dsimp only at h
    split at h
    · rename_i hc
      obtain ⟨sign, rest, rfl, hsign, hrest⟩ : ∃ sign rest, cs = sign ++ rest ∧
          sign ∈ [[], ['+'], ['-']] ∧ digits? rest = some [] := by
        split at h
        · exact ⟨['+'], _, rfl, by simp, h⟩
        · exact ⟨['-'], _, rfl, by simp, h⟩
        · exact ⟨[], _, rfl, by simp, h⟩
      obtain ⟨ds, rfl, hne, hds⟩ := digits?_eq_some hrest
      refine ⟨some ⟨c, sign, ds⟩, by simp [Exponent.chars], ?_⟩
      rintro _ ⟨⟩
      exact ⟨by simpa using hc, hsign, hne, hds⟩
    · cases h

private theorem fractionPart?_eq_some {cs rest : List Char} (h : fractionPart? cs = some rest) :
    ∃ f, cs = Spelling.fractionChars f ++ rest ∧ ∀ c ∈ f, c.isDigit := by
  rw [fractionPart?.eq_def] at h
  split at h
  · obtain ⟨f, rfl, hne, hf⟩ := digits?_eq_some h
    exact ⟨f, by rw [Spelling.fractionChars_of_ne hne]; rfl, hf⟩
  · cases h
    exact ⟨[], rfl, by simp⟩

private theorem wholePart?_eq_some {cs rest : List Char} (h : wholePart? cs = some rest) :
    ∃ w, cs = w ++ rest ∧ w ≠ [] ∧ ∀ c ∈ w, c.isDigit := by
  rw [wholePart?.eq_def] at h
  split at h
  · cases h
    exact ⟨['0'], rfl, List.cons_ne_nil _ _, by simp⟩
  · exact digits?_eq_some h

/-- A number literal consists of parts. -/
theorem exists_spells_of_isLiteral {s : String} (h : isLiteral s.toList) :
    ∃ l : DecimalLiteral, l.Spells s := by
  have key (negative : Bool) (u : List Char)
      (hu : (do fractionPart? (← wholePart? u) >>= exponentPart?) = some [])
      (hs : s.toList = if negative then '-' :: u else u) : ∃ l : DecimalLiteral, l.Spells s := by
    obtain ⟨r, hw, hu⟩ := Option.bind_eq_some_iff.1 hu
    obtain ⟨x, hf, he⟩ := Option.bind_eq_some_iff.1 hu
    obtain ⟨w, rfl, hne, hwhole⟩ := wholePart?_eq_some hw
    obtain ⟨f, rfl, hfraction⟩ := fractionPart?_eq_some hf
    obtain ⟨e, rfl, hexponent⟩ := exponentPart?_eq_some he
    exact ⟨⟨negative, w, f, e⟩, ⟨hne, hwhole, hfraction, hexponent⟩, hs⟩
  simp only [isLiteral, beq_iff_eq] at h
  split at h
  · rename_i u hs
    exact key true u h hs
  · exact key false _ h rfl

/-- A number literal begins with a digit or a minus sign and has number characters only. -/
theorem chars_of_isLiteral {s : String} (h : isLiteral s.toList) :
    (s.toList.head?.any fun c => c.isDigit || c == '-') ∧ ∀ c ∈ s.toList, isNumberChar c := by
  obtain ⟨l, hl⟩ := exists_spells_of_isLiteral h
  obtain ⟨c, cs, hc, hcs⟩ := DecimalLiteral.unsigned_eq_cons hl.regular
  have hchars : ∀ d ∈ l.unsigned, isNumberChar d := by
    intro d hd
    rcases DecimalLiteral.mem_unsigned hl.regular hd with hdigit | hmark
    · exact isNumberChar_of_isDigit hdigit
    · simp only [List.mem_cons, List.not_mem_nil, or_false] at hmark
      rcases hmark with rfl | rfl | rfl | rfl | rfl <;> rfl
  rw [hl.toList_eq]
  split
  · simpa using ⟨rfl, hchars⟩
  · refine ⟨?_, hchars⟩
    rw [hcs]
    simp [hc]

/-- A literal within the range of floating-point numbers is read as one number. -/
theorem IsToken.of_isLiteral {s : String} (hs : isLiteral s.toList) (hn : isNumeral s.toList) :
    IsToken s :=
  ⟨(chars_of_isLiteral hs).1, (chars_of_isLiteral hs).2, hn⟩

theorem isTokenOf_strict {s : String} (hs : isLiteral s.toList) : IsTokenOf strict s := by
  obtain ⟨hhead, hchars⟩ := chars_of_isLiteral hs
  refine ⟨hhead, hchars, ?_⟩
  rw [isNumber_strict]
  exact hs

private theorem isBlank_eq_false {c : Char} (h : (c.isDigit || c == '-') = true) :
    isBlank c = false := by
  have hne (d : Char) (hd : (d.isDigit || d == '-') = false) : (c == d) = false := by
    rw [beq_eq_false_iff_ne]
    rintro rfl
    rw [h] at hd
    cases hd
  simp [isBlank, hne]

/-- A number is told by its first character. -/
theorem value?_eq_number? {g : Grammar} {c : Char} (h : (c.isDigit || c == '-') = true)
    (fuel room : Nat) (cs : List Char) :
    value? g (fuel + 1) room (c :: cs) = number? g (c :: cs) := by
  have hne {d : Char} (hd : (d.isDigit || d == '-') = false) : c ≠ d := by
    rintro rfl
    rw [h] at hd
    cases hd
  have hskip : skipBlanks (c :: cs) = c :: cs := by
    rw [skipBlanks, isBlank_eq_false h]
    rfl
  rw [value?.eq_def]
  dsimp only
  rw [hskip]
  -- Every other first character is excluded, since it is neither a digit nor a minus sign.
  split
  case h_8 _ heq =>
    cases heq
    rw [if_pos h]
  all_goals
    rename_i heq
    cases heq
  all_goals exact absurd rfl (hne (by decide))

/-- A number that a grammar accepts is read up to its end. -/
theorem value?_token {g : Grammar} {s : String} {rest : List Char} (hs : IsTokenOf g s)
    (h : Ends rest) (fuel room : Nat) :
    value? g (fuel + 1) room (s.toList ++ rest) = some (.number s, rest) := by
  rw [← number?_append hs.chars hs.number h]
  have hhead := hs.head
  cases hcs : s.toList with
  | nil => simp [hcs] at hhead
  | cons c cs =>
    rw [hcs] at hhead
    exact value?_eq_number? (by simpa using hhead) fuel room (cs ++ rest)

/-- A number literal can be written. -/
theorem isStrictText_of_isLiteral {s : String} (h : isLiteral s.toList) : isStrictText s := by
  have hend : Ends [] := by simp [Ends]
  have hv := value?_token (isTokenOf_strict h) hend s.toList.length depthLimit
  rw [List.append_nil] at hv
  simp [isStrictText, read?, hv, skipBlanks]

/-- A token that can be written is a number literal. -/
theorem IsToken.isLiteral_of_isStrictText {s : String} (h : IsToken s) (hs : isStrictText s) :
    isLiteral s.toList := by
  by_contra hlit
  have hend : Ends [] := by simp [Ends]
  have htake := (takeWhile_append_of_ends h.chars hend).1
  rw [List.append_nil] at htake
  have hnumber : number? strict s.toList = none := by
    simp only [number?, htake, isNumber_strict, if_neg hlit]
  have hread : read? strict s.toList = none := by
    have hhead := h.head
    cases hcs : s.toList with
    | nil => simp [hcs] at hhead
    | cons c cs =>
      rw [hcs] at hhead hnumber
      rw [read?, value?_eq_number? (by simpa using hhead), hnumber]
  simp [isStrictText, hread] at hs

private theorem digits?_append {ds rest : List Char} (hne : ds ≠ []) (hds : ∀ c ∈ ds, c.isDigit)
    (h : rest.head?.all fun c => !c.isDigit) : digits? (ds ++ rest) = some rest := by
  cases ds with
  | nil => exact absurd rfl hne
  | cons c ds =>
    have hc : c.isDigit := hds c (by simp)
    rw [List.cons_append, digits?, if_pos hc,
      List.dropWhile_append_of_pos fun d hd => hds d (by simp [hd])]
    cases rest with
    | nil => rfl
    | cons d rest =>
      have hd : d.isDigit = false := by simpa using h
      simp [hd]

section Spelling

variable {s : Spelling}

private theorem exponentPart?_exponentChars (h : s.Regular) :
    exponentPart? (Spelling.exponentChars s.exponent) = some [] := by
  cases he : s.exponent with
  | none => rfl
  | some e =>
    obtain ⟨negative, ds⟩ := e
    have hds : digits? (ds ++ []) = some [] :=
      digits?_append (h.exponent_ne _ he) (h.exponent_digits _ he) rfl
    rw [List.append_nil] at hds
    cases negative <;> exact hds

private theorem fractionPart?_fractionChars (h : s.Regular) :
    fractionPart? (Spelling.fractionChars s.fraction ++ Spelling.exponentChars s.exponent) =
      some (Spelling.exponentChars s.exponent) := by
  cases hf : s.fraction with
  | nil =>
    cases he : s.exponent with
    | none => rfl
    | some e => rfl
  | cons d ds =>
    have hds := h.fraction_digits
    rw [hf] at hds
    refine digits?_append (List.cons_ne_nil d ds) hds ?_
    cases he : s.exponent with
    | none => rfl
    | some e => rfl

private theorem wholePart?_chars (h : s.Regular) :
    wholePart? s.chars =
      some (Spelling.fractionChars s.fraction ++ Spelling.exponentChars s.exponent) := by
  have hrest : (Spelling.fractionChars s.fraction ++
      Spelling.exponentChars s.exponent).head?.all fun c => !c.isDigit := by
    cases hf : s.fraction with
    | cons d ds => rfl
    | nil =>
      cases he : s.exponent with
      | none => rfl
      | some e => rfl
  by_cases hz : s.whole.head? = some '0'
  · rw [Spelling.chars, h.no_leading_zero hz]
    rfl
  · rw [← digits?_append h.whole_ne h.whole_digits hrest, Spelling.chars]
    cases hw : s.whole with
    | nil => exact absurd hw h.whole_ne
    | cons c cs =>
      rw [List.cons_append, wholePart?]
      rintro _ ⟨⟩
      simp [hw] at hz

/-- A numeral that spells a decimal is a number literal. -/
theorem isLiteral_signed (h : s.Regular) (negative : Bool) : isLiteral (s.signed negative) := by
  have hu : (do fractionPart? (← wholePart? s.chars) >>= exponentPart?) = some [] := by
    simp [wholePart?_chars h, fractionPart?_fractionChars h, exponentPart?_exponentChars h]
  cases negative with
  | true => exact beq_iff_eq.2 hu
  | false =>
    obtain ⟨c, cs, hc, hcs⟩ := Spelling.chars_eq_cons h
    rw [Spelling.signed, if_neg (by decide)]
    simp only [isLiteral, beq_iff_eq]
    split
    · rename_i hminus
      rw [hminus] at hcs
      cases hcs
      exact absurd hc (by decide)
    · exact hu

theorem isNumeral_signed (h : s.Regular) (negative : Bool)
    (hm : (Magnitude.ofDecimal? s.coefficient s.scale).isSome) :
    isNumeral (s.signed negative) := by
  obtain ⟨m, hm⟩ := Option.isSome_iff_exists.1 hm
  rw [isNumeral, Spelling.read_signed_eq_value h negative hm]

end Spelling

private theorem unsigned_finite {negative : Bool} {cs : List Char} {x : Binary64}
    (h : Numeral.unsigned negative cs = .value x) : ∃ m, x = .finite negative m := by
  have heval {r : Numeral.Radix} {f : Numeral.Fraction} {e : Int}
      (h : Numeral.evaluate r negative f e = .value x) : ∃ m, x = .finite negative m := by
    simp only [Numeral.evaluate] at h
    split at h
    · rename_i m _
      cases h
      exact ⟨m, rfl⟩
    · cases h
  simp only [Numeral.unsigned] at h
  split at h
  · cases h
  · split at h
    · split at h
      · exact heval h
      · cases h
    · split at h
      · split at h
        · exact heval h
        · cases h
      · cases h

/-- A number that is read from a token is finite: the words for other numbers have other letters. -/
theorem IsToken.finite {s : String} (hs : IsToken s) {x : Binary64}
    (h : Numeral.read s = .value x) : ∃ negative m, x = .finite negative m := by
  -- Every word for another number has the letter `n`, which no token has.
  have hn {cs : List Char} (hcs : cs ⊆ s.toList) : 'n' ∉ cs.map Char.toLower := by
    intro hmem
    obtain ⟨c, hc, hlow⟩ := List.mem_map.1 hmem
    have hnum := hs.chars c (hcs hc)
    simp only [isNumberChar, Bool.or_eq_true, beq_iff_eq] at hnum
    rcases hnum with ((((hd | rfl) | rfl) | rfl) | rfl) | rfl
    · rw [Numeral.toLower_of_isDigit hd] at hlow
      exact Numeral.ne_of_isDigit hd (by decide) hlow
    all_goals exact absurd hlow (by decide)
  have hsub : (Whole.sign s.toList).2 ⊆ s.toList := by
    rw [Whole.sign.eq_def]
    split <;> simp_all
  have hword (w : List Char) (hw : 'n' ∈ w) :
      String.ofList ((Whole.sign s.toList).2.map Char.toLower) ≠ String.ofList w := by
    intro he
    have hl := congrArg String.toList he
    rw [String.toList_ofList, String.toList_ofList] at hl
    exact hn hsub (hl ▸ hw)
  simp only [Numeral.read] at h
  split at h
  · rename_i hinf
    rcases Bool.or_eq_true_iff.1 hinf with hinf | hinf
    · exact absurd (of_decide_eq_true hinf) (hword ['i', 'n', 'f'] (by decide))
    · exact absurd (of_decide_eq_true hinf)
        (hword ['i', 'n', 'f', 'i', 'n', 'i', 't', 'y'] (by decide))
  · split at h
    · rename_i hnan
      exact absurd (by rw [hnan]; simp) (hn (List.Subset.refl _))
    · obtain ⟨m, rfl⟩ := unsigned_finite h
      exact ⟨_, m, rfl⟩

/-- The spelling of a JSON number within the range of floating-point numbers. -/
def IsNumber (s : String) : Prop := isLiteral s.toList ∧ isNumeral s.toList

instance (s : String) : Decidable (IsNumber s) := inferInstanceAs (Decidable (_ ∧ _))

theorem IsNumber.isToken {s : String} (h : IsNumber s) : IsToken s := .of_isLiteral h.1 h.2

theorem IsNumber.isStrictText {s : String} (h : IsNumber s) : isStrictText s :=
  isStrictText_of_isLiteral h.1

/-- The text of a whole number of 64 bits is the spelling of a number. -/
theorem isNumber_toString {n : Int} (h : Whole.InRange n) : IsNumber (toString n) := by
  let s : Spelling := ⟨Nat.toDigits 10 n.natAbs, [], none⟩
  have hs : s.Regular := by
    refine Spelling.regular_plain Nat.toDigits_ne_nil (fun c hc => Whole.isDigit_toDigits hc)
      (fun hz => ?_) (by simp)
    rcases Nat.eq_zero_or_pos n.natAbs with h0 | hpos
    · rw [h0]
      rfl
    · exact absurd hz (Shortest.head?_toDigits hpos)
  have hchars : (toString n).toList = s.signed (n < 0) := by
    rw [Whole.toList_toString, Spelling.signed]
    simp [Spelling.chars, Spelling.fractionChars, Spelling.exponentChars, s]
  have hm : (Magnitude.ofDecimal? s.coefficient s.scale).isSome := by
    have hc : s.coefficient = n.natAbs := by simp [Spelling.coefficient, s]
    have he : s.scale = 0 := by simp [Spelling.scale, Spelling.exponentValue, s]
    obtain ⟨hl, hu⟩ := h
    rw [hc, he]
    exact Magnitude.ofDecimal?_isSome_of_lt (by omega)
  rw [IsNumber, hchars]
  exact ⟨isLiteral_signed hs _, isNumeral_signed hs _ hm⟩

/-- The text of a finite floating-point number is the spelling of a number. -/
theorem isNumber_text (l : FloatLayout) (negative : Bool) (m : Magnitude) :
    IsNumber (l.text (.finite negative m)) := by
  obtain ⟨s, hs, htext, hm⟩ := l.exists_finiteText negative m
  rw [IsNumber, FloatLayout.text, htext, String.toList_ofList]
  exact ⟨isLiteral_signed hs _, isNumeral_signed hs _ (by simp [hm])⟩

end IrDialects.Json.Reader
