import IrDialects.Proofs.Naming.Canonical

/-!
# Renderings of names

Which written forms of a name spell it again. Hyphens and underscores keep any two words apart. Words
that are run together are kept apart by their capitals alone, so that two numbers side by side become
one, and nothing else is lost. A qualified name is spelt again by each of its forms.
-/

namespace IrDialects

namespace Name

/-- A word of digits only. -/
def IsNumber (w : String) : Prop := ∀ c ∈ w.toList, isDigit c

instance (w : String) : Decidable (IsNumber w) := List.decidableBAll _ _

/-- No two numbers stand side by side. -/
def NumbersApart (n : Name) : Prop := n.words.IsChain fun v w => ¬ (IsNumber v ∧ IsNumber w)

instance (n : Name) : Decidable n.NumbersApart :=
  inferInstanceAs (Decidable (n.words.IsChain fun v w => ¬ (IsNumber v ∧ IsNumber w)))

variable {n : Name} {c d : Char} {t cs : List Char} {w : String} {ws : List String}
  {more : Char → Bool} {gs : List Segment}

section Characters

theorem toNat_lt_of_isWordChar (h : isWordChar c) : c.toNat < 0x80 := by
  rcases Bool.or_eq_true_iff.1 h with h | h
  · have := isLetter_iff.1 h
    omega
  · have := isDigit_iff.1 h
    omega

private theorem not_isDigit_of_isSmall (h : isSmall c) : ¬ isDigit c := by
  simp [not_isDigit_of_isLetter (isLetter_of_isSmall h)]

private theorem toNat_toUpper (h : isSmall c) : c.toUpper.toNat = c.toNat - 32 := by
  obtain ⟨hl, hu⟩ := isSmall_iff.1 h
  have hsmall : c.val ≥ 'a'.val ∧ c.val ≤ 'z'.val :=
    ⟨UInt32.le_iff_toNat_le.2 hl, UInt32.le_iff_toNat_le.2 hu⟩
  delta Char.toUpper
  rw [dif_pos hsmall]
  change (c.val + ('A'.val - 'a'.val)).toNat = _
  rw [UInt32.toNat_add]
  change (c.toNat + 4294967264) % 2 ^ 32 = _
  omega

private theorem isLetter_toUpper (h : isSmall c) : isLetter c.toUpper ∧ ¬ isSmall c.toUpper := by
  have hc := isSmall_iff.1 h
  rw [isLetter_iff, isSmall_iff, toNat_toUpper h]
  omega

private theorem toLower_toUpper (h : isSmall c) : c.toUpper.toLower = c := by
  have hc := isSmall_iff.1 h
  have hup := toNat_toUpper h
  have hcap : c.toUpper.val ≥ 'A'.val ∧ c.toUpper.val ≤ 'Z'.val := by
    refine ⟨UInt32.le_iff_toNat_le.2 ?_, UInt32.le_iff_toNat_le.2 ?_⟩
    · change 65 ≤ c.toUpper.toNat
      omega
    · change c.toUpper.toNat ≤ 90
      omega
  apply Char.toNat_inj.1
  delta Char.toLower
  rw [dif_pos hcap]
  change (c.toUpper.val + 32).toNat = _
  rw [UInt32.toNat_add]
  change (c.toUpper.toNat + 32) % 2 ^ 32 = _
  omega

end Characters

section Numbers

theorem IsToken.isDigit_of_isNumber (h : IsToken t more) (hn : IsNumber (small t)) :
    more = isDigit ∧ ∀ c ∈ t, isDigit c := by
  obtain ⟨hc, hcs⟩ | ⟨hc, hcs⟩ := h
  · rw [IsNumber, small, String.toList_ofList] at hn
    exact absurd (List.forall_mem_cons.1 hn).1 (not_isDigit_of_isSmall (isSmall_toLower hc))
  · exact ⟨rfl, List.forall_mem_cons.2 ⟨hc, hcs⟩⟩

/-- Only a number is made longer by a digit. -/
theorem IsToken.isNumber_of_more (h : IsToken t more) (hd : isDigit d) (hmore : more d) :
    IsNumber (small t) := by
  obtain ⟨hc, hcs⟩ | ⟨hc, hcs⟩ := h
  · exact absurd hd (not_isDigit_of_isSmall hmore)
  · rw [IsNumber, small, String.toList_ofList]
    refine List.forall_mem_map.2 fun e he => ?_
    have hdigit := (List.forall_mem_cons.2 ⟨hc, hcs⟩ : ∀ e ∈ _, isDigit e) e he
    rwa [toLower_eq_self (.inr hdigit)]

/-- Where nothing stands between tokens, a number is not followed by a number. -/
private theorem IsSegmented.numbers_apart (h : IsSegmented gs)
    (hchars : ∀ c ∈ spread gs, isWordChar c) :
    (gs.map fun g => small g.token).IsChain fun v w => ¬ (IsNumber v ∧ IsNumber w) := by
  induction h with
  | nil => exact .nil
  | @cons t g gs more token gap maximal rest ih =>
    simp only [spread_cons, List.forall_mem_append] at hchars
    obtain ⟨-, hgap, hrest⟩ := hchars
    obtain rfl : g = [] := List.eq_nil_iff_forall_not_mem.2 fun c hc => gap c hc (hgap c hc)
    cases rest with
    | nil => exact .singleton _
    | @cons t' g' gs more' token' gap' maximal' rest' =>
      refine List.isChain_cons_cons.2 ⟨fun hnumbers => ?_, ih hrest⟩
      obtain ⟨hmore, -⟩ := token.isDigit_of_isNumber hnumbers.1
      obtain ⟨-, hdigits⟩ := token'.isDigit_of_isNumber hnumbers.2
      obtain ⟨c, cs, rfl, -⟩ := isToken_iff.1 token'
      exact maximal c (by simp [spread_cons]) (hmore ▸ hdigits c (by simp))

/-- A text of letters and digits only does not spell two numbers side by side. -/
theorem numbersApart_ofChars (h : ∀ c ∈ cs, isWordChar c) : (ofChars cs).NumbersApart := by
  obtain ⟨d, hd⟩ := exists_cuts cs
  have hfold := fold_eq_self fun c hc => toNat_lt_of_isWordChar (h c hc)
  rw [NumbersApart, ofChars, hfold, hd.scan_eq]
  refine hd.segments.numbers_apart fun c hc => h c ?_
  rw [← hd.text]
  exact List.mem_append_right _ hc

end Numbers

section Capitals

/-- A word with a capital is a token for the same word. -/
private theorem IsWord.isToken_capitalize (h : IsWord w) :
    (∃ more, IsToken (capitalize w).toList more) ∧ small (capitalize w).toList = w := by
  obtain ⟨hne, hchars⟩ := h
  obtain ⟨c, cs, hw⟩ := List.exists_cons_of_ne_nil hne
  by_cases hc : isSmall c
  · have hcs : ∀ d ∈ c :: cs, isSmall d := by
      rw [hw] at hchars
      exact hchars.resolve_right fun hd => not_isDigit_of_isSmall hc (hd c (by simp))
    have hcap : (capitalize w).toList = c.toUpper :: cs := by simp [capitalize, hw, hc]
    have hlower : cs.map Char.toLower = cs := by
      calc cs.map Char.toLower = cs.map id :=
            List.map_congr_left fun d hd => toLower_eq_self (.inl (hcs d (by simp [hd])))
        _ = cs := List.map_id _
    rw [hcap]
    refine ⟨⟨_, .letters (isLetter_toUpper hc).1 (List.forall_mem_cons.1 hcs).2⟩, ?_⟩
    rw [small, List.map_cons, toLower_toUpper hc, hlower, ← hw, String.ofList_toList]
  · have hcap : capitalize w = w := by simp [capitalize, hw, hc]
    rw [hcap]
    exact IsWord.isToken ⟨hne, hchars⟩

/-- A word with a capital does not go on with a word before it, unless both are numbers. -/
private theorem IsWord.head_capitalize (h : IsWord w) :
    ∀ c ∈ (capitalize w).toList.head?, ¬ isSmall c ∧ (isDigit c → IsNumber w) := by
  obtain ⟨hne, hchars⟩ := h
  obtain ⟨c, cs, hw⟩ := List.exists_cons_of_ne_nil hne
  intro d hd
  by_cases hc : isSmall c
  · obtain rfl : c.toUpper = d := by simpa [capitalize, hw, hc] using hd
    obtain ⟨hletter, hcap⟩ := isLetter_toUpper hc
    exact ⟨hcap, fun hdigit => by simp [not_isDigit_of_isLetter hletter] at hdigit⟩
  · obtain rfl : c = d := by simpa [capitalize, hw, hc] using hd
    refine ⟨hc, fun _ => hchars.resolve_left fun hs => hc (hs c ?_)⟩
    simp [hw]

/-- Words run together, each with a capital. -/
def capitals (ws : List String) : List Char := ws.flatMap fun w => (capitalize w).toList

/-- Words that are run together behind a token are found again if no two numbers meet. -/
private theorem scan_capitals (ht : IsToken t more) (hws : ∀ v ∈ ws, IsWord v)
    (hapart : (small t :: ws).IsChain fun v w => ¬ (IsNumber v ∧ IsNumber w)) :
    scan [] (t ++ capitals ws) = small t :: ws := by
  induction ws generalizing t more with
  | nil => exact scan_token ht (by simp [capitals])
  | cons v vs ih =>
    rw [List.forall_mem_cons] at hws
    obtain ⟨hpair, hrest⟩ := List.isChain_cons_cons.1 hapart
    obtain ⟨⟨more', hv⟩, hsmall⟩ := hws.1.isToken_capitalize
    obtain ⟨c, cs, hcap, -⟩ := isToken_iff.1 hv
    obtain ⟨hnotSmall, hnumber⟩ := hws.1.head_capitalize c (by simp [hcap])
    have hstop : ¬ more c := by
      intro hmore
      rcases Bool.or_eq_true_iff.1 (ht.isWordChar_of_more hmore) with hletter | hdigit
      · cases ht with
        | letters => exact hnotSmall hmore
        | digits => simp [not_isDigit_of_isLetter hletter] at hmore
      · exact hpair ⟨ht.isNumber_of_more hdigit hmore, hnumber hdigit⟩
    have hsplit : capitals (v :: vs) = (capitalize v).toList ++ capitals vs := by simp [capitals]
    have hnext := ih hv hws.2 (by rwa [hsmall])
    rw [hsplit, scan_token ht (by simpa [hcap] using hstop), hnext, hsmall]

private theorem isWordChar_capitals (hws : ∀ v ∈ ws, IsWord v) :
    ∀ c ∈ capitals ws, isWordChar c := by
  refine List.forall_mem_flatMap.2 fun v hv => ?_
  obtain ⟨⟨more, htoken⟩, -⟩ := (hws v hv).isToken_capitalize
  exact htoken.isWordChar

/-- Words that are run together behind a token are read back exactly if no two numbers meet. -/
private theorem ofChars_capitals_iff (ht : IsToken t more) (hws : ∀ v ∈ ws, IsWord v) :
    ofChars (t ++ capitals ws) = ⟨small t :: ws⟩ ↔ NumbersApart ⟨small t :: ws⟩ := by
  have hchars : ∀ c ∈ t ++ capitals ws, isWordChar c :=
    List.forall_mem_append.2 ⟨ht.isWordChar, isWordChar_capitals hws⟩
  constructor
  · intro h
    rw [← h]
    exact numbersApart_ofChars hchars
  · intro h
    rw [ofChars, fold_eq_self fun c hc => toNat_lt_of_isWordChar (hchars c hc),
      scan_capitals ht hws h]

end Capitals

theorem toList_title (n : Name) : n.title.toList = capitals n.words := by
  rw [title, String.toList_join, List.flatMap_map, capitals]

/-- Words joined by underscores are read back. -/
theorem Canonical.parse_snake (h : n.Canonical) : parse n.snake = n := by
  have hsnake : n.snake.toList = ['_'].intercalate (n.words.map String.toList) := by
    rw [snake, String.toList_intercalate]
    rfl
  have hchars : ∀ c ∈ n.snake.toList, c.toNat < 0x80 := by
    rw [hsnake]
    refine Text.forall_mem_intercalate (List.forall_mem_map.2 fun w hw c hc => ?_) (by decide)
    exact ((h w hw).isPlain c hc).toNat_lt
  rw [parse, ofChars, fold_eq_self hchars, hsnake, scan_intercalate (by decide) h]

/-- Words that each begin with a capital are read back exactly if no two numbers meet. -/
theorem Canonical.parse_title_iff (h : n.Canonical) : parse n.title = n ↔ n.NumbersApart := by
  obtain ⟨ws⟩ := n
  rw [parse, toList_title]
  cases ws with
  | nil => exact iff_of_true rfl .nil
  | cons w ws =>
    have hws := List.forall_mem_cons.1 h
    obtain ⟨⟨more, ht⟩, hsmall⟩ := hws.1.isToken_capitalize
    have hiff := ofChars_capitals_iff ht hws.2
    rwa [hsmall] at hiff

/-- Words that each but the first begin with a capital are read back exactly if no two numbers
meet. -/
theorem Canonical.parse_camel_iff (h : n.Canonical) : parse n.camel = n ↔ n.NumbersApart := by
  obtain ⟨ws⟩ := n
  cases ws with
  | nil => exact iff_of_true rfl .nil
  | cons w ws =>
    have hws := List.forall_mem_cons.1 h
    obtain ⟨⟨more, ht⟩, hsmall⟩ := hws.1.isToken
    have hchars : (camel ⟨w :: ws⟩).toList = w.toList ++ capitals ws := by
      simp [camel, String.toList_join, List.flatMap_map, capitals]
    have hiff := ofChars_capitals_iff ht hws.2
    rwa [hsmall, ← hchars] at hiff

/-- The words of a parsed name joined by hyphens or underscores spell the name again; run together
with capitals they do exactly if no two numbers stand side by side. A name that is given by its words
is spelt by its canonical form exactly if every word is a run of small letters or of digits. -/
theorem renderings_read_back (s : String) (ws : List String) :
    (parse (parse s).kebab = parse s ∧ parse (parse s).snake = parse s ∧
      (parse (parse s).camel = parse s ↔ (parse s).NumbersApart) ∧
      (parse (parse s).title = parse s ↔ (parse s).NumbersApart)) ∧
    ((⟨ws⟩ : Name) = parse (kebab ⟨ws⟩) ↔ ∀ w ∈ ws, IsWord w) := by
  have h : (parse s).Canonical := canonical_ofChars _
  refine ⟨⟨h.parse_kebab, h.parse_snake, h.parse_camel_iff, h.parse_title_iff⟩, ?_⟩
  rw [eq_comm]
  exact (canonical_iff (n := ⟨ws⟩)).symm

example : ¬ NumbersApart ⟨["v", "1", "2"]⟩ ∧ parse (camel ⟨["v", "1", "2"]⟩) = ⟨["v", "12"]⟩ := by
  decide

end Name

namespace FQName

/-- A text is read as a fully qualified name if it has two colons and no hash, or a colon and then a
hash, and there is a word behind them. The three parts are then the package, the module and the local
name, and what is read is read back from both of its written forms; without its package it is read
back from `module:local`. -/
theorem accepts_its_two_forms (s : String) :
    ((parse? s).isSome ↔
      (separators s.toList = [':', ':'] ∨ separators s.toList = [':', '#']) ∧
        ∃ loc ∈ (parts s.toList).getLast?, (Name.ofChars loc).words ≠ []) ∧
    ∀ f, parse? s = some f →
      (∃ pkg mod loc, parts s.toList = [pkg, mod, loc] ∧
        f = ⟨Path.ofChars pkg, Path.ofChars mod, Name.ofChars loc⟩) ∧
      parse? f.text = some f ∧ parse? f.hashText = some f ∧
      QName.parse? f.qname.text = some f.qname := by
  refine ⟨?_, fun f hf => ?_⟩
  · rw [Option.isSome_iff_exists]
    constructor
    · rintro ⟨f, hf⟩
      obtain ⟨hseps, pkg, mod, loc, hparts, hword, -⟩ := ofChars?_eq_some_iff.1 hf
      exact ⟨hseps, loc, by simp [hparts], by simpa [Name.isEmpty] using hword⟩
    · rintro ⟨hseps, last, hlast, hword⟩
      -- Two separators leave three parts, whatever the second of them is.
      obtain ⟨pkg, mod, loc, hparts⟩ : ∃ pkg mod loc, parts s.toList = [pkg, mod, loc] := by
        rcases hseps with hseps | hseps
        · obtain ⟨pkg, mod, loc, -, -, -, -, hparts⟩ := exists_of_separators_pair hseps
          exact ⟨pkg, mod, loc, hparts⟩
        · obtain ⟨pkg, mod, loc, -, -, -, -, hparts⟩ := exists_of_separators_pair hseps
          exact ⟨pkg, mod, loc, hparts⟩
      obtain rfl : loc = last := by simpa [hparts] using hlast
      have hloc : (Name.ofChars loc).isEmpty = false := by simpa [Name.isEmpty] using hword
      exact ⟨_, ofChars?_eq_some_iff.2 ⟨hseps, pkg, mod, loc, hparts, hloc, rfl⟩⟩
  · have h := canonical_of_parse? hf
    obtain ⟨-, pkg, mod, loc, hparts, -, heq⟩ := ofChars?_eq_some_iff.1 hf
    exact ⟨⟨pkg, mod, loc, hparts, heq⟩, h.parse?_text, h.parse?_hashText, h.parse?_qname⟩

end FQName

end IrDialects
