import IrDialects.Naming.FQName
import IrDialects.Proofs.Text.Pieces

/-!
# Written forms of qualified names

Which texts are read as qualified names, by the colons and hashes in them. A fully qualified name has
two colons, or a colon and then a hash, and its parts are what stands between. A name that is relative
to a package has a colon or a hash; of a text with hashes only the first one counts.
-/

namespace IrDialects

namespace FQName

/-- A character between the parts of a written qualified name. -/
def isSeparator (c : Char) : Bool := c = ':' || c = '#'

/-- The colons and hashes of a text, in order. -/
def separators (cs : List Char) : List Char := cs.filter isSeparator

/-- What stands between the colons and hashes of a text. -/
def parts (cs : List Char) : List (List Char) := cs.splitOnP isSeparator

/-- No colon and no hash. -/
def IsPart (cs : List Char) : Prop := ∀ c ∈ cs, isSeparator c = false

variable {cs pkg mod loc : List Char} {c d : Char} {f : FQName} {q : QName}

theorem isPart_iff : IsPart cs ↔ ':' ∉ cs ∧ '#' ∉ cs := by
  simp only [IsPart, isSeparator, Bool.or_eq_false_iff, decide_eq_false_iff_not]
  constructor
  · exact fun h => ⟨fun hc => (h _ hc).1 rfl, fun hc => (h _ hc).2 rfl⟩
  · rintro ⟨hcolon, hhash⟩ c hc
    exact ⟨fun e => hcolon (e ▸ hc), fun e => hhash (e ▸ hc)⟩

section Separators

theorem separators_of_isPart (h : IsPart cs) : separators cs = [] :=
  List.filter_eq_nil_iff.2 fun c hc => by simp [h c hc]

theorem isPart_of_separators (h : separators cs = []) : IsPart cs :=
  fun c hc => by simpa using List.filter_eq_nil_iff.1 h c hc

theorem parts_of_isPart (h : IsPart cs) : parts cs = [cs] := List.splitOnP_eq_singleton h

theorem separators_append (h : IsPart mod) (hc : isSeparator c) :
    separators (mod ++ c :: loc) = c :: separators loc := by
  have hmod := separators_of_isPart h
  rw [separators] at hmod
  rw [separators, List.filter_append, hmod, List.nil_append, List.filter_cons_of_pos hc, separators]

theorem parts_append (h : IsPart mod) (hc : isSeparator c) :
    parts (mod ++ c :: loc) = mod :: parts loc :=
  List.splitOnP_append_cons_of_forall_mem h c hc loc

/-- A text is made up of what stands before its first separator, the separator and the rest. -/
theorem exists_of_separators_cons {seps : List Char} (h : separators cs = c :: seps) :
    ∃ mod loc, cs = mod ++ c :: loc ∧ IsPart mod ∧ isSeparator c ∧ separators loc = seps := by
  obtain ⟨mod, loc, rfl, hmod, hc, hloc⟩ := List.filter_eq_cons_iff.1 h
  exact ⟨mod, loc, rfl, fun c hc => by simpa using hmod c hc, hc, hloc⟩

theorem exists_of_separators_pair (h : separators cs = [c, d]) :
    ∃ pkg mod loc, cs = pkg ++ c :: (mod ++ d :: loc) ∧ IsPart pkg ∧ IsPart mod ∧ IsPart loc ∧
      parts cs = [pkg, mod, loc] := by
  obtain ⟨pkg, rest, rfl, hpkg, hc, hrest⟩ := exists_of_separators_cons h
  obtain ⟨mod, loc, rfl, hmod, hd, hloc⟩ := exists_of_separators_cons hrest
  have hloc := isPart_of_separators hloc
  exact ⟨pkg, mod, loc, rfl, hpkg, hmod, hloc,
    by rw [parts_append hpkg hc, parts_append hmod hd, parts_of_isPart hloc]⟩

end Separators

section Absolute

theorem qname_ofParts?_eq_some_iff : QName.ofParts? mod loc = some q ↔
    (Name.ofChars loc).isEmpty = false ∧ q = ⟨Path.ofChars mod, Name.ofChars loc⟩ := by
  rw [QName.ofParts?]
  split
  · rename_i h
    simp [h]
  · rename_i h
    simpa [h] using eq_comm

theorem ofParts?_eq_some_iff : ofParts? pkg mod loc = some f ↔
    (Name.ofChars loc).isEmpty = false ∧
      f = ⟨Path.ofChars pkg, Path.ofChars mod, Name.ofChars loc⟩ := by
  simp only [ofParts?, Option.map_eq_some_iff, qname_ofParts?_eq_some_iff, and_assoc,
    exists_and_left, exists_eq_left]
  rw [eq_comm (a := f)]

/-- Three parts with colons between them. -/
theorem ofChars?_colons (hpkg : IsPart pkg) (hmod : IsPart mod) (hloc : IsPart loc) :
    ofChars? (pkg ++ ':' :: (mod ++ ':' :: loc)) = ofParts? pkg mod loc := by
  rw [isPart_iff] at hpkg hmod hloc
  have hhash : '#' ∉ pkg ++ ':' :: (mod ++ ':' :: loc) := by simp [hpkg.2, hmod.2, hloc.2]
  have hpieces : Text.pieces ':' (pkg ++ ':' :: (mod ++ ':' :: loc)) = [pkg, mod, loc] :=
    Text.pieces_eq_triple_iff.2 ⟨hpkg.1, hmod.1, hloc.1, rfl⟩
  rw [ofChars?, Text.cut?_eq_none hhash, hpieces]

/-- Three parts, the last one behind a hash. -/
theorem ofChars?_hash (hpkg : IsPart pkg) (hmod : IsPart mod) (hloc : IsPart loc) :
    ofChars? (pkg ++ ':' :: (mod ++ '#' :: loc)) = ofParts? pkg mod loc := by
  rw [isPart_iff] at hpkg hmod hloc
  have hhead : '#' ∉ pkg ++ ':' :: mod := by simp [hpkg.2, hmod.2]
  have hpieces : Text.pieces ':' (pkg ++ ':' :: mod) = [pkg, mod] :=
    Text.pieces_eq_pair_iff.2 ⟨hpkg.1, hmod.1, rfl⟩
  have hcut := Text.cut?_append hhead loc
  rw [List.append_assoc, List.cons_append] at hcut
  rw [ofChars?, hcut]
  simp [hpieces, hloc.1, hloc.2]

/-- Nothing else is read as a fully qualified name. -/
theorem separators_of_ofChars? (h : ofChars? cs = some f) :
    separators cs = [':', ':'] ∨ separators cs = [':', '#'] := by
  rw [ofChars?] at h
  split at h
  · rename_i head loc hcut
    obtain ⟨hhead, rfl⟩ := Text.cut?_eq_some_iff.1 hcut
    split at h
    · cases h
    · rename_i htail
      split at h
      · rename_i pkg mod hpieces
        obtain ⟨hpkg, hmod, rfl⟩ := Text.pieces_eq_pair_iff.1 hpieces
        simp only [List.mem_append, List.mem_cons, not_or] at hhead
        have hpkg := isPart_iff.2 ⟨hpkg, hhead.1⟩
        have hmod := isPart_iff.2 ⟨hmod, hhead.2.2⟩
        have hloc : IsPart loc := isPart_iff.2 (by simpa [and_comm] using htail)
        right
        rw [List.append_assoc, List.cons_append, separators_append hpkg rfl,
          separators_append hmod rfl, separators_of_isPart hloc]
      · cases h
  · rename_i hcut
    have hhash := Text.cut?_eq_none_iff.1 hcut
    split at h
    · rename_i pkg mod loc hpieces
      obtain ⟨hpkg, hmod, hloc, rfl⟩ := Text.pieces_eq_triple_iff.1 hpieces
      simp only [List.mem_append, List.mem_cons, not_or] at hhash
      have hpkg := isPart_iff.2 ⟨hpkg, hhash.1⟩
      have hmod := isPart_iff.2 ⟨hmod, hhash.2.2.1⟩
      have hloc := isPart_iff.2 ⟨hloc, hhash.2.2.2.2⟩
      left
      rw [separators_append hpkg rfl, separators_append hmod rfl, separators_of_isPart hloc]
    · cases h

/-- A fully qualified name has two colons, or a colon and then a hash, and a word behind them. -/
theorem ofChars?_eq_some_iff : ofChars? cs = some f ↔
    (separators cs = [':', ':'] ∨ separators cs = [':', '#']) ∧
      ∃ pkg mod loc, parts cs = [pkg, mod, loc] ∧ (Name.ofChars loc).isEmpty = false ∧
        f = ⟨Path.ofChars pkg, Path.ofChars mod, Name.ofChars loc⟩ := by
  simp only [← ofParts?_eq_some_iff]
  constructor
  · intro h
    have hseps := separators_of_ofChars? h
    refine ⟨hseps, ?_⟩
    rcases hseps with hseps | hseps
    · obtain ⟨pkg, mod, loc, rfl, hpkg, hmod, hloc, hparts⟩ := exists_of_separators_pair hseps
      exact ⟨pkg, mod, loc, hparts, ofChars?_colons hpkg hmod hloc ▸ h⟩
    · obtain ⟨pkg, mod, loc, rfl, hpkg, hmod, hloc, hparts⟩ := exists_of_separators_pair hseps
      exact ⟨pkg, mod, loc, hparts, ofChars?_hash hpkg hmod hloc ▸ h⟩
  · rintro ⟨hseps | hseps, pkg, mod, loc, hparts, h⟩
    · obtain ⟨pkg', mod', loc', rfl, hpkg, hmod, hloc, hparts'⟩ := exists_of_separators_pair hseps
      cases hparts'.symm.trans hparts
      rwa [ofChars?_colons hpkg hmod hloc]
    · obtain ⟨pkg', mod', loc', rfl, hpkg, hmod, hloc, hparts'⟩ := exists_of_separators_pair hseps
      cases hparts'.symm.trans hparts
      rwa [ofChars?_hash hpkg hmod hloc]

end Absolute

section Relative

/-- `cs` is `mod` and `loc` with a colon between them that is its only separator, or with a hash that
is its first separator and has no colon behind it. -/
def IsRelative (cs mod loc : List Char) : Prop :=
  IsPart mod ∧ (cs = mod ++ ':' :: loc ∧ IsPart loc ∨ cs = mod ++ '#' :: loc ∧ ':' ∉ loc)

/-- Two parts with a colon between them. -/
theorem qname_ofChars?_append (hmod : ':' ∉ mod) (hloc : ':' ∉ loc) :
    QName.ofChars? (mod ++ ':' :: loc) = QName.ofParts? mod loc := by
  rw [QName.ofChars?, Text.pieces_eq_pair_iff.2 ⟨hmod, hloc, rfl⟩]

theorem exists_of_qname_ofChars? (h : QName.ofChars? cs = some q) :
    ∃ mod loc, cs = mod ++ ':' :: loc ∧ ':' ∉ mod ∧ ':' ∉ loc ∧
      QName.ofParts? mod loc = some q := by
  rw [QName.ofChars?] at h
  split at h
  · rename_i mod loc hpieces
    obtain ⟨hmod, hloc, rfl⟩ := Text.pieces_eq_pair_iff.1 hpieces
    exact ⟨mod, loc, rfl, hmod, hloc, h⟩
  · cases h

/-- Reading the first hash as a colon leaves two parts exactly if the text is relative. -/
theorem qname_ofChars?_replaceFirst : QName.ofChars? (Text.replaceFirst '#' ':' cs) = some q ↔
    ∃ mod loc, IsRelative cs mod loc ∧ QName.ofParts? mod loc = some q := by
  constructor
  · intro h
    obtain ⟨mod, loc, heq, hmod, hloc, hq⟩ := exists_of_qname_ofChars? h
    refine ⟨mod, loc, ?_, hq⟩
    by_cases hhash : '#' ∈ cs
    · obtain ⟨front, back, rfl, hfront⟩ := List.eq_append_cons_of_mem hhash
      rw [Text.replaceFirst_append _ hfront] at heq
      -- The colon from the hash is the only one, so it is the one between the parts.
      have hcolon : ':' ∉ front := by
        have hcount := congrArg (List.count ':') heq
        simp only [List.count_append, List.count_cons_self, List.count_eq_zero.2 hmod,
          List.count_eq_zero.2 hloc] at hcount
        exact List.count_eq_zero.1 (by omega)
      have hcut := Text.cut?_append hcolon back
      rw [heq, Text.cut?_append hmod] at hcut
      cases hcut
      exact ⟨isPart_iff.2 ⟨hmod, hfront⟩, .inr ⟨rfl, hloc⟩⟩
    · rw [Text.replaceFirst_eq_self _ hhash] at heq
      subst heq
      simp only [List.mem_append, List.mem_cons, not_or] at hhash
      exact ⟨isPart_iff.2 ⟨hmod, hhash.1⟩, .inl ⟨rfl, isPart_iff.2 ⟨hloc, hhash.2.2⟩⟩⟩
  · rintro ⟨mod, loc, ⟨hmod, ⟨rfl, hloc⟩ | ⟨rfl, hloc⟩⟩, h⟩
    · rw [isPart_iff] at hmod hloc
      have hhash : '#' ∉ mod ++ ':' :: loc := by simp [hmod.2, hloc.2]
      rwa [Text.replaceFirst_eq_self _ hhash, qname_ofChars?_append hmod.1 hloc.1]
    · rw [isPart_iff] at hmod
      rwa [Text.replaceFirst_append _ hmod.2, qname_ofChars?_append hmod.1 hloc]

/-- A relative text is not fully qualified: its first separator is a hash, or there is only one. -/
theorem IsRelative.ofChars?_ne_some (h : IsRelative cs mod loc) : ofChars? cs ≠ some f := by
  intro hf
  have hseps := separators_of_ofChars? hf
  obtain ⟨hmod, ⟨rfl, hloc⟩ | ⟨rfl, -⟩⟩ := h
  · rw [separators_append hmod rfl, separators_of_isPart hloc] at hseps
    simp at hseps
  · rw [separators_append hmod rfl] at hseps
    simp at hseps

/-- What is read relative to a package is fully qualified or relative, and then in that package. -/
theorem parseIn?_eq_some_iff {s : String} {p : Path} : parseIn? s p = some f ↔
    parse? s = some f ∨ ∃ mod loc, IsRelative s.toList mod loc ∧
      (Name.ofChars loc).isEmpty = false ∧ f = ⟨p, Path.ofChars mod, Name.ofChars loc⟩ := by
  rw [parseIn?]
  cases hs : parse? s with
  | some g =>
    refine ⟨.inl, ?_⟩
    rintro (h | ⟨mod, loc, hrel, -⟩)
    · exact h
    · exact absurd hs hrel.ofChars?_ne_some
  | none =>
    simp only [reduceCtorEq, false_or, Option.map_eq_some_iff, qname_ofChars?_replaceFirst,
      qname_ofParts?_eq_some_iff]
    constructor
    · rintro ⟨q, ⟨mod, loc, hrel, hword, rfl⟩, rfl⟩
      exact ⟨mod, loc, hrel, hword, rfl⟩
    · rintro ⟨mod, loc, hrel, hword, rfl⟩
      exact ⟨_, ⟨mod, loc, hrel, hword, rfl⟩, rfl⟩

/-- Several hashes and no colon. -/
def IsOvermarked (cs : List Char) : Prop :=
  2 ≤ (separators cs).length ∧ ∀ c ∈ separators cs, c = '#'

theorem separators_eq_hash_iff : (∀ c ∈ separators cs, c = '#') ↔ ':' ∉ cs := by
  simp only [separators, List.mem_filter, isSeparator, Bool.or_eq_true, decide_eq_true_eq]
  constructor
  · intro h hmem
    exact absurd (h ':' ⟨hmem, .inl rfl⟩) (by decide)
  · rintro h c ⟨hc, rfl | rfl⟩
    · exact absurd hc h
    · rfl

/-- Unless it has several hashes and no colon, a text is relative if it has one separator. -/
theorem isRelative_iff (h : ¬ IsOvermarked cs) :
    IsRelative cs mod loc ↔ (∃ c, separators cs = [c]) ∧ parts cs = [mod, loc] := by
  constructor
  · rintro ⟨hmod, ⟨rfl, hloc⟩ | ⟨rfl, hloc⟩⟩
    · rw [separators_append hmod rfl, separators_of_isPart hloc, parts_append hmod rfl,
        parts_of_isPart hloc]
      exact ⟨⟨_, rfl⟩, rfl⟩
    · have hhashes := separators_eq_hash_iff.2 hloc
      -- A further hash in the name would make several, with no colon.
      have hnil : separators loc = [] := by
        by_contra hne
        refine h ⟨?_, ?_⟩
        · rw [separators_append hmod rfl, List.length_cons]
          have := List.length_pos_iff.2 hne
          omega
        · rw [separators_append hmod rfl]
          exact List.forall_mem_cons.2 ⟨rfl, hhashes⟩
      rw [separators_append hmod rfl, hnil, parts_append hmod rfl,
        parts_of_isPart (isPart_of_separators hnil)]
      exact ⟨⟨_, rfl⟩, rfl⟩
  · rintro ⟨⟨c, hc⟩, hparts⟩
    obtain ⟨mod', loc', rfl, hmod, hsep, hloc⟩ := exists_of_separators_cons hc
    have hloc := isPart_of_separators hloc
    rw [parts_append hmod hsep, parts_of_isPart hloc] at hparts
    cases hparts
    refine ⟨hmod, ?_⟩
    simp only [isSeparator, Bool.or_eq_true, decide_eq_true_eq] at hsep
    rcases hsep with rfl | rfl
    · exact .inl ⟨rfl, hloc⟩
    · exact .inr ⟨rfl, (isPart_iff.1 hloc).1⟩

/-- A text with several hashes and no colon is relative with the first hash as its separator. -/
theorem isRelative_iff_of_isOvermarked (h : IsOvermarked cs) :
    IsRelative cs mod loc ↔ Text.cut? '#' cs = some (mod, loc) := by
  have hcolon := separators_eq_hash_iff.1 h.2
  rw [Text.cut?_eq_some_iff]
  constructor
  · rintro ⟨hmod, ⟨rfl, -⟩ | ⟨rfl, -⟩⟩
    · simp at hcolon
    · exact ⟨(isPart_iff.1 hmod).2, rfl⟩
  · rintro ⟨hmod, rfl⟩
    simp only [List.mem_append, List.mem_cons, not_or] at hcolon
    exact ⟨isPart_iff.2 ⟨hcolon.1, hmod⟩, .inr ⟨rfl, hcolon.2.2⟩⟩

/-- `s` refers to `f` from inside `p`: it is fully qualified, or it is a module and a name in it with
one separator. -/
def RefersTo (s : String) (p : Path) (f : FQName) : Prop :=
  parse? s = some f ∨ (∃ c, separators s.toList = [c]) ∧ ∃ mod loc, parts s.toList = [mod, loc] ∧
    (Name.ofChars loc).isEmpty = false ∧ f = ⟨p, Path.ofChars mod, Name.ofChars loc⟩

/-- A text is read relative to a package as what it refers to from inside that package, unless it has
several hashes and no colon. Then what stands behind the first hash is read as one name. -/
theorem reads_references_up_to_hashes (s : String) (p : Path) :
    (¬ IsOvermarked s.toList → ∀ f, parseIn? s p = some f ↔ RefersTo s p f) ∧
      (IsOvermarked s.toList → ∀ f, parseIn? s p = some f ↔
        ∃ mod loc, Text.cut? '#' s.toList = some (mod, loc) ∧ (Name.ofChars loc).isEmpty = false ∧
          f = ⟨p, Path.ofChars mod, Name.ofChars loc⟩) := by
  constructor
  · intro h f
    rw [parseIn?_eq_some_iff, RefersTo]
    simp only [isRelative_iff h, and_assoc, exists_and_left]
  · intro h f
    -- A fully qualified name has a colon, so only the relative reading is left.
    have hnone : parse? s ≠ some f := by
      intro hf
      have hcolon := separators_of_ofChars? hf
      rcases hcolon with hseps | hseps
      · exact absurd (h.2 ':' (by simp [hseps])) (by decide)
      · exact absurd (h.2 ':' (by simp [hseps])) (by decide)
    rw [parseIn?_eq_some_iff]
    simp only [hnone, false_or, isRelative_iff_of_isOvermarked h]

/-- Two hashes are read as one separator, though a reference has no more than one. -/
theorem doubled_hash_is_read :
    parseIn? "a##b" (.parse "acme/finance") = some (ofParts "acme/finance" "a" "b") ∧
      ∀ f, ¬ RefersTo "a##b" (.parse "acme/finance") f := by
  refine ⟨by decide, fun f h => ?_⟩
  have hnone : parse? "a##b" = none := by decide
  have hseps : separators "a##b".toList = ['#', '#'] := by decide
  rcases h with h | ⟨⟨c, hc⟩, -⟩
  · rw [hnone] at h
    cases h
  · rw [hseps] at hc
    cases hc

end Relative

end FQName

end IrDialects
