import IrDialects.Proofs.Naming.Qualified
import IrDialects.Proofs.Naming.Segmentation

/-!
# Canonical names

A name is canonical if each of its words is a run of small letters or a run of digits. The written
form of a canonical name is cut into the same words again, so canonical names are read back from
texts, alone, in paths and in qualified names.
-/

namespace IrDialects

namespace Name

/-- Every word is a run of small letters or a run of digits. -/
def Canonical (n : Name) : Prop := ∀ w ∈ n.words, IsWord w

instance (n : Name) : Decidable n.Canonical := inferInstanceAs (Decidable (∀ w ∈ n.words, IsWord w))

/-- The characters of canonical names: words and the hyphens between them. -/
def IsPlain (c : Char) : Prop := isSmall c ∨ isDigit c ∨ c = '-'

theorem IsPlain.toNat_lt {c : Char} (h : IsPlain c) : c.toNat < 0x80 := by
  rcases h with h | h | rfl
  · have := isSmall_iff.1 h
    omega
  · have := isDigit_iff.1 h
    omega
  · decide

/-- Words joined by a character of no word are cut apart again. -/
theorem scan_intercalate {sep : Char} (hsep : ¬ isWordChar sep) {ws : List String}
    (h : ∀ w ∈ ws, IsWord w) : scan [] ([sep].intercalate (ws.map String.toList)) = ws := by
  induction ws with
  | nil => rfl
  | cons w ws ih =>
    rw [List.forall_mem_cons] at h
    obtain ⟨⟨more, htoken⟩, hsmall⟩ := h.1.isToken
    cases ws with
    | nil =>
      have hend : scan [] (w.toList ++ []) = small w.toList :: scan [] [] :=
        scan_token htoken (by simp)
      rw [List.append_nil] at hend
      rw [List.map_singleton, List.intercalate_singleton, hend, hsmall, scan, finish]
    | cons v vs =>
      have hstop : ∀ d ∈ (sep :: [sep].intercalate ((v :: vs).map String.toList)).head?, ¬ more d := by
        intro d hd hmore
        obtain rfl : sep = d := by simpa using hd
        exact hsep (htoken.isWordChar_of_more hmore)
      have hnext : scan [] (sep :: [sep].intercalate ((v :: vs).map String.toList)) = v :: vs := by
        have hgap : IsGap [sep] := by simpa [IsGap] using hsep
        rw [← List.singleton_append, scan_gap hgap, ih h.2]
      rw [List.map_cons, List.map_cons, List.intercalate_cons_cons, List.append_assoc,
        List.singleton_append, ← List.map_cons, scan_token htoken hstop, hsmall, hnext]

variable {n : Name}

theorem toList_kebab (n : Name) : n.kebab.toList = ['-'].intercalate (n.words.map String.toList) := by
  rw [kebab, String.toList_intercalate]
  rfl

theorem IsWord.isPlain {w : String} (h : IsWord w) : ∀ c ∈ w.toList, IsPlain c := by
  rcases h.2 with hc | hc
  · exact fun c hm => .inl (hc c hm)
  · exact fun c hm => .inr (.inl (hc c hm))

theorem Canonical.isPlain (h : n.Canonical) : ∀ c ∈ n.kebab.toList, IsPlain c := by
  rw [toList_kebab]
  exact Text.forall_mem_intercalate (List.forall_mem_map.2 fun w hw => (h w hw).isPlain)
    (.inr (.inr rfl))

theorem Canonical.ofChars_kebab (h : n.Canonical) : ofChars n.kebab.toList = n := by
  rw [ofChars, fold_eq_self fun c hc => (h.isPlain c hc).toNat_lt, toList_kebab,
    scan_intercalate (by decide) h]

/-- A canonical name is read back from its written form. -/
@[simp] theorem Canonical.parse_kebab (h : n.Canonical) : parse n.kebab = n := h.ofChars_kebab

/-- Whatever the text is, the name that it spells is canonical. -/
theorem canonical_ofChars (cs : List Char) : (ofChars cs).Canonical := isWord_of_mem_scan

/-- No other name is read back from its written form. -/
theorem canonical_iff : n.Canonical ↔ parse n.kebab = n := by
  constructor
  · exact fun h => h.parse_kebab
  · intro h
    rw [← h]
    exact canonical_ofChars _

theorem kebab_inj {n' : Name} (h : n.Canonical) (h' : n'.Canonical) (e : n.kebab = n'.kebab) :
    n = n' := by
  rw [← h.parse_kebab, e, h'.parse_kebab]

end Name

namespace Path

/-- Every name of a path is canonical and has a word. -/
def Canonical (p : Path) : Prop := ∀ n ∈ p.names, n.Canonical ∧ n.words ≠ []

instance (p : Path) : Decidable p.Canonical :=
  inferInstanceAs (Decidable (∀ n ∈ p.names, n.Canonical ∧ n.words ≠ []))

variable {p : Path}

theorem toList_text (p : Path) :
    p.text.toList = ['/'].intercalate (p.names.map fun n => n.kebab.toList) := by
  rw [text, String.toList_intercalate, List.map_map]
  rfl

theorem Canonical.ofChars_text (h : p.Canonical) : ofChars p.text.toList = p := by
  obtain ⟨ns⟩ := p
  rw [toList_text]
  cases ns with
  | nil => rfl
  | cons n ns =>
    have hsep : ∀ cs ∈ (n :: ns).map fun n => n.kebab.toList, '/' ∉ cs := by
      refine List.forall_mem_map.2 fun m hm hmem => ?_
      have hplain := (h m hm).1.isPlain '/' hmem
      exact absurd hplain (by unfold Name.IsPlain; decide)
    have hread : ((n :: ns).map fun n => n.kebab.toList).map Name.ofChars = n :: ns := by
      rw [List.map_map]
      calc (n :: ns).map (Name.ofChars ∘ fun n => n.kebab.toList) = (n :: ns).map id :=
            List.map_congr_left fun m hm => (h m hm).1.ofChars_kebab
        _ = n :: ns := List.map_id _
    have hfull : (n :: ns).filter (fun m => !m.isEmpty) = n :: ns :=
      List.filter_eq_self.2 fun m hm => by simpa [Name.isEmpty] using (h m hm).2
    rw [ofChars, Text.pieces_intercalate hsep (by simp), hread, hfull]

/-- A canonical path is read back from its written form. -/
@[simp] theorem Canonical.parse_text (h : p.Canonical) : parse p.text = p := h.ofChars_text

theorem canonical_ofChars (cs : List Char) : (ofChars cs).Canonical := by
  intro n hn
  obtain ⟨hmem, hne⟩ := List.mem_filter.1 hn
  obtain ⟨cs, -, rfl⟩ := List.mem_map.1 hmem
  exact ⟨Name.canonical_ofChars cs, by simpa [Name.isEmpty] using hne⟩

theorem canonical_iff : p.Canonical ↔ parse p.text = p := by
  constructor
  · exact fun h => h.parse_text
  · intro h
    rw [← h]
    exact canonical_ofChars _

theorem text_inj {p' : Path} (h : p.Canonical) (h' : p'.Canonical) (e : p.text = p'.text) :
    p = p' := by
  rw [← h.parse_text, e, h'.parse_text]

end Path

namespace FQName

/-- The paths and the local name are canonical, and the local name has a word. -/
structure Canonical (f : FQName) : Prop where
  packagePath : f.packagePath.Canonical
  modulePath : f.modulePath.Canonical
  localName : f.localName.Canonical
  nonempty : f.localName.words ≠ []

theorem isPart_kebab {n : Name} (h : n.Canonical) : IsPart n.kebab.toList := by
  intro c hc
  by_contra hsep
  have hplain := h.isPlain c hc
  simp only [isSeparator, Bool.not_eq_false, Bool.or_eq_true, decide_eq_true_eq] at hsep
  rcases hsep with rfl | rfl
  · exact absurd hplain (by unfold Name.IsPlain; decide)
  · exact absurd hplain (by unfold Name.IsPlain; decide)

theorem isPart_text {p : Path} (h : p.Canonical) : IsPart p.text.toList := by
  rw [Path.toList_text]
  exact Text.forall_mem_intercalate (List.forall_mem_map.2 fun n hn => isPart_kebab (h n hn).1) rfl

variable {f : FQName}

/-- The written parts of a canonical qualified name make it up again. -/
theorem Canonical.ofParts?_chars (h : f.Canonical) :
    ofParts? f.packagePath.text.toList f.modulePath.text.toList f.localName.kebab.toList =
      some f := by
  have hfull : f.localName.isEmpty = false := by simpa [Name.isEmpty] using h.nonempty
  simp [ofParts?, QName.ofParts?, h.localName.ofChars_kebab, hfull, h.packagePath.ofChars_text,
    h.modulePath.ofChars_text]

/-- A canonical qualified name is read back from the form with a hash. -/
@[simp] theorem Canonical.parse?_hashText (h : f.Canonical) : parse? f.hashText = some f := by
  have hchars : f.hashText.toList = f.packagePath.text.toList ++
      ':' :: (f.modulePath.text.toList ++ '#' :: f.localName.kebab.toList) := by simp [hashText]
  rw [parse?, hchars, ofChars?_hash (isPart_text h.packagePath) (isPart_text h.modulePath)
    (isPart_kebab h.localName), h.ofParts?_chars]

/-- A canonical qualified name is read back from the form with colons only. -/
@[simp] theorem Canonical.parse?_text (h : f.Canonical) : parse? f.text = some f := by
  have hchars : f.text.toList = f.packagePath.text.toList ++
      ':' :: (f.modulePath.text.toList ++ ':' :: f.localName.kebab.toList) := by simp [text]
  rw [parse?, hchars, ofChars?_colons (isPart_text h.packagePath) (isPart_text h.modulePath)
    (isPart_kebab h.localName), h.ofParts?_chars]

/-- A canonical name inside its module is read back. -/
theorem Canonical.parse?_qname (h : f.Canonical) : QName.parse? f.qname.text = some f.qname := by
  have hchars : f.qname.text.toList =
      f.modulePath.text.toList ++ ':' :: f.localName.kebab.toList := by simp [QName.text, qname]
  have hmod := isPart_iff.1 (isPart_text h.modulePath)
  have hloc := isPart_iff.1 (isPart_kebab h.localName)
  rw [QName.parse?, hchars, qname_ofChars?_append hmod.1 hloc.1, qname_ofParts?_eq_some_iff,
    h.localName.ofChars_kebab, h.modulePath.ofChars_text]
  exact ⟨by simpa [Name.isEmpty] using h.nonempty, rfl⟩

/-- The text of a canonical name alone is not that of a qualified name. -/
theorem parse?_kebab {n : Name} (h : n.Canonical) : parse? n.kebab = none := by
  refine Option.eq_none_iff_forall_ne_some.2 fun f hf => ?_
  have hseps := separators_of_ofChars? hf
  simp [separators_of_isPart (isPart_kebab h)] at hseps

theorem canonical_of_parse? {s : String} (h : parse? s = some f) : f.Canonical := by
  obtain ⟨-, pkg, mod, loc, -, hword, rfl⟩ := ofChars?_eq_some_iff.1 h
  exact ⟨Path.canonical_ofChars _, Path.canonical_ofChars _, Name.canonical_ofChars _,
    by simpa [Name.isEmpty] using hword⟩

theorem canonical_iff : f.Canonical ↔ parse? f.hashText = some f :=
  ⟨fun h => h.parse?_hashText, canonical_of_parse?⟩

end FQName

end IrDialects
