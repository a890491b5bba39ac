import IrDialects.Json.Layout
import IrDialects.Proofs.Json.RoundTrip

/-!
# What a laid-out text is

A text is laid out by taking the blanks outside its strings away and putting others in: a line begins
after an opening bracket, after a comma and before a closing bracket, except between the two brackets
of an empty container, and a blank follows a colon. Strings are copied. So the laid-out text differs
from the one it was made from in blanks outside strings only.
-/

namespace IrDialects.Json

namespace Layout

open Reader (isBlank isNumberChar skipBlanks)

/-- Where in a text a character stands. -/
inductive Spot where
  | outside
  /-- Right after an opening bracket. -/
  | opened
  | quoted
  /-- Right after a backslash in a string. -/
  | escaped
deriving DecidableEq

namespace Spot

def isQuoted (w : Spot) : Bool := w = quoted || w = escaped

/-- Where the next character stands. -/
def next (w : Spot) (c : Char) : Spot :=
  match w with
  | quoted => if c = '"' then outside else if c = '\\' then escaped else quoted
  | escaped => quoted
  | _ => if c = '"' then quoted else if c = '[' || c = '\x7b' then opened else outside

end Spot

/-- The rest of a text without the blanks outside its strings. -/
def squeeze (w : Spot) : List Char → List Char
  | [] => []
  | c :: cs => if !w.isQuoted && isBlank c then squeeze w cs else c :: squeeze (w.next c) cs

/-- The beginning of a line at a level of nesting. -/
def lineStart (level : Nat) : List Char := '\n' :: List.replicate (2 * level) ' '

/-- What is put in front of a character. -/
def before (level : Nat) (w : Spot) (c : Char) : List Char :=
  if w.isQuoted then []
  else if c = ']' || c = '\x7d' then if w = .opened then [] else lineStart (level - 1)
  else if w = .opened then lineStart level else []

/-- What is put behind a character. -/
def after (level : Nat) (w : Spot) (c : Char) : List Char :=
  if w.isQuoted then [] else if c = ',' then lineStart level else if c = ':' then [' '] else []

/-- The level of nesting behind a character. -/
def levelAfter (level : Nat) (w : Spot) (c : Char) : Nat :=
  if w.isQuoted then level
  else if c = '[' || c = '\x7b' then level + 1
  else if c = ']' || c = '\x7d' then level - 1 else level

/-- The rest of a text without blanks, written over several lines. -/
def spread (level : Nat) (w : Spot) : List Char → List Char
  | [] => []
  | c :: cs => before level w c ++ c :: (after level w c ++ spread (levelAfter level w c) (w.next c) cs)

/-- What is put in front of a value. -/
def lead (level : Nat) (w : Spot) : List Char := if w = .opened then lineStart level else []

/-- A character that is neither blank nor a quotation mark nor punctuation. -/
def IsPlain (c : Char) : Prop :=
  isBlank c = false ∧ c ≠ '"' ∧ c ≠ '[' ∧ c ≠ '\x7b' ∧ c ≠ ']' ∧ c ≠ '\x7d' ∧ c ≠ ',' ∧ c ≠ ':'

instance : DecidablePred IsPlain := fun c => inferInstanceAs (Decidable
  (isBlank c = false ∧ c ≠ '"' ∧ c ≠ '[' ∧ c ≠ '\x7b' ∧ c ≠ ']' ∧ c ≠ '\x7d' ∧ c ≠ ',' ∧ c ≠ ':'))

section Steps

variable {w : Spot} {c : Char} {cs tail : List Char} {n : Nat}

theorem squeeze_opened (cs : List Char) : squeeze .opened cs = squeeze .outside cs := by
  induction cs with
  | nil => rfl
  | cons c cs ih => simp [squeeze, Spot.isQuoted, Spot.next, ih]

theorem squeeze_skipBlanks (cs : List Char) : squeeze .outside (skipBlanks cs) = squeeze .outside cs := by
  induction cs with
  | nil => rfl
  | cons c cs ih =>
    rw [skipBlanks]
    split
    · rename_i hc
      simp [squeeze, Spot.isQuoted, hc, ih]
    · rfl

theorem squeeze_plain (hs : ∀ c ∈ cs, IsPlain c) :
    squeeze .outside (cs ++ tail) = cs ++ squeeze .outside tail := by
  induction cs with
  | nil => rfl
  | cons c cs ih =>
    rw [List.forall_mem_cons] at hs
    obtain ⟨⟨hblank, hquote, hbracket, hbrace, -⟩, hs⟩ := hs
    simp [squeeze, Spot.isQuoted, Spot.next, hblank, hquote, hbracket, hbrace, ih hs]

theorem spread_plain_cons (hw : w.isQuoted = false) (hc : IsPlain c) :
    spread n w (c :: cs) = lead n w ++ c :: spread n .outside cs := by
  obtain ⟨-, hquote, hbracket, hbrace, hbracket', hbrace', hcomma, hcolon⟩ := hc
  cases w <;> simp_all [spread, before, after, levelAfter, lead, Spot.isQuoted, Spot.next]

theorem spread_plain (hw : w.isQuoted = false) (hne : cs ≠ []) (hs : ∀ c ∈ cs, IsPlain c) :
    spread n w (cs ++ tail) = lead n w ++ cs ++ spread n .outside tail := by
  induction cs generalizing w with
  | nil => exact absurd rfl hne
  | cons c cs ih =>
    rw [List.forall_mem_cons] at hs
    rw [List.cons_append, spread_plain_cons hw hs.1]
    cases cs with
    | nil => simp
    | cons d cs => rw [ih rfl (by simp) hs.2]; simp [lead]

theorem spread_open (hw : w.isQuoted = false) (hc : c = '[' ∨ c = '\x7b') :
    spread n w (c :: cs) = lead n w ++ c :: spread (n + 1) .opened cs := by
  rcases hc with rfl | rfl <;>
    cases w <;> simp_all [spread, before, after, levelAfter, lead, Spot.isQuoted, Spot.next]

theorem spread_close (hc : c = ']' ∨ c = '\x7d') :
    spread (n + 1) .outside (c :: cs) = lineStart n ++ c :: spread n .outside cs := by
  rcases hc with rfl | rfl <;> simp [spread, before, after, levelAfter, Spot.isQuoted, Spot.next]

theorem spread_close_opened (hc : c = ']' ∨ c = '\x7d') :
    spread (n + 1) .opened (c :: cs) = c :: spread n .outside cs := by
  rcases hc with rfl | rfl <;> simp [spread, before, after, levelAfter, Spot.isQuoted, Spot.next]

theorem spread_comma :
    spread n .outside (',' :: cs) = ',' :: (lineStart n ++ spread n .outside cs) := by
  simp [spread, before, after, levelAfter, Spot.isQuoted, Spot.next]

theorem spread_colon : spread n .outside (':' :: cs) = ':' :: ' ' :: spread n .outside cs := by
  simp [spread, before, after, levelAfter, Spot.isQuoted, Spot.next]

theorem spread_quote (hw : w.isQuoted = false) :
    spread n w ('"' :: cs) = lead n w ++ '"' :: spread n .quoted cs := by
  cases w <;> simp_all [spread, before, after, levelAfter, lead, Spot.isQuoted, Spot.next]

theorem spread_quoted (hw : w.isQuoted = true) :
    spread n w (c :: cs) = c :: spread n (w.next c) cs := by
  simp [spread, before, after, levelAfter, hw]

theorem squeeze_quoted (hw : w.isQuoted = true) :
    squeeze w (c :: cs) = c :: squeeze (w.next c) cs := by
  simp [squeeze, hw]

theorem squeeze_mark (hc : isBlank c = false) :
    squeeze .outside (c :: cs) = c :: squeeze (Spot.next .outside c) cs := by
  simp [squeeze, hc]

end Steps

section Strings

variable {cs k rest : List Char}

/-- The end of a string is copied. -/
theorem closeString_copies (h : closeString cs = .ok (k, rest)) :
    squeeze .quoted cs = k ++ squeeze .outside rest ∧
      ∀ n tail, spread n .quoted (k ++ tail) = k ++ spread n .outside tail := by
  induction cs using closeString.induct generalizing k with
  | case1 => cases h
  | case2 rest' =>
    cases h
    simp [squeeze_quoted, spread_quoted, Spot.isQuoted, Spot.next]
  | case3 e cs ih =>
    rw [closeString] at h
    cases hclose : closeString cs with
    | error f =>
      rw [hclose] at h
      cases h
    | ok r =>
      obtain ⟨k', rest'⟩ := r
      rw [hclose] at h
      cases h
      obtain ⟨hsqueeze, hspread⟩ := ih hclose
      simp [squeeze_quoted, spread_quoted, Spot.isQuoted, Spot.next, hsqueeze, hspread]
  | case4 c cs hquote hback ih =>
    rw [closeString] at h
    · cases hclose : closeString cs with
      | error f =>
        rw [hclose] at h
        cases h
      | ok r =>
        obtain ⟨k', rest'⟩ := r
        rw [hclose] at h
        cases h
        have hq : c ≠ '"' := hquote
        have hb : c ≠ '\\' := by
          rintro rfl
          cases cs with
          | nil => cases hclose
          | cons e cs => exact hback e cs rfl rfl
        obtain ⟨hsqueeze, hspread⟩ := ih hclose
        have hnext : Spot.next .quoted c = .quoted := by simp [Spot.next, hq, hb]
        simp [squeeze_quoted, spread_quoted, Spot.isQuoted, hnext, hsqueeze, hspread]
    · exact hquote
    · exact hback

/-- A string is copied. -/
theorem string_copies (h : string cs = .ok (k, rest)) :
    squeeze .outside cs = k ++ squeeze .outside rest ∧
      ∀ n w tail, Spot.isQuoted w = false →
        spread n w (k ++ tail) = lead n w ++ k ++ spread n .outside tail := by
  rw [string.eq_def] at h
  split at h
  · rename_i rest'
    cases hclose : closeString rest' with
    | error f =>
      rw [hclose] at h
      cases h
    | ok r =>
      rw [hclose] at h
      cases h
      obtain ⟨hsqueeze, hspread⟩ := closeString_copies hclose
      refine ⟨?_, fun n w tail hw => ?_⟩
      · rw [squeeze_mark (by decide)]
        exact congrArg _ hsqueeze
      · simp [spread_quote hw, hspread]
  · cases h

end Strings

theorem isPlain_of_isNumberChar {c : Char} (h : isNumberChar c = true) : IsPlain c := by
  have hne {d : Char} (hd : isNumberChar d = false) : c ≠ d := by
    rintro rfl
    rw [h] at hd
    cases hd
  have hblank : isBlank c = false := by
    simp [isBlank, hne (d := ' ') (by decide), hne (d := '\n') (by decide),
      hne (d := '\r') (by decide), hne (d := '\t') (by decide)]
  exact ⟨hblank, hne (by decide), hne (by decide), hne (by decide), hne (by decide), hne (by decide),
    hne (by decide), hne (by decide)⟩

theorem toList_newLine (n : Nat) : (newLine n).toList = lineStart n := by
  simp [newLine, lineStart]

/-- Blanks apart, what stands before `rest` in a text is laid out as `laid` says for each level. -/
def Lays (cs : List Char) (laid : Nat → List Char) (rest : List Char) : Prop :=
  ∃ used, squeeze .outside cs = used ++ squeeze .outside rest ∧
    ∀ n w tail, Spot.isQuoted w = false →
      spread n w (used ++ tail) = lead n w ++ laid n ++ spread n .outside tail

/-- What stands before `rest` is laid out as the contents of a container and its closing bracket. -/
def LaysContents (close : Char) (cs : List Char) (laid : Nat → List Char) (rest : List Char) : Prop :=
  ∃ used, squeeze .outside cs = used ++ close :: squeeze .outside rest ∧
    ∀ n w tail, Spot.isQuoted w = false →
      spread (n + 1) w (used ++ close :: tail) =
        lead (n + 1) w ++ laid (n + 1) ++ lineStart n ++ close :: spread n .outside tail

section Lays

variable {cs rest tail next k : List Char} {laid laid' : Nat → List Char} {c : Char}

theorem Lays.of_skipBlanks (h : Lays (skipBlanks cs) laid rest) : Lays cs laid rest := by
  rw [Lays, squeeze_skipBlanks] at h
  exact h

theorem lays_plain (hne : k ≠ []) (hk : ∀ c ∈ k, IsPlain c) : Lays (k ++ rest) (fun _ => k) rest :=
  ⟨k, squeeze_plain hk, fun _ _ _ hw => spread_plain hw hne hk⟩

theorem lays_string (h : string cs = .ok (k, rest)) : Lays cs (fun _ => k) rest :=
  ⟨k, string_copies h⟩

theorem Lays.member (hk : Lays cs (fun _ => k) tail) (htail : skipBlanks tail = ':' :: next)
    (h : Lays next laid rest) : Lays cs (fun n => k ++ ':' :: ' ' :: laid n) rest := by
  obtain ⟨used, hused, hspread⟩ := hk
  obtain ⟨used', hused', hspread'⟩ := h
  refine ⟨used ++ ':' :: used', ?_, fun n w tail' hw => ?_⟩
  · rw [hused, ← squeeze_skipBlanks tail, htail, squeeze_mark (by decide)]
    simp [Spot.next, hused']
  · rw [List.append_assoc, List.cons_append, hspread _ _ _ hw, spread_colon, hspread' _ _ _ rfl]
    simp [lead]

theorem Lays.last (h : Lays cs laid tail) (hc : c = ']' ∨ c = '\x7d')
    (htail : skipBlanks tail = c :: rest) : LaysContents c cs laid rest := by
  obtain ⟨used, hused, hspread⟩ := h
  refine ⟨used, ?_, fun n w tail' hw => ?_⟩
  · rw [hused, ← squeeze_skipBlanks tail, htail]
    rcases hc with rfl | rfl <;> rw [squeeze_mark (by decide)] <;> rfl
  · rw [hspread _ _ _ hw, spread_close hc]
    simp

theorem Lays.more (h : Lays cs laid tail) (htail : skipBlanks tail = ',' :: next)
    (hmore : LaysContents c next laid' rest) :
    LaysContents c cs (fun n => laid n ++ ',' :: (lineStart n ++ laid' n)) rest := by
  obtain ⟨used, hused, hspread⟩ := h
  obtain ⟨used', hused', hspread'⟩ := hmore
  refine ⟨used ++ ',' :: used', ?_, fun n w tail' hw => ?_⟩
  · rw [hused, ← squeeze_skipBlanks tail, htail, squeeze_mark (by decide)]
    simp [Spot.next, hused']
  · rw [List.append_assoc, List.cons_append, hspread _ _ _ hw, spread_comma, hspread' _ _ _ rfl]
    simp [lead]

theorem lays_empty {b : Char} (hb : b = '[' ∨ b = '\x7b') (hc : c = ']' ∨ c = '\x7d')
    (htail : skipBlanks tail = c :: rest) : Lays (b :: tail) (fun _ => [b, c]) rest := by
  have htail' : squeeze .outside tail = c :: squeeze .outside rest := by
    rw [← squeeze_skipBlanks, htail]
    rcases hc with rfl | rfl <;> rw [squeeze_mark (by decide)] <;> rfl
  refine ⟨[b, c], ?_, fun n w tail' hw => ?_⟩
  · rcases hb with rfl | rfl <;> rw [squeeze_mark (by decide)] <;>
      simp [Spot.next, squeeze_opened, htail']
  · rw [List.cons_append, spread_open hw hb, List.cons_append, spread_close_opened hc]
    simp

theorem LaysContents.container {b : Char} (hb : b = '[' ∨ b = '\x7b')
    (h : LaysContents c (skipBlanks cs) laid rest) :
    Lays (b :: cs) (fun n => b :: (lineStart (n + 1) ++ laid (n + 1) ++ lineStart n ++ [c])) rest := by
  obtain ⟨used, hused, hspread⟩ := h
  rw [squeeze_skipBlanks] at hused
  refine ⟨b :: (used ++ [c]), ?_, fun n w tail' hw => ?_⟩
  · rcases hb with rfl | rfl <;> rw [squeeze_mark (by decide)] <;>
      simp [Spot.next, squeeze_opened, hused]
  · rw [List.cons_append, spread_open hw hb, List.append_assoc, List.singleton_append,
      hspread _ _ _ rfl]
    simp [lead]

end Lays

section Value

private theorem exists_of_map_eq_ok {ε α β : Type} {x : Except ε α} {f : α → β} {b : β}
    (h : x.map f = .ok b) : ∃ a, x = .ok a ∧ f a = b := by
  cases x with
  | error e => cases h
  | ok a => exact ⟨a, rfl, Except.ok.inj h⟩

private theorem exists_of_bind_eq_ok {ε α β : Type} {x : Except ε α} {f : α → Except ε β} {b : β}
    (h : x >>= f = .ok b) : ∃ a, x = .ok a ∧ f a = .ok b := by
  cases x with
  | error e => cases h
  | ok a => exact ⟨a, rfl, h⟩

variable {cs rest : List Char} {o : Outline}

theorem lays_number (h : number cs = .ok (o, rest)) (hc : cs.head?.any isNumberChar) :
    Lays cs (fun n => (render n o).toList) rest := by
  rw [number] at h
  split at h
  · cases h
    have hlays : Lays (cs.takeWhile isNumberChar ++ cs.dropWhile isNumberChar)
        (fun _ => cs.takeWhile isNumberChar) (cs.dropWhile isNumberChar) := by
      refine lays_plain ?_ fun c hmem => isPlain_of_isNumberChar (List.mem_takeWhile_imp hmem)
      cases cs with
      | nil => simp at hc
      | cons c cs => simp_all
    rw [List.takeWhile_append_dropWhile] at hlays
    simpa [render] using hlays
  · cases h

theorem lays_word {w : String} (hne : w.toList ≠ []) (hw : w.toList.all fun c => IsPlain c)
    (h : word w cs = .ok (o, rest)) : Lays cs (fun n => (render n o).toList) rest := by
  rw [word] at h
  split_ifs at h with hprefix
  cases h
  obtain ⟨t, rfl⟩ := List.isPrefixOf_iff_prefix.1 hprefix
  have hlays : Lays (w.toList ++ t) (fun _ => w.toList) t :=
    lays_plain hne fun c hc => of_decide_eq_true (List.all_eq_true.1 hw c hc)
  rw [← String.length_toList, List.drop_left]
  simpa [render] using hlays

/-- What a value is read from is laid out as its outline. -/
def ValueLays (fuel : Nat) : Prop :=
  ∀ cs o rest, value fuel cs = .ok (o, rest) → Lays cs (fun n => (render n o).toList) rest

def ItemsLay (fuel : Nat) : Prop :=
  ∀ cs os rest, items fuel cs = .ok (os, rest) → ∃ o os', os = o :: os' ∧
    LaysContents ']' cs (fun n => (render n o ++ renderItems n os').toList) rest

def MembersLay (fuel : Nat) : Prop :=
  ∀ cs ms rest, members fuel cs = .ok (ms, rest) → ∃ k o ms', ms = (k, o) :: ms' ∧
    LaysContents '\x7d' cs
      (fun n => k ++ ':' :: ' ' :: (render n o ++ renderMembers n ms').toList) rest

variable {fuel : Nat}

theorem valueLays_succ (hitems : ItemsLay fuel) (hmembers : MembersLay fuel) :
    ValueLays (fuel + 1) := by
  intro cs o rest h
  rw [value] at h
  apply Lays.of_skipBlanks
  split at h <;> rename_i heq <;> rw [heq]
  · split at h
    · rename_i hempty
      cases h
      simpa [render] using lays_empty (.inr rfl) (.inr rfl) hempty
    · obtain ⟨r, hms, hr⟩ := exists_of_map_eq_ok h
      cases hr
      obtain ⟨k, o, ms', hcons, hlays⟩ := hmembers _ _ _ hms
      rw [hcons]
      simpa [render, toList_newLine] using hlays.container (.inr rfl)
  · split at h
    · rename_i hempty
      cases h
      simpa [render] using lays_empty (.inl rfl) (.inl rfl) hempty
    · obtain ⟨r, hos, hr⟩ := exists_of_map_eq_ok h
      cases hr
      obtain ⟨o, os', hcons, hlays⟩ := hitems _ _ _ hos
      rw [hcons]
      simpa [render, toList_newLine] using hlays.container (.inl rfl)
  · obtain ⟨r, hk, hr⟩ := exists_of_map_eq_ok h
    cases hr
    simpa [render] using lays_string hk
  iterate 3 exact lays_word (by decide) (by decide) h
  · cases h
  · split_ifs at h with hc
    refine lays_number h ?_
    rcases Bool.or_eq_true_iff.1 hc with hdigit | hminus
    · simp [isNumberChar, hdigit]
    · simp [isNumberChar, hminus]

theorem itemsLay_succ (hvalue : ValueLays fuel) (hitems : ItemsLay fuel) : ItemsLay (fuel + 1) := by
  intro cs os rest h
  rw [items] at h
  obtain ⟨⟨o, tail⟩, ho, h⟩ := exists_of_bind_eq_ok h
  have hlays := hvalue _ _ _ ho
  dsimp only at h
  split at h
  · rename_i htail
    cases h
    refine ⟨o, [], rfl, ?_⟩
    simpa [renderItems] using hlays.last (.inl rfl) htail
  · rename_i htail
    obtain ⟨⟨os', rest'⟩, hos, h⟩ := exists_of_bind_eq_ok h
    cases h
    obtain ⟨o', os', rfl, hmore⟩ := hitems _ _ _ hos
    refine ⟨o, _, rfl, ?_⟩
    simpa [renderItems, toList_newLine] using hlays.more htail hmore
  · cases h

theorem membersLay_succ (hvalue : ValueLays fuel) (hmembers : MembersLay fuel) :
    MembersLay (fuel + 1) := by
  intro cs ms rest h
  rw [members] at h
  obtain ⟨⟨k, tail⟩, hk, h⟩ := exists_of_bind_eq_ok h
  dsimp only at h
  split at h
  · rename_i htail
    obtain ⟨⟨o, tail'⟩, ho, h⟩ := exists_of_bind_eq_ok h
    have hlays := (lays_string hk).of_skipBlanks.member htail (hvalue _ _ _ ho)
    dsimp only at h
    split at h
    · rename_i htail'
      cases h
      refine ⟨k, o, [], rfl, ?_⟩
      simpa [renderMembers] using hlays.last (.inr rfl) htail'
    · rename_i htail'
      obtain ⟨⟨ms', rest'⟩, hms, h⟩ := exists_of_bind_eq_ok h
      cases h
      obtain ⟨k', o', ms', rfl, hmore⟩ := hmembers _ _ _ hms
      refine ⟨k, o, _, rfl, ?_⟩
      simpa [renderMembers, toList_newLine] using hlays.more htail' hmore
    · cases h
  · cases h

/-- The three statements are proved together, as the three functions call one another. -/
theorem lays (fuel : Nat) : ValueLays fuel ∧ ItemsLay fuel ∧ MembersLay fuel := by
  induction fuel with
  | zero =>
    refine ⟨fun cs o rest h => ?_, fun cs os rest h => ?_, fun cs ms rest h => ?_⟩
    · rw [value] at h
      cases h
    · rw [items] at h
      cases h
    · rw [members] at h
      cases h
  | succ fuel ih =>
    obtain ⟨hvalue, hitems, hmembers⟩ := ih
    exact ⟨valueLays_succ hitems hmembers, itemsLay_succ hvalue hitems,
      membersLay_succ hvalue hmembers⟩

end Value

section Squeeze

variable {w : Spot} {n : Nat} {c : Char}

/-- Blanks put in front of a text outside its strings are taken away again. -/
theorem squeeze_blanks (hw : w.isQuoted = false) {bs : List Char} (h : ∀ c ∈ bs, isBlank c = true)
    (cs : List Char) : squeeze w (bs ++ cs) = squeeze w cs := by
  induction bs with
  | nil => rfl
  | cons b bs ih =>
    rw [List.forall_mem_cons] at h
    simp [squeeze, hw, h.1, ih h.2]

theorem squeeze_unquoted (hw : w.isQuoted = false) (cs : List Char) :
    squeeze w cs = squeeze .outside cs := by
  cases w with
  | outside => rfl
  | opened => exact squeeze_opened cs
  | quoted | escaped => cases hw

theorem isBlank_lineStart (h : c ∈ lineStart n) : isBlank c = true := by
  rcases List.mem_cons.1 h with rfl | h
  · rfl
  · rw [List.eq_of_mem_replicate h]
    rfl

theorem isBlank_before {d : Char} (h : d ∈ before n w c) : isBlank d = true := by
  rw [before] at h
  split_ifs at h <;> first | exact isBlank_lineStart h | cases h

theorem isBlank_after {d : Char} (h : d ∈ after n w c) : isBlank d = true := by
  rw [after] at h
  split_ifs at h
  · cases h
  · exact isBlank_lineStart h
  · rw [List.mem_singleton.1 h]
    rfl
  · cases h

/-- Nothing is put behind the quotation mark that opens a string. -/
theorem after_eq_nil (h : (w.next c).isQuoted = true) : after n w c = [] := by
  by_cases hc : c = '"'
  · subst hc
    cases w <;> rfl
  · cases w <;> simp_all [after, Spot.isQuoted, Spot.next] <;> split_ifs at h <;> simp_all

theorem squeeze_after (cs : List Char) :
    squeeze (w.next c) (after n w c ++ cs) = squeeze (w.next c) cs := by
  cases h : (w.next c).isQuoted with
  | true => rw [after_eq_nil h, List.nil_append]
  | false => exact squeeze_blanks h (fun _ => isBlank_after) cs

theorem isQuoted_next_of_isBlank (hw : w.isQuoted = false) (hc : isBlank c = true) :
    (w.next c).isQuoted = false := by
  have hq : c ≠ '"' := by
    rintro rfl
    cases hc
  cases w with
  | outside | opened =>
    simp only [Spot.next, if_neg hq]
    split <;> rfl
  | quoted | escaped => cases hw

/-- Spreading a text changes its blanks only. -/
theorem squeeze_spread (n : Nat) (w : Spot) (cs : List Char) :
    squeeze w (spread n w cs) = squeeze w cs := by
  induction cs generalizing n w with
  | nil => rfl
  | cons c cs ih =>
    rw [spread]
    cases hw : w.isQuoted with
    | true =>
      have hbefore : before n w c = [] := by simp [before, hw]
      rw [hbefore, List.nil_append, squeeze_quoted hw, squeeze_quoted hw, squeeze_after, ih]
    | false =>
      rw [squeeze_blanks hw fun _ => isBlank_before]
      cases hc : isBlank c with
      | true =>
        have hskip (ds : List Char) : squeeze w (c :: ds) = squeeze .outside ds := by
          simp [squeeze, hw, hc, squeeze_unquoted hw]
        have hnext := isQuoted_next_of_isBlank hw hc
        rw [hskip, hskip, ← squeeze_unquoted hnext, squeeze_after, ih, squeeze_unquoted hnext]
      | false =>
        simp only [squeeze, hw, hc, Bool.not_false, Bool.and_false, Bool.false_eq_true, if_false,
          squeeze_after, ih]

theorem squeeze_squeeze (w : Spot) (cs : List Char) : squeeze w (squeeze w cs) = squeeze w cs := by
  induction cs generalizing w with
  | nil => rfl
  | cons c cs ih =>
    rw [squeeze]
    split
    · exact ih w
    · rename_i hc
      rw [squeeze, if_neg hc, ih]

end Squeeze

theorem lays_outline {cs : List Char} {o : Outline} (h : outline cs = .ok o) (hnul : '\x00' ∉ cs) :
    (render 0 o).toList = spread 0 .outside (squeeze .outside cs) := by
  rw [outline] at h
  split at h
  · cases h
  obtain ⟨⟨o', rest⟩, hvalue, h⟩ := exists_of_bind_eq_ok h
  rw [Reader.upToNul_eq_self hnul] at hvalue
  dsimp only at h
  split at h
  · rename_i hrest
    cases h
    obtain ⟨used, hused, hspread⟩ := (lays _).1 _ _ _ hvalue
    have hempty : squeeze .outside rest = [] := by rw [← squeeze_skipBlanks, hrest, squeeze]
    rw [hused, hempty, hspread _ _ _ rfl]
    simp [lead, spread]
  · cases h

end Layout

/-- A text is another one written over several lines: it is spread after its blanks have been taken
away, and blanks outside strings apart it is the same. -/
structure LaidOut (text laid : String) : Prop where
  lines : laid.toList = Layout.spread 0 .outside (Layout.squeeze .outside text.toList)
  content : Layout.squeeze .outside laid.toList = Layout.squeeze .outside text.toList

theorem laidOut_of_indent {text laid : String} (h : indent text = .ok laid)
    (hnul : '\x00' ∉ text.toList) : LaidOut text laid := by
  rw [indent] at h
  cases ho : Layout.outline text.toList with
  | error f =>
    rw [ho] at h
    cases h
  | ok o =>
    rw [ho] at h
    cases h
    have hlines := Layout.lays_outline ho hnul
    exact ⟨hlines, by rw [hlines, Layout.squeeze_spread, Layout.squeeze_squeeze]⟩

example : Layout.spread 0 .outside "[1,\x7b\"a\":[]\x7d]".toList =
    "[\n  1,\n  \x7b\n    \"a\": []\n  \x7d\n]".toList := by decide

end IrDialects.Json
