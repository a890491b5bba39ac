import IrDialects.Proofs.Json.Content
import IrDialects.Proofs.Json.NumberText
import IrDialects.Wire.Sequence
import Mathlib.Data.List.Forall2

/-!
# Decoding steps

What it means that one step of a decoder succeeds: the value has the shape that the step asks for,
and the steps inside it succeed. Where a result was found does not matter then, so everything that
only adds a place to an issue is passed through.
-/

namespace IrDialects

namespace Decoded

variable {α β ε ε' : Type}

@[simp] theorem ok_bind (a : α) (f : α → Decoded β) : (Except.ok a >>= f) = f a := rfl

@[simp] theorem pure_eq (a : α) : (pure a : Decoded α) = .ok a := rfl

theorem bind_eq_ok {x : Except ε α} {f : α → Except ε β} {b : β} :
    (x >>= f) = .ok b ↔ ∃ a, x = .ok a ∧ f a = .ok b := by
  cases x with
  | error e =>
    constructor
    · rintro ⟨⟩
    · rintro ⟨_, ⟨⟩, _⟩
  | ok a =>
    constructor
    · exact fun h => ⟨a, rfl, h⟩
    · rintro ⟨_, ⟨⟩, h⟩
      exact h

theorem map_eq_ok {f : α → β} {x : Except ε α} {b : β} :
    f <$> x = .ok b ↔ ∃ a, x = .ok a ∧ f a = b := by
  cases x with
  | error e =>
    constructor
    · rintro ⟨⟩
    · rintro ⟨_, ⟨⟩, _⟩
  | ok a =>
    constructor
    · rintro ⟨⟩
      exact ⟨a, rfl, rfl⟩
    · rintro ⟨_, ⟨⟩, rfl⟩
      rfl

theorem mapError_eq_ok {f : ε → ε'} {x : Except ε α} {a : α} :
    x.mapError f = .ok a ↔ x = .ok a := by
  cases x <;> simp [Except.mapError]

@[simp] theorem under_eq_ok {segment : String} {x : Decoded α} {a : α} :
    x.under segment = .ok a ↔ x = .ok a := mapError_eq_ok

@[simp] theorem underIndex_eq_ok {i : Nat} {x : Decoded α} {a : α} :
    x.underIndex i = .ok a ↔ x = .ok a := mapError_eq_ok

@[simp] theorem tagged_eq_ok {tag : String} {x : Decoded α} {a : α} :
    x.tagged tag = .ok a ↔ x = .ok a := mapError_eq_ok

@[simp] theorem under_ok (segment : String) (a : α) : under segment (.ok a) = .ok a := rfl

@[simp] theorem underIndex_ok (i : Nat) (a : α) : underIndex i (.ok a) = .ok a := rfl

@[simp] theorem tagged_ok (tag : String) (a : α) : tagged tag (.ok a) = .ok a := rfl

end Decoded

namespace Shape

variable {α : Type}

@[simp] theorem slot_eq_ok {tag : String} {i : Nat} {x : Decoded α} {a : α} :
    slot tag i x = .ok a ↔ x = .ok a := by
  rw [slot, Decoded.tagged_eq_ok, Decoded.underIndex_eq_ok]

@[simp] theorem slot_ok (tag : String) (i : Nat) (a : α) : slot tag i (.ok a) = .ok a := rfl

theorem array_eq_ok {what : String} {v : Json} {vs : List Json} :
    array what v = .ok vs ↔ v = .array vs := by
  cases v <;> simp [array]

theorem object_eq_ok {what : String} {v : Json} {ms : Members} :
    object what v = .ok ms ↔ v = .object ms := by
  cases v <;> simp [object]

theorem string_eq_ok {what : String} {v : Json} {s : String} :
    string what v = .ok s ↔ v = .string s := by
  cases v <;> simp [string]

theorem bool_eq_ok {what : String} {v : Json} {b : Bool} :
    bool what v = .ok b ↔ v = .bool b := by
  cases v <;> simp [bool]

theorem wholeNumber?_toString {n : Int} (h : Number.Whole.InRange n) :
    wholeNumber? (toString n) = some n := by
  rw [wholeNumber?, Number.Whole.parse_toString h]

theorem inRange_of_wholeNumber? {s : String} {n : Int} (h : wholeNumber? s = some n) :
    Number.Whole.InRange n := by
  rw [wholeNumber?] at h
  split at h
  · rename_i hn
    cases h
    exact Number.Whole.signed_inRange hn
  · split at h
    · obtain ⟨m, -, h⟩ := Option.bind_eq_some_iff.1 h
      split at h
      · rename_i hm
        cases h
        rw [Nat.pow_eq] at hm
        constructor <;> omega
      · cases h
    · cases h

theorem int_eq_ok {what : String} {v : Json} {n : Int} :
    int what v = .ok n ↔ ∃ s, v = .number s ∧ wholeNumber? s = some n := by
  cases v with
  | number s => cases hs : wholeNumber? s <;> simp [int, hs]
  | _ => simp [int]

theorem int_ofInt {n : Int} (h : Number.Whole.InRange n) (what : String) :
    int what (.ofInt n) = .ok n :=
  int_eq_ok.2 ⟨_, rfl, wholeNumber?_toString h⟩

theorem inRange_of_int {what : String} {v : Json} {n : Int} (h : int what v = .ok n) :
    Number.Whole.InRange n := by
  obtain ⟨s, -, hs⟩ := int_eq_ok.1 h
  exact inRange_of_wholeNumber? hs

theorem float_eq_ok {what : String} {v : Json} {x : Number.Binary64} :
    float what v = .ok x ↔ ∃ s, v = .number s ∧ Number.Numeral.read s = .value x := by
  cases v with
  | number s => cases hs : Number.Numeral.read s <;> simp [float, hs]
  | _ => simp [float]

theorem tagged_eq_ok {table : TagTable α} {v : Json} {tag : α} {fields : List Json} :
    tagged table v = .ok (tag, fields) ↔
      ∃ s, v = .array (.string s :: fields) ∧ table.find? s = some tag := by
  constructor
  · intro h
    rw [tagged.eq_def] at h
    split at h
    · cases h
    · rename_i s fs
      split at h
      · rename_i t ht
        cases h
        exact ⟨s, rfl, ht⟩
      · cases h
    · cases h
    · cases h
  · rintro ⟨s, rfl, hs⟩
    simp only [tagged, hs]

/-- A tagged array whose tag is in the table. -/
theorem tagged_ok {table : TagTable α} {s : String} {tag : α} (h : table.find? s = some tag)
    (fields : List Json) : tagged table (.array (.string s :: fields)) = .ok (tag, fields) :=
  tagged_eq_ok.2 ⟨s, rfl, h⟩

theorem zero_eq_ok {tag : String} {fs : List Json} {u : Unit} : zero tag fs = .ok u ↔ fs = [] := by
  cases fs <;> simp [zero]

theorem one_eq_ok {tag : String} {fs : List Json} {a : Json} : one tag fs = .ok a ↔ fs = [a] := by
  rw [one.eq_def]
  split <;> simp_all

theorem two_eq_ok {tag : String} {fs : List Json} {a b : Json} :
    two tag fs = .ok (a, b) ↔ fs = [a, b] := by
  rw [two.eq_def]
  split <;> simp_all

theorem three_eq_ok {tag : String} {fs : List Json} {a b c : Json} :
    three tag fs = .ok (a, b, c) ↔ fs = [a, b, c] := by
  rw [three.eq_def]
  split <;> simp_all

theorem four_eq_ok {tag : String} {fs : List Json} {a b c d : Json} :
    four tag fs = .ok (a, b, c, d) ↔ fs = [a, b, c, d] := by
  rw [four.eq_def]
  split <;> simp_all

theorem pair_eq_ok {what : String} {v a b : Json} :
    pair what v = .ok (a, b) ↔ v = .array [a, b] := by
  rw [pair, Decoded.bind_eq_ok]
  constructor
  · rintro ⟨vs, hv, h⟩
    rw [array_eq_ok] at hv
    subst hv
    split at h
    · cases h
      rfl
    · cases h
  · rintro rfl
    exact ⟨[a, b], rfl, rfl⟩

theorem member_eq_ok {what key : String} {ms : Members} {v : Json} :
    member what key ms = .ok v ↔ Json.get? ms key = some v := by
  rw [member]
  cases Json.get? ms key <;> simp

theorem each_eq_ok {decode : Json → Decoded α} {i : Nat} {vs : List Json} {xs : List α} :
    each decode i vs = .ok xs ↔ List.Forall₂ (fun v x => decode v = .ok x) vs xs := by
  induction vs generalizing i xs with
  | nil => cases xs <;> simp [each]
  | cons v vs ih =>
    simp only [each, Decoded.bind_eq_ok, Decoded.underIndex_eq_ok, Decoded.pure_eq, ih,
      Except.ok.injEq]
    constructor
    · rintro ⟨x, hx, ys, hys, rfl⟩
      exact .cons hx hys
    · rintro (_ | ⟨hx, hys⟩)
      exact ⟨_, hx, _, hys, rfl⟩

theorem list_eq_ok {what : String} {decode : Json → Decoded α} {v : Json} {xs : List α} :
    list what decode v = .ok xs ↔
      ∃ vs, v = .array vs ∧ List.Forall₂ (fun v x => decode v = .ok x) vs xs := by
  simp only [list, Decoded.bind_eq_ok, array_eq_ok, each_eq_ok]

/-- Items that are read one by one make an array that is read. -/
theorem list_map_map (what : String) {decode : Json → Decoded β} {encode : α → Json} {f : α → β}
    {xs : List α} (h : ∀ x ∈ xs, decode (encode x) = .ok (f x)) :
    list what decode (.array (xs.map encode)) = .ok (xs.map f) :=
  list_eq_ok.2 ⟨_, rfl, List.forall₂_map_left_iff.2 <| List.forall₂_map_right_iff.2 <|
    List.forall₂_same.2 h⟩

/-- Items that are read back one by one make an array that is read back. -/
theorem list_map (what : String) {decode : Json → Decoded α} {encode : α → Json} {xs : List α}
    (h : ∀ x ∈ xs, decode (encode x) = .ok x) :
    list what decode (.array (xs.map encode)) = .ok xs := by
  simpa using list_map_map what h

/-- What holds of every item that is read holds of every item of the result. -/
theorem forall_of_list_eq_ok {what : String} {decode : Json → Decoded α} {vs : List Json}
    {xs : List α} {P : Json → Prop} {Q : α → Prop} (h : list what decode (.array vs) = .ok xs)
    (hP : ∀ v ∈ vs, P v) (hQ : ∀ v x, P v → decode v = .ok x → Q x) : ∀ x ∈ xs, Q x := by
  obtain ⟨_, ⟨⟩, hall⟩ := list_eq_ok.1 h
  clear h
  induction hall with
  | nil => simp
  | cons hx _ ih =>
    simp only [List.mem_cons, forall_eq_or_imp] at hP ⊢
    exact ⟨hQ _ _ hP.1 hx, ih hP.2⟩

end Shape

end IrDialects
