import IrDialects.Proofs.Json.Image
import IrDialects.Proofs.Json.RoundTrip

/-!
# Writing and reading are inverse

A value that can be written as it stands is read back from its compact text, and a value that was
read is read back from its compact text whenever it has one. A value can be nested more deeply than
the reader allows; then its text is refused. What was read is never nested that deeply.
-/

namespace IrDialects.Json

open Reader (depthLimit)

/-- A value that was read and can be written meets the conditions for being read back. -/
theorem clean_of_marshal {v : Json} {text : String} (hv : v.Orderly) (ht : marshal v = .ok text) :
    v.Clean := by
  have hfault : Writer.fault? v = none := by
    rw [marshal, Writer.settle_eq_self hv, Writer.text] at ht
    split at ht
    · cases ht
    · assumption
  have hall := hv.and (Writer.fault?_eq_none.1 hfault)
  exact hall.imp (fun s hs => ⟨hs.1.isLiteral_of_isStrictText hs.2, hs.1.numeral⟩)
    fun _ hks => hks.1

/-- A value without repeated keys whose numbers are JSON literals within the range of floating-point
numbers has a compact text, and reading the text gives the value, unless the value is nested too
deeply. A value that was read repeats no key; if it can be written, it meets these conditions and is
read back. -/
theorem reading_undoes_writing :
    (∀ v : Json, v.Clean → ∃ text, marshal v = .ok text ∧
      (v.depth ≤ depthLimit → parseBytes (Text.Bytes.encode text) = .ok v) ∧
      (depthLimit < v.depth → parseBytes (Text.Bytes.encode text) = .error .invalid)) ∧
    ∀ (bytes : List UInt8) (v : Json), parseBytes bytes = .ok v →
      v.All (fun _ => True) List.Nodup ∧
      ∀ text, marshal v = .ok text →
        v.Clean ∧ parseBytes (Text.Bytes.encode text) = .ok v := by
  constructor
  · intro v hv
    obtain ⟨text, ht⟩ := exists_marshal hv
    have hread := parseBytes_marshal hv.orderly ht
    refine ⟨text, ht, fun hdepth => ?_, fun hdepth => ?_⟩
    · rw [hread, if_pos hdepth]
    · rw [hread, if_neg (Nat.not_le.2 hdepth)]
  · intro bytes v h
    -- The reader refuses repeated keys and deep nesting, so only numbers can stop the writer.
    obtain ⟨horderly, hdepth⟩ := orderly_and_depth_le_of_parseBytes h
    refine ⟨horderly.imp (fun _ _ => trivial) fun _ hks => hks, fun text ht => ?_⟩
    refine ⟨clean_of_marshal horderly ht, ?_⟩
    rw [parseBytes_marshal horderly ht, if_pos hdepth]

/-- An object with a number that has zeros to spare, characters that need escapes and an empty key. -/
def assorted : Json :=
  .object [("z", .array [.number "-0.00", .ofInt 42, .null]),
    ("", .string "\u2028\x00\"\\u2028"), ("a", .object [("z", .bool true)])]

theorem isNumber_negativeZero : Reader.IsNumber "-0.00" := by
  let s : Number.Spelling := ⟨['0'], ['0', '0'], none⟩
  have hs : s.Regular :=
    Number.Spelling.regular_plain (by simp) (by simp) (fun _ => rfl) (by simp)
  exact ⟨Reader.isLiteral_signed hs true, Reader.isNumeral_signed hs true rfl⟩

theorem clean_assorted : assorted.Clean := by
  have hanswer : Reader.IsNumber (toString (42 : Int)) :=
    Reader.isNumber_toString ⟨by omega, by omega⟩
  simpa [assorted, keys, ofInt, isNumber_negativeZero] using hanswer

theorem assorted_reads_back :
    ∃ text, marshal assorted = .ok text ∧
      parseBytes (Text.Bytes.encode text) = .ok assorted ∧ assorted.Clean := by
  obtain ⟨hwrite, hread⟩ := reading_undoes_writing
  obtain ⟨text, ht, hback, -⟩ := hwrite assorted clean_assorted
  have hparse := hback (by decide)
  exact ⟨text, ht, hparse, ((hread _ _ hparse).2 text ht).1⟩

/-- Arrays inside each other, `n` of them around the innermost. -/
def nestedArrays : Nat → Json
  | 0 => .array []
  | n + 1 => .array [nestedArrays n]

theorem lt_depth_nestedArrays (n : Nat) : n < (nestedArrays n).depth := by
  induction n with
  | zero => decide
  | succ n ih =>
    have hinner : (nestedArrays n).depth < (nestedArrays (n + 1)).depth :=
      depth_lt_of_mem_array (List.mem_singleton.2 rfl)
    omega

theorem clean_nestedArrays (n : Nat) : (nestedArrays n).Clean := by
  induction n with
  | zero => simp [nestedArrays]
  | succ n ih => simpa [nestedArrays] using ih

theorem deep_arrays_are_refused :
    (nestedArrays depthLimit).Clean ∧ ¬ ∃ text, marshal (nestedArrays depthLimit) = .ok text ∧
      parseBytes (Text.Bytes.encode text) = .ok (nestedArrays depthLimit) := by
  have hclean := clean_nestedArrays depthLimit
  refine ⟨hclean, ?_⟩
  rintro ⟨text, ht, hread⟩
  have hdepth := lt_depth_nestedArrays depthLimit
  rw [parseBytes_marshal hclean.orderly ht, if_neg (Nat.not_le.2 hdepth)] at hread
  cases hread

end IrDialects.Json
