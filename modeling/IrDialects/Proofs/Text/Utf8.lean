import IrDialects.Text.Bytes
import Mathlib.Data.List.Basic

/-!
# Decoding the bytes of a text

The bytes of a text are the UTF-8 sequences of its characters, one after the other, and decoding
them gives the characters back.
-/

namespace IrDialects.Text.Bytes

private theorem toList_loop (bs : ByteArray) (i : Nat) (r : List UInt8) :
    ByteArray.toList.loop bs i r = r.reverse ++ bs.data.toList.drop i := by
  fun_induction ByteArray.toList.loop bs i r with
  | case1 i r hi ih =>
    have hi' : i < bs.data.toList.length := by simpa using hi
    have hget : bs.get! i = bs.data.toList.get ⟨i, hi'⟩ := by
      simp [ByteArray.get!, hi]
    rw [ih, List.drop_eq_getElem_cons hi', hget]
    simp
  | case2 i r hi =>
    have hi' : bs.data.toList.length ≤ i := by simpa using hi
    rw [List.drop_eq_nil_of_le hi', List.append_nil]

/-- The bytes of a text, character by character. -/
theorem encode_eq_flatMap (s : String) : encode s = s.toList.flatMap String.utf8EncodeChar := by
  have hbytes : s.toUTF8 = (s.toList.flatMap String.utf8EncodeChar).toByteArray := by
    conv_lhs => rw [← String.ofList_toList (s := s)]
    rfl
  rw [encode, hbytes, ByteArray.toList, toList_loop, List.toList_data_toByteArray]
  rfl

private theorem isContinuation_tail (n : Nat) : isContinuation (UInt8.ofNat (n % 0x40 + 0x80)) := by
  simp only [isContinuation, Bool.and_eq_true, decide_eq_true_eq, UInt8.le_iff_toNat_le,
    UInt8.toNat_ofNat']
  have h : UInt8.toNat 0x80 = 128 ∧ UInt8.toNat 0xBF = 191 := ⟨rfl, rfl⟩
  omega

private theorem payload_tail (n : Nat) : payload (UInt8.ofNat (n % 0x40 + 0x80)) = n % 64 := by
  simp only [payload, UInt8.toNat_ofNat']
  omega

private theorem leading_one {b : UInt8} (hb : b.toNat < 0x80) (rest : List UInt8) :
    leading b rest = (Char.ofNat b.toNat, 0) := by
  rw [leading.eq_def, if_pos (UInt8.lt_iff_toNat_lt.2 hb)]

private theorem leading_two {b b1 : UInt8} {k : Nat} (hb : 0xC2 ≤ b.toNat ∧ b.toNat ≤ 0xDF)
    (h1 : isContinuation b1) (hcode : b.toNat % 32 * 64 + payload b1 = k) (rest : List UInt8) :
    leading b (b1 :: rest) = (Char.ofNat k, 1) := by
  have hlt : ¬ b < 0x80 := by
    simp only [UInt8.lt_iff_toNat_lt, UInt8.reduceToNat]
    omega
  simp [leading, hlt, UInt8.le_iff_toNat_le, hb, h1, hcode]

private theorem leading_three {b b1 b2 : UInt8} {k : Nat}
    (hb : 0xE0 ≤ b.toNat ∧ b.toNat ≤ 0xEF) (h1 : isContinuation b1) (h2 : isContinuation b2)
    (hcode : b.toNat % 16 * 4096 + payload b1 * 64 + payload b2 = k)
    (hge : 0x800 ≤ k) (hs : k < 0xD800 ∨ 0xDFFF < k) (rest : List UInt8) :
    leading b (b1 :: b2 :: rest) = (Char.ofNat k, 2) := by
  have hlt : ¬ b < 0x80 := by
    simp only [UInt8.lt_iff_toNat_lt, UInt8.reduceToNat]
    omega
  have htwo : ¬ b.toNat ≤ 223 := by omega
  simp [leading, hlt, UInt8.le_iff_toNat_le, hb, htwo, h1, h2, hcode, hge, hs]

private theorem leading_four {b b1 b2 b3 : UInt8} {k : Nat}
    (hb : 0xF0 ≤ b.toNat ∧ b.toNat ≤ 0xF4) (h1 : isContinuation b1) (h2 : isContinuation b2)
    (h3 : isContinuation b3)
    (hcode : b.toNat % 8 * 262144 + payload b1 * 4096 + payload b2 * 64 + payload b3 = k)
    (hge : 0x10000 ≤ k ∧ k ≤ 0x10FFFF) (rest : List UInt8) :
    leading b (b1 :: b2 :: b3 :: rest) = (Char.ofNat k, 3) := by
  have hlt : ¬ b < 0x80 := by
    simp only [UInt8.lt_iff_toNat_lt, UInt8.reduceToNat]
    omega
  have htwo : ¬ b.toNat ≤ 223 := by omega
  have hthree : ¬ b.toNat ≤ 239 := by omega
  simp [leading, hlt, UInt8.le_iff_toNat_le, hb, htwo, hthree, h1, h2, h3, hcode, hge]

/-- The bytes of one character are read as that character, and all of them are used. -/
theorem leading_utf8EncodeChar (c : Char) (rest : List UInt8) :
    ∃ b bs, String.utf8EncodeChar c = b :: bs ∧ leading b (bs ++ rest) = (c, bs.length) := by
  have hc : c.val.toNat < 0xD800 ∨ 0xDFFF < c.val.toNat ∧ c.val.toNat < 0x110000 := c.valid
  have hof : Char.ofNat c.val.toNat = c := Char.ofNat_toNat c
  -- By the number of bytes, from one to four.
  fun_cases String.utf8EncodeChar c with
  | case1 v h =>
    have hb : (UInt8.ofNat v).toNat = v := by
      rw [UInt8.toNat_ofNat']
      omega
    refine ⟨_, _, rfl, ?_⟩
    rw [leading_one (by omega), hb, hof]
    rfl
  | case2 v h1 h2 =>
    have hb : (UInt8.ofNat (v / 64 % 0x20 + 0xc0)).toNat = v / 64 % 32 + 192 := by
      rw [UInt8.toNat_ofNat']
      omega
    have hcode : (v / 64 % 32 + 192) % 32 * 64 + v % 64 = v := by omega
    refine ⟨_, _, rfl, ?_⟩
    rw [List.cons_append, leading_two (k := v) (by omega) (isContinuation_tail v)
      (by rw [hb, payload_tail, hcode]), hof]
    rfl
  | case3 v h1 h2 h3 =>
    have hb : (UInt8.ofNat (v / 4096 % 0x10 + 0xe0)).toNat = v / 4096 % 16 + 224 := by
      rw [UInt8.toNat_ofNat']
      omega
    have hcode : (v / 4096 % 16 + 224) % 16 * 4096 + v / 64 % 64 * 64 + v % 64 = v := by omega
    refine ⟨_, _, rfl, ?_⟩
    rw [List.cons_append, List.cons_append, leading_three (k := v) (by omega)
      (isContinuation_tail _) (isContinuation_tail v)
      (by rw [hb, payload_tail, payload_tail, hcode]) (by omega) (by omega), hof]
    rfl
  | case4 v h1 h2 h3 =>
    have hb : (UInt8.ofNat (v / 262144 % 0x08 + 0xf0)).toNat = v / 262144 % 8 + 240 := by
      rw [UInt8.toNat_ofNat']
      omega
    have hcode : (v / 262144 % 8 + 240) % 8 * 262144 + v / 4096 % 64 * 4096 + v / 64 % 64 * 64
        + v % 64 = v := by omega
    refine ⟨_, _, rfl, ?_⟩
    rw [List.cons_append, List.cons_append, List.cons_append, leading_four (k := v) (by omega)
      (isContinuation_tail _) (isContinuation_tail _) (isContinuation_tail v)
      (by rw [hb, payload_tail, payload_tail, payload_tail, hcode]) (by omega), hof]
    rfl

theorem decodeFrom_append (skipped rest : List UInt8) :
    decodeFrom skipped.length (skipped ++ rest) = decodeFrom 0 rest := by
  induction skipped with
  | nil => rfl
  | cons b bs ih => exact ih

/-- Decoding the bytes of a text gives its characters. -/
theorem decodeFrom_encode (s : String) : decodeFrom 0 (encode s) = s.toList := by
  rw [encode_eq_flatMap]
  induction s.toList with
  | nil => rfl
  | cons c cs ih =>
    obtain ⟨b, bs, hbytes, hlead⟩ := leading_utf8EncodeChar c (cs.flatMap String.utf8EncodeChar)
    rw [List.flatMap_cons, hbytes, List.cons_append, decodeFrom, hlead]
    dsimp only
    rw [decodeFrom_append, ih]

/-- Texts are told apart by their bytes. -/
theorem encode_inj {s t : String} : encode s = encode t ↔ s = t := by
  refine ⟨fun h => String.toList_injective ?_, congrArg encode⟩
  rw [← decodeFrom_encode s, ← decodeFrom_encode t, h]

end IrDialects.Text.Bytes
