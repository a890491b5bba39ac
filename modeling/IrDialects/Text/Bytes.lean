/-!
# Bytes and texts

A text arrives as bytes. Decoding never fails: a byte that belongs to no well-formed UTF-8 sequence
is read as U+FFFD, and the bytes after it are tried afresh.
-/

namespace IrDialects.Text.Bytes

/-- The character that stands for a byte that cannot be read. -/
def replacement : Char := '\uFFFD'

/-- Whether `b` continues a sequence. -/
def isContinuation (b : UInt8) : Bool := 0x80 ≤ b && b ≤ 0xBF

/-- The six payload bits of a continuation byte. -/
def payload (b : UInt8) : Nat := b.toNat % 64

/-- The character that starts at `b`, and how many of the bytes `rest` after `b` belong to it. -/
def leading (b : UInt8) (rest : List UInt8) : Char × Nat :=
  if b < 0x80 then (Char.ofNat b.toNat, 0)
  else match rest with
    | b1 :: rest =>
      if 0xC2 ≤ b && b ≤ 0xDF && isContinuation b1 then
        (Char.ofNat ((b.toNat % 32) * 64 + payload b1), 1)
      else match rest with
        | b2 :: rest =>
          let code := (b.toNat % 16) * 4096 + payload b1 * 64 + payload b2
          -- Codes that fit into fewer bytes and surrogates are not characters here.
          if 0xE0 ≤ b && b ≤ 0xEF && isContinuation b1 && isContinuation b2
              && 0x800 ≤ code && !(0xD800 ≤ code && code ≤ 0xDFFF) then
            (Char.ofNat code, 2)
          else match rest with
            | b3 :: _ =>
              let code := (b.toNat % 8) * 262144 + payload b1 * 4096 + payload b2 * 64 + payload b3
              if 0xF0 ≤ b && b ≤ 0xF4 && isContinuation b1 && isContinuation b2
                  && isContinuation b3 && 0x10000 ≤ code && code ≤ 0x10FFFF then
                (Char.ofNat code, 3)
              else (replacement, 0)
            | [] => (replacement, 0)
        | [] => (replacement, 0)
    | [] => (replacement, 0)

/-- The characters of a byte sequence, after leaving out the first `skip` bytes. -/
def decodeFrom : Nat → List UInt8 → List Char
  | _, [] => []
  | skip + 1, _ :: bs => decodeFrom skip bs
  | 0, b :: bs =>
    let (c, used) := leading b bs
    c :: decodeFrom used bs

/-- The text that a byte sequence spells. -/
def decode (bs : List UInt8) : String := String.ofList (decodeFrom 0 bs)

def encode (s : String) : List UInt8 := s.toUTF8.toList

/-- Whether decoding loses nothing. -/
def isText (bs : List UInt8) : Bool := encode (decode bs) == bs

/-- The value of a digit of base sixteen, in either case. -/
def hexValue? (c : Char) : Option Nat :=
  if '0' ≤ c && c ≤ '9' then some (c.toNat - '0'.toNat)
  else if 'a' ≤ c && c ≤ 'f' then some (c.toNat - 'a'.toNat + 10)
  else if 'A' ≤ c && c ≤ 'F' then some (c.toNat - 'A'.toNat + 10)
  else none

/-- The bytes spelt by pairs of digits of base sixteen. -/
def ofHex? : List Char → Option (List UInt8)
  | [] => some []
  | [_] => none
  | hi :: lo :: rest => do
    let h ← hexValue? hi
    let l ← hexValue? lo
    let bs ← ofHex? rest
    return UInt8.ofNat (h * 16 + l) :: bs

/-- Two lower-case digits of base sixteen for each byte. -/
def toHex (bs : List UInt8) : String :=
  String.ofList (bs.flatMap fun b => [Nat.digitChar (b.toNat / 16), Nat.digitChar (b.toNat % 16)])

end IrDialects.Text.Bytes
