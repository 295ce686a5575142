/-
# Texts as bytes

A text is stored as the bytes of its characters. Bytes need not be a text: when
they are read, each longest run of bytes that begins like a character and does
not go on like one becomes a replacement character, and so does a byte that
begins none.

Key definitions: `encodeChar`, `encode`, `firstTail`, `decodeLossy`.
-/

namespace SymbolGraph
namespace Text

/-- A byte that follows within a character, of six bits. -/
def tailByte (n : Nat) : UInt8 := .ofNat (0x80 + n % 64)

/-- The bytes of a character. -/
def encodeChar (c : Char) : List UInt8 :=
  let n := c.toNat
  if n < 0x80 then [.ofNat n]
  else if n < 0x800 then [.ofNat (0xC0 + n / 64), tailByte n]
  else if n < 0x10000 then [.ofNat (0xE0 + n / 4096), tailByte (n / 64), tailByte n]
  else [.ofNat (0xF0 + n / 262144), tailByte (n / 4096), tailByte (n / 64), tailByte n]

/-- The bytes of a text. -/
def encode (s : String) : List UInt8 := s.toList.flatMap encodeChar

/-- The character in place of bytes that are no text. -/
def replacement : Char := '\ufffd'

/-- How many bytes follow a leading byte, and between which bounds the first of
them lies. -/
def firstTail (lead : UInt8) : Option (Nat × UInt8 × UInt8) :=
  if lead < 0xC2 then none
  else if lead < 0xE0 then some (1, 0x80, 0xBF)
  else if lead = 0xE0 then some (2, 0xA0, 0xBF)
  else if lead = 0xED then some (2, 0x80, 0x9F)
  else if lead < 0xF0 then some (2, 0x80, 0xBF)
  else if lead = 0xF0 then some (3, 0x90, 0xBF)
  else if lead < 0xF4 then some (3, 0x80, 0xBF)
  else if lead = 0xF4 then some (3, 0x80, 0x8F)
  else none

/-- Whether a byte may follow within a character. -/
def isTail (b : UInt8) : Bool := 0x80 ≤ b && b ≤ 0xBF

/-- The six bits a following byte adds. -/
def tailBits (b : UInt8) : Nat := b.toNat % 64

/-- The text of some bytes, with replacements where they are none. -/
def decodeLossy : List UInt8 → List Char
  | [] => []
  | a :: as =>
    if a < 0x80 then Char.ofNat a.toNat :: decodeLossy as
    else
      match firstTail a with
      | none => replacement :: decodeLossy as
      | some (count, low, high) =>
        match as with
        | [] => [replacement]
        | b :: bs =>
          if b < low || high < b then replacement :: decodeLossy (b :: bs)
          else if count = 1 then Char.ofNat (a.toNat % 32 * 64 + tailBits b) :: decodeLossy bs
          else
            match bs with
            | [] => [replacement]
            | c :: cs =>
              if !isTail c then replacement :: decodeLossy (c :: cs)
              else if count = 2 then
                Char.ofNat ((a.toNat % 16 * 64 + tailBits b) * 64 + tailBits c) :: decodeLossy cs
              else
                match cs with
                | [] => [replacement]
                | d :: ds =>
                  if !isTail d then replacement :: decodeLossy (d :: ds)
                  else
                    Char.ofNat
                      (((a.toNat % 8 * 64 + tailBits b) * 64 + tailBits c) * 64 + tailBits d) ::
                      decodeLossy ds

/-- The text of some bytes, with replacements where they are none. -/
def decodeText (bytes : List UInt8) : String := String.ofList (decodeLossy bytes)

example : decodeLossy (encode "aé€😀") = ['a', 'é', '€', '😀'] := by decide +kernel
example : decodeLossy [0xF0, 0x9F, 0x41] = [replacement, 'A'] := by decide +kernel
example : decodeLossy [0xED, 0xA0, 0x80] = [replacement, replacement, replacement] := by decide +kernel

end Text
end SymbolGraph
