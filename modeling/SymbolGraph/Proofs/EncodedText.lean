/-
# The bytes of a text are read back as the text

Reading bytes never fails, because what is no text is replaced. Nothing is replaced in
the bytes of a text: each character is read back from its own bytes, whatever follows
them (`decodeLossy_encodeChar_append`). The leading byte tells how many bytes the
character has and bounds the next one (`MayFollow`); the bounds leave out longer
spellings of smaller characters and the numbers that are no characters, and the bytes
of a character keep them. So texts that are written one after the other are read back
as one text (`decodeText_encode`, `encode_join`).

Key definitions: `MayFollow`.
Key theorems: `decodeLossy_encodeChar_append`, `decodeText_encode`, `encode_join`.
-/
import Mathlib.Data.List.Basic
import SymbolGraph.Text.Utf8

namespace SymbolGraph
namespace Text

variable {a b c d : UInt8} {rest : List UInt8}

/-! ### Following bytes -/

theorem toNat_tailByte (n : Nat) : (tailByte n).toNat = 0x80 + n % 64 := by
  rw [tailByte, UInt8.toNat_ofNat']
  omega

theorem isTail_iff : isTail b = true ↔ 0x80 ≤ b.toNat ∧ b.toNat ≤ 0xBF := by
  rw [isTail, Bool.and_eq_true, decide_eq_true_eq, decide_eq_true_eq, UInt8.le_iff_toNat_le,
    UInt8.le_iff_toNat_le]
  rfl

@[simp] theorem isTail_tailByte (n : Nat) : isTail (tailByte n) = true := by
  rw [isTail_iff, toNat_tailByte]
  omega

@[simp] theorem tailBits_tailByte (n : Nat) : tailBits (tailByte n) = n % 64 := by
  rw [tailBits, toNat_tailByte]
  omega

/-! ### The byte behind a leading byte -/

/-- The byte `a` leads a character of `count` more bytes, and `b` may be the first of them. -/
def MayFollow (count : Nat) (a b : UInt8) : Prop :=
  ∃ low high, firstTail a = some (count, low, high) ∧ low ≤ b ∧ b ≤ high

theorem not_lt_of_toNat (h : b.toNat ≤ a.toNat) : ¬ a < b := by
  rw [UInt8.lt_iff_toNat_lt]
  omega

/-- A leading byte is no character by itself, and the next byte keeps its bounds. -/
theorem MayFollow.exists_bounds {count : Nat} (h : MayFollow count a b) : ¬ a < 0x80 ∧
    ∃ low high, firstTail a = some (count, low, high) ∧ (b < low || high < b) = false := by
  obtain ⟨low, high, hlead, hlow, hhigh⟩ := h
  have hbounds : (b < low || high < b) = false := by simpa using ⟨hlow, hhigh⟩
  refine ⟨fun ha => ?_, low, high, hlead, hbounds⟩
  have hless : a < 0xC2 := UInt8.lt_trans ha (by decide)
  rw [firstTail, if_pos hless] at hlead
  exact absurd hlead (by simp)

theorem mayFollow_one (hlow : 0xC2 ≤ a.toNat) (hhigh : a.toNat < 0xE0) (hb : isTail b = true) :
    MayFollow 1 a b := by
  have h1 : ¬ a < 0xC2 := not_lt_of_toNat hlow
  have hlead : firstTail a = some (1, 0x80, 0xBF) := by
    rw [firstTail, if_neg h1, if_pos (UInt8.lt_iff_toNat_lt.mpr hhigh)]
  rw [isTail_iff] at hb
  exact ⟨_, _, hlead, UInt8.le_iff_toNat_le.mpr hb.1, UInt8.le_iff_toNat_le.mpr hb.2⟩

/-- Of three bytes, the second is bounded from below behind the least leading byte, and from
above behind the one that leads to the numbers that are no characters. -/
theorem mayFollow_two (hlow : 0xE0 ≤ a.toNat) (hhigh : a.toNat < 0xF0) (hb : isTail b = true)
    (hleast : a.toNat = 0xE0 → 0xA0 ≤ b.toNat) (hgap : a.toNat = 0xED → b.toNat ≤ 0x9F) :
    MayFollow 2 a b := by
  rw [isTail_iff] at hb
  have h1 : ¬ a < 0xC2 := not_lt_of_toNat (Nat.le_trans (by decide) hlow)
  have h2 : ¬ a < 0xE0 := not_lt_of_toNat hlow
  unfold MayFollow
  rw [firstTail, if_neg h1, if_neg h2]
  simp only [UInt8.le_iff_toNat_le]
  by_cases he0 : a = 0xE0
  · subst he0
    exact ⟨_, _, rfl, hleast rfl, hb.2⟩
  · by_cases hed : a = 0xED
    · subst hed
      exact ⟨_, _, rfl, hb.1, hgap rfl⟩
    · rw [if_neg he0, if_neg hed, if_pos (UInt8.lt_iff_toNat_lt.mpr hhigh)]
      exact ⟨_, _, rfl, hb.1, hb.2⟩

/-- Of four bytes, the second is bounded from below behind the least leading byte, and from
above behind the greatest. -/
theorem mayFollow_three (hlow : 0xF0 ≤ a.toNat) (hhigh : a.toNat ≤ 0xF4) (hb : isTail b = true)
    (hleast : a.toNat = 0xF0 → 0x90 ≤ b.toNat) (hgreatest : a.toNat = 0xF4 → b.toNat ≤ 0x8F) :
    MayFollow 3 a b := by
  rw [isTail_iff] at hb
  have h1 : ¬ a < 0xC2 := not_lt_of_toNat (Nat.le_trans (by decide) hlow)
  have h2 : ¬ a < 0xE0 := not_lt_of_toNat (Nat.le_trans (by decide) hlow)
  have h3 : ¬ a < 0xF0 := not_lt_of_toNat hlow
  have hne : ∀ k : UInt8, k.toNat < 0xF0 → a ≠ k := by
    rintro k hk rfl
    omega
  unfold MayFollow
  rw [firstTail, if_neg h1, if_neg h2, if_neg (hne 0xE0 (by decide)), if_neg (hne 0xED (by decide)),
    if_neg h3]
  simp only [UInt8.le_iff_toNat_le]
  by_cases hf0 : a = 0xF0
  · subst hf0
    exact ⟨_, _, rfl, hleast rfl, hb.2⟩
  · by_cases hf4 : a = 0xF4
    · subst hf4
      exact ⟨_, _, rfl, hb.1, hgreatest rfl⟩
    · have hlt : a < 0xF4 := by
        have hne4 : a.toNat ≠ 0xF4 := fun heq => hf4 (UInt8.toNat_inj.mp heq)
        rw [UInt8.lt_iff_toNat_lt]
        exact Nat.lt_of_le_of_ne hhigh hne4
      rw [if_neg hf0, if_pos hlt]
      exact ⟨_, _, rfl, hb.1, hb.2⟩

/-! ### Reading a character of each length -/

theorem decodeLossy_one (ha : a.toNat < 0x80) :
    decodeLossy (a :: rest) = Char.ofNat a.toNat :: decodeLossy rest := by
  rw [decodeLossy, if_pos (UInt8.lt_iff_toNat_lt.mpr ha)]

theorem decodeLossy_two (hab : MayFollow 1 a b) :
    decodeLossy (a :: b :: rest) =
      Char.ofNat (a.toNat % 32 * 64 + tailBits b) :: decodeLossy rest := by
  obtain ⟨ha, low, high, hlead, hb⟩ := hab.exists_bounds
  rw [decodeLossy, if_neg ha]
  simp only [hlead, hb]
  rfl

theorem decodeLossy_three (hab : MayFollow 2 a b) (hc : isTail c = true) :
    decodeLossy (a :: b :: c :: rest) =
      Char.ofNat ((a.toNat % 16 * 64 + tailBits b) * 64 + tailBits c) :: decodeLossy rest := by
  obtain ⟨ha, low, high, hlead, hb⟩ := hab.exists_bounds
  rw [decodeLossy, if_neg ha]
  simp only [hlead, hb, hc]
  rfl

theorem decodeLossy_four (hab : MayFollow 3 a b) (hc : isTail c = true)
    (hd : isTail d = true) :
    decodeLossy (a :: b :: c :: d :: rest) =
      Char.ofNat (((a.toNat % 8 * 64 + tailBits b) * 64 + tailBits c) * 64 + tailBits d) ::
        decodeLossy rest := by
  obtain ⟨ha, low, high, hlead, hb⟩ := hab.exists_bounds
  rw [decodeLossy, if_neg ha]
  simp only [hlead, hb, hc, hd]
  rfl

/-! ### Reading back what was written -/

section

variable {n : Nat} (rest : List UInt8)

theorem decodeLossy_one_byte (h : n < 0x80) :
    decodeLossy (.ofNat n :: rest) = Char.ofNat n :: decodeLossy rest := by
  have hbyte : (UInt8.ofNat n).toNat = n := by
    rw [UInt8.toNat_ofNat']
    omega
  rw [decodeLossy_one (by omega), hbyte]

theorem decodeLossy_two_bytes (h : 0x80 ≤ n) (h' : n < 0x800) :
    decodeLossy (.ofNat (0xC0 + n / 64) :: tailByte n :: rest) =
      Char.ofNat n :: decodeLossy rest := by
  have hlead : (UInt8.ofNat (0xC0 + n / 64)).toNat = 0xC0 + n / 64 := by
    rw [UInt8.toNat_ofNat']
    omega
  have hfollow : MayFollow 1 (.ofNat (0xC0 + n / 64)) (tailByte n) :=
    mayFollow_one (by omega) (by omega) (isTail_tailByte n)
  have hnumber : (0xC0 + n / 64) % 32 * 64 + n % 64 = n := by omega
  rw [decodeLossy_two hfollow, hlead, tailBits_tailByte, hnumber]

/-- The bounds behind `0xE0` and `0xED` hold because the number is not smaller than those of
three bytes, and is that of a character. -/
theorem decodeLossy_three_bytes (h : 0x800 ≤ n) (h' : n < 0x10000)
    (hvalid : n < 0xD800 ∨ 0xDFFF < n) :
    decodeLossy (.ofNat (0xE0 + n / 4096) :: tailByte (n / 64) :: tailByte n :: rest) =
      Char.ofNat n :: decodeLossy rest := by
  have hlead : (UInt8.ofNat (0xE0 + n / 4096)).toNat = 0xE0 + n / 4096 := by
    rw [UInt8.toNat_ofNat']
    omega
  have hfollow : MayFollow 2 (.ofNat (0xE0 + n / 4096)) (tailByte (n / 64)) := by
    have hnext := toNat_tailByte (n / 64)
    exact mayFollow_two (by omega) (by omega) (isTail_tailByte _) (by omega) (by omega)
  have hnumber : ((0xE0 + n / 4096) % 16 * 64 + n / 64 % 64) * 64 + n % 64 = n := by omega
  rw [decodeLossy_three hfollow (isTail_tailByte n), hlead, tailBits_tailByte, tailBits_tailByte,
    hnumber]

/-- The bounds behind `0xF0` and `0xF4` hold because the number is not smaller than those of
four bytes, and is that of a character. -/
theorem decodeLossy_four_bytes (h : 0x10000 ≤ n) (hvalid : n < 0x110000) :
    decodeLossy (.ofNat (0xF0 + n / 262144) :: tailByte (n / 4096) :: tailByte (n / 64) ::
      tailByte n :: rest) = Char.ofNat n :: decodeLossy rest := by
  have hlead : (UInt8.ofNat (0xF0 + n / 262144)).toNat = 0xF0 + n / 262144 := by
    rw [UInt8.toNat_ofNat']
    omega
  have hfollow : MayFollow 3 (.ofNat (0xF0 + n / 262144)) (tailByte (n / 4096)) := by
    have hnext := toNat_tailByte (n / 4096)
    exact mayFollow_three (by omega) (by omega) (isTail_tailByte _) (by omega) (by omega)
  have hnumber : (((0xF0 + n / 262144) % 8 * 64 + n / 4096 % 64) * 64 + n / 64 % 64) * 64 + n % 64 =
      n := by omega
  rw [decodeLossy_four hfollow (isTail_tailByte _) (isTail_tailByte n), hlead, tailBits_tailByte,
    tailBits_tailByte, tailBits_tailByte, hnumber]

end

/-- **A character is read back from its bytes, whatever follows.** -/
theorem decodeLossy_encodeChar_append (x : Char) (rest : List UInt8) :
    decodeLossy (encodeChar x ++ rest) = x :: decodeLossy rest := by
  have hvalid : x.toNat < 0xD800 ∨ (0xDFFF < x.toNat ∧ x.toNat < 0x110000) := x.valid
  have hx : Char.ofNat x.toNat = x := Char.ofNat_toNat x
  simp only [encodeChar]
  by_cases h1 : x.toNat < 0x80
  · rw [if_pos h1, List.singleton_append, decodeLossy_one_byte rest h1, hx]
  · rw [if_neg h1]
    by_cases h2 : x.toNat < 0x800
    · rw [if_pos h2, List.cons_append, List.singleton_append,
        decodeLossy_two_bytes rest (by omega) h2, hx]
    · rw [if_neg h2]
      by_cases h3 : x.toNat < 0x10000
      · rw [if_pos h3, List.cons_append, List.cons_append, List.singleton_append,
          decodeLossy_three_bytes rest (by omega) h3 (by omega), hx]
      · rw [if_neg h3, List.cons_append, List.cons_append, List.cons_append, List.singleton_append,
          decodeLossy_four_bytes rest (by omega) (by omega), hx]

/-! ### Texts -/

/-- **The bytes of a text are read back as the text.** -/
theorem decodeText_encode (s : String) : decodeText (encode s) = s := by
  have hchars : ∀ xs : List Char, decodeLossy (xs.flatMap encodeChar) = xs := by
    intro xs
    induction xs with
    | nil => rfl
    | cons x xs ih => rw [List.flatMap_cons, decodeLossy_encodeChar_append, ih]
  rw [decodeText, encode, hchars, String.ofList_toList]

/-- Texts written one after the other are the bytes of one text. -/
theorem encode_join (texts : List String) :
    (texts.map encode).flatten = encode (String.join texts) := by
  induction texts with
  | nil => rfl
  | cons s texts ih =>
    rw [List.map_cons, List.flatten_cons, ih, encode, encode, encode, String.join_cons,
      String.toList_append, List.flatMap_append]

end Text
end SymbolGraph
