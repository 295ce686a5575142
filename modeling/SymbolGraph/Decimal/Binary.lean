/-
# Binary floating point numbers

A floating point constant is its bit pattern. Programs compare two of them as
numbers, so the zeros of both signs are equal and a pattern that is no number
equals nothing, itself included (`same`). A finite pattern stands for
`mantissa * 2 ^ exponent` (`Magnitude.finite`), and between two neighbours the
reals nearest to it form an interval, narrower below where the mantissa is a
power of two.

Key definitions: `Format`, `Binary32`, `Binary64`, `Magnitude`, `magnitude`,
`sameNumber`.
-/

namespace SymbolGraph
namespace Decimal

/-- The widths of the fields of a floating point pattern. -/
structure Format where
  /-- Bits of the fraction. -/
  fraction : Nat
  /-- Bits of the exponent. -/
  exponent : Nat
  deriving DecidableEq, Repr

/-- The format of 32-bit numbers. -/
def Format.single : Format := ⟨23, 8⟩

/-- The format of 64-bit numbers. -/
def Format.double : Format := ⟨52, 11⟩

/-- A 32-bit floating point constant. -/
structure Binary32 where
  /-- The bit pattern. -/
  bits : UInt32
  deriving DecidableEq, Repr, Inhabited

/-- A 64-bit floating point constant. -/
structure Binary64 where
  /-- The bit pattern. -/
  bits : UInt64
  deriving DecidableEq, Repr, Inhabited

/-- What a pattern says about the size of its number. -/
inductive Magnitude
  /-- No number at all. -/
  | nan
  /-- Larger than every finite number. -/
  | infinite
  /-- The number `mantissa * 2 ^ exponent`; `narrow` where the neighbour below is
  half as far away as the one above. -/
  | finite (mantissa : Nat) (exponent : Int) (narrow : Bool)
  deriving DecidableEq, Repr

namespace Format

/-- Whether the sign bit is set. -/
def negative (f : Format) (bits : Nat) : Bool := bits.testBit (f.fraction + f.exponent)

/-- The pattern without its sign bit. -/
def unsigned (f : Format) (bits : Nat) : Nat := bits % Nat.pow 2 (f.fraction + f.exponent)

/-- The size of the number a pattern stands for. -/
def magnitude (f : Format) (bits : Nat) : Magnitude :=
  let implicit := Nat.pow 2 f.fraction
  let fraction := bits % implicit
  let biased := bits / implicit % Nat.pow 2 f.exponent
  let least : Int := 2 - Nat.pow 2 (f.exponent - 1) - f.fraction
  if biased = Nat.pow 2 f.exponent - 1 then
    if fraction = 0 then .infinite else .nan
  else if biased = 0 then .finite fraction least false
  else .finite (implicit + fraction) (least + (biased - 1 : Nat)) (fraction = 0 && 1 < biased)

/-- Whether a pattern is no number. -/
def isNaN (f : Format) (bits : Nat) : Bool := f.magnitude bits = .nan

/-- Equality of numbers: the two zeros are equal and no pattern that is no
number equals anything. -/
def sameNumber (f : Format) (a b : Nat) : Bool :=
  !f.isNaN a && !f.isNaN b && (a == b || (f.unsigned a == 0 && f.unsigned b == 0))

end Format

/-- Equality of 32-bit numbers. -/
def Binary32.same (a b : Binary32) : Bool := Format.single.sameNumber a.bits.toNat b.bits.toNat

/-- Equality of 64-bit numbers. -/
def Binary64.same (a b : Binary64) : Bool := Format.double.sameNumber a.bits.toNat b.bits.toNat

example : Binary32.same ⟨0x80000000⟩ ⟨0⟩ = true := by decide
example : Binary64.same ⟨0x7ff8000000000000⟩ ⟨0x7ff8000000000000⟩ = false := by decide

end Decimal
end SymbolGraph
