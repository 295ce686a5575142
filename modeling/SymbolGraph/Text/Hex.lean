/-
# Hexadecimal text

A bit pattern is written with a fixed number of digits, the most significant
first, in lower case, and read back from digits of either case.

Key definitions: `hexDigit`, `hexDigits`, `hexText`, `hexValue?`.
-/

namespace SymbolGraph
namespace Text

/-- The digit of a value below sixteen. -/
def hexDigit (n : Nat) : Char := Nat.digitChar n

/-- The last digits of a number, as many as are asked for. -/
def hexDigits : Nat → Nat → List Char
  | 0, _ => []
  | count + 1, n => hexDigits count (n / 16) ++ [hexDigit (n % 16)]

/-- The last digits of a number, as a text. -/
def hexText (count n : Nat) : String := String.ofList (hexDigits count n)

/-- The value of a digit. -/
def hexDigitValue? (c : Char) : Option Nat :=
  if '0' ≤ c && c ≤ '9' then some (c.toNat - '0'.toNat)
  else if 'a' ≤ c && c ≤ 'f' then some (c.toNat - 'a'.toNat + 10)
  else if 'A' ≤ c && c ≤ 'F' then some (c.toNat - 'A'.toNat + 10)
  else none

/-- The number that some digits stand for. -/
def hexValue? (s : String) : Option Nat :=
  s.toList.foldlM (fun n c => (hexDigitValue? c).map fun d => n * 16 + d) 0

end Text
end SymbolGraph
