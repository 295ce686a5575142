/-
# The text of a floating point number

A number is written with the fewest digits that read back. Whether they are
written positionally or with an exponent depends on where the point stands:
`Layout` gives the range of places, counted in digits before the point, for
which no exponent is needed. Positional texts always have a digit after the
point, and a positive exponent has a plus sign. A pattern that is no finite
number has no text.

Key definitions: `Layout`, `Layout.single`, `Layout.double`, `Layout.place`,
`numberText?`, `Binary32.text?`, `Binary64.text?`.
-/
import SymbolGraph.Decimal.Shortest

namespace SymbolGraph
namespace Decimal

/-- Where the point may stand in a text without an exponent. -/
structure Layout where
  /-- The most digits before the point. -/
  most : Int
  /-- One place too far to the left. -/
  beyond : Int
  deriving DecidableEq, Repr

/-- 32-bit numbers have at most thirteen digits before the point, and at most five
zeros right behind it. -/
def Layout.single : Layout := ⟨13, -6⟩

/-- 64-bit numbers have at most sixteen digits before the point, and at most four
zeros right behind it. -/
def Layout.double : Layout := ⟨16, -5⟩

/-- The text of a whole number. -/
def wholeText (n : Int) : List Char :=
  match n with
  | .ofNat n => Nat.toDigits 10 n
  | .negSucc n => '-' :: Nat.toDigits 10 (n + 1)

/-- The text of an exponent, with its sign. -/
def exponentText (e : Int) : List Char :=
  'e' :: if e < 0 then wholeText e else '+' :: wholeText e

/-- The text of `digits * 10 ^ exponent`. -/
def Layout.place (layout : Layout) (digits : Nat) (exponent : Int) : List Char :=
  let ds := Nat.toDigits 10 digits
  let point : Int := ds.length + exponent
  if layout.beyond < point ∧ point ≤ layout.most then
    if 0 ≤ exponent then ds ++ List.replicate exponent.toNat '0' ++ ['.', '0']
    else if 0 < point then ds.take point.toNat ++ '.' :: ds.drop point.toNat
    else '0' :: '.' :: List.replicate (-point).toNat '0' ++ ds
  else
    let rest := ds.drop 1
    ds.take 1 ++ (if rest.isEmpty then [] else '.' :: rest) ++ exponentText (point - 1)

/-- The text of the number a pattern stands for, if it is a finite one. -/
def numberText? (format : Format) (layout : Layout) (bits : Nat) : Option (List Char) :=
  match format.magnitude bits with
  | .nan | .infinite => none
  | .finite mantissa exponent narrow =>
    let size :=
      if mantissa = 0 then ['0', '.', '0']
      else
        let (digits, e) := shortest mantissa exponent narrow
        layout.place digits e
    some (if format.negative bits then '-' :: size else size)

/-- The text of a 32-bit number, if it is a finite one. -/
def Binary32.text? (x : Binary32) : Option (List Char) :=
  numberText? .single .single x.bits.toNat

/-- The text of a 64-bit number, if it is a finite one. -/
def Binary64.text? (x : Binary64) : Option (List Char) :=
  numberText? .double .double x.bits.toNat

end Decimal
end SymbolGraph
