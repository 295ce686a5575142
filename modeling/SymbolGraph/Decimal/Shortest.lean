/-
# The fewest digits that read back

A decimal `digits * 10 ^ exponent` reads back as a floating point number when
it lies in the interval of reals that round to it. For one digit, two digits,
and so on, the two points of that decimal grid around the number are tested;
the first grid with a point in the interval gives the digits, and of two such
points the nearer one is taken, a tie going to the even digits. All of it is
arithmetic on natural numbers: the number, the ends of its interval and the
grid points are brought to one denominator.

Key definitions: `Interval`, `Interval.ofMagnitude`, `Interval.onGrid`,
`shortest`.
-/
import SymbolGraph.Decimal.Binary

namespace SymbolGraph
namespace Decimal

/-- The reals that round to a number: `value`, `low` and `high` over `denominator`. -/
structure Interval where
  /-- The number itself. -/
  value : Nat
  /-- The lower end. -/
  low : Nat
  /-- The upper end. -/
  high : Nat
  /-- The common denominator. -/
  denominator : Nat
  /-- Whether the ends round to the number too. -/
  closed : Bool
  deriving DecidableEq, Repr

namespace Interval

/-- The interval of `mantissa * 2 ^ exponent`, whose ends are the middles between
it and its neighbours; they belong to it when the mantissa is even. -/
def ofMagnitude (mantissa : Nat) (exponent : Int) (narrow : Bool) : Interval :=
  let scale := Nat.pow 2 (exponent - 2).toNat
  { value := 4 * mantissa * scale
    low := (4 * mantissa - if narrow then 1 else 2) * scale
    high := (4 * mantissa + 2) * scale
    denominator := Nat.pow 2 (2 - exponent).toNat
    closed := mantissa % 2 = 0 }

/-- Whether the point `num / den` lies in the interval. -/
def contains (i : Interval) (num den : Nat) : Bool :=
  if i.closed then i.low * den ≤ num * i.denominator && num * i.denominator ≤ i.high * den
  else i.low * den < num * i.denominator && num * i.denominator < i.high * den

/-- The point of the grid `10 ^ exponent` that lies in the interval and is nearest
to the value, given by its multiple of the grid's step. -/
def onGrid (i : Interval) (exponent : Int) : Option Nat :=
  let up := Nat.pow 10 exponent.toNat
  let down := Nat.pow 10 (-exponent).toNat
  let floor := i.value * down / (i.denominator * up)
  let inside (n : Nat) : Bool := i.contains (n * up) down
  match inside floor, inside (floor + 1) with
  | false, false => none
  | true, false => some floor
  | false, true => some (floor + 1)
  | true, true =>
    let twice := 2 * (i.value * down)
    let middle := (2 * floor + 1) * (i.denominator * up)
    if twice < middle then some floor
    else if middle < twice then some (floor + 1)
    else some (if floor % 2 = 0 then floor else floor + 1)

end Interval

/-- The number of decimal digits of `n`, read off within `fuel` divisions. -/
def digitCount : Nat → Nat → Nat
  | 0, _ => 1
  | fuel + 1, n => if n < 10 then 1 else 1 + digitCount fuel (n / 10)

/-- The least `k` from `k` on for which `num * 10 ^ k` reaches `den`. -/
def leadingZeros (num den : Nat) : Nat → Nat → Nat
  | 0, k => k
  | fuel + 1, k => if den ≤ num * Nat.pow 10 k then k else leadingZeros num den fuel (k + 1)

/-- The exponent of the first decimal digit of a positive number `num / den`. -/
def leadingExponent (num den : Nat) : Int :=
  if den ≤ num then (digitCount 400 (num / den) : Int) - 1
  else -(leadingZeros num den 400 1 : Int)

/-- Try the grids with one more digit each, from the coarsest on. -/
def firstGrid (i : Interval) : Nat → Int → Option (Nat × Int)
  | 0, _ => none
  | fuel + 1, exponent =>
    match i.onGrid exponent with
    | some n => some (n, exponent)
    | none => firstGrid i fuel (exponent - 1)

/-- Move the trailing zeros of the digits into the exponent. -/
def withoutTrailingZeros : Nat → Nat → Int → Nat × Int
  | 0, digits, exponent => (digits, exponent)
  | fuel + 1, digits, exponent =>
    if digits % 10 = 0 && digits != 0 then withoutTrailingZeros fuel (digits / 10) (exponent + 1)
    else (digits, exponent)

/-- The digits and exponent of the shortest decimal that reads back as the
positive number `mantissa * 2 ^ exponent`. Seventeen digits always do. -/
def shortest (mantissa : Nat) (exponent : Int) (narrow : Bool) : Nat × Int :=
  let i := Interval.ofMagnitude mantissa exponent narrow
  match firstGrid i 18 (leadingExponent i.value i.denominator) with
  | some (digits, e) => withoutTrailingZeros 20 digits e
  | none => (0, 0)

end Decimal
end SymbolGraph
