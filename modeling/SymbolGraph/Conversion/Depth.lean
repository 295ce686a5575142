/-
# How deep a conversion goes

A declaration is converted in full on request. What lies directly below it is
converted with bounds, and everything further down keeps its identity and the
types of its signature only. The three tiers end every chain of conversions
after two steps.

Key definitions: `Depth`, `Depth.descend`, `Depth.rank`.
-/
import SymbolGraph.Vocabulary

namespace SymbolGraph

/-- How much of a declaration is converted. -/
inductive Depth
  /-- Members, nested types, supertypes and array values. -/
  | full
  /-- Members and supertypes. -/
  | bounded
  /-- Identity and signature. -/
  | flat
  deriving DecidableEq, Repr, Inhabited

namespace Depth

/-- Every depth, the deepest conversion first. -/
def all : List Depth := [.full, .bounded, .flat]

/-- The word for a depth. -/
def label : Depth → String
  | .full => "Full"
  | .bounded => "Bounded"
  | .flat => "Flat"

instance : Vocabulary Depth := ⟨all, label⟩

/-- The depth one step further down. -/
def descend : Depth → Depth
  | .full => .bounded
  | .bounded | .flat => .flat

theorem descend_ne_full (d : Depth) : d.descend ≠ .full := by
  cases d <;> simp [descend]

theorem descend_eq_flat {d : Depth} (h : d ≠ .full) : d.descend = .flat := by
  cases d with
  | full => exact absurd rfl h
  | bounded => rfl
  | flat => rfl

/-- How many steps further down a depth is than a full conversion. -/
def rank : Depth → Nat
  | .full => 0
  | .bounded => 1
  | .flat => 2

/-- Whether members, supertypes and bounds are converted. -/
def includesMembers (d : Depth) : Bool := d != .flat

/-- Whether nested types are converted. -/
def includesNestedTypes (d : Depth) : Bool := d == .full

/-- Whether the values of an array are converted. -/
def includesArrayValues (d : Depth) : Bool := d == .full

end Depth
end SymbolGraph
