/-
# Modifiers

A declaration is written with keywords. The element model keeps the twenty-five
that say something about the element itself (`Modifier`); the others mark the
shape of the declaration (`enum`, `companion`, …) or belong to the platform,
and have no modifier of their own. A set of modifiers lists its members in
the fixed order of `Modifier.all`, each once, so equal sets are equal lists.

Key definitions: `Keyword`, `Modifier`, `Keyword.modifier?`,
`Keyword.modifier`, `ModifierSet`, `ModifierSet.ofList`.
Key theorems: `ModifierSet.ext_mem`.
-/
import SymbolGraph.Vocabulary

namespace SymbolGraph

/-- A modifier keyword as a declaration is written with it. -/
inductive Keyword
  | publicAccess | privateAccess | internalAccess | protectedAccess
  | contravariant | covariant
  | overriding | lateinit | enumClass | sealed | annotationClass | data | inner
  | funInterface | valueClass | suspend | tailrec | operator | infixCall | inline | external
  | abstract | final | openClass | vararg | noinline | crossinline | reified
  | expect | actual | const | companion
  | javaDefault | javaNative | javaStatic | javaStrict | javaSynchronized
  | javaTransient | javaVolatile
  deriving DecidableEq, Repr

/-- A modifier of an element. -/
inductive Modifier
  | publicAccess | privateAccess | protectedAccess | internalAccess
  | final | openClass | abstract | sealed | overriding | lateinit | data | inline | suspend
  | infixCall | operator | inner | const | crossinline | noinline | reified | external
  | tailrec | vararg | contravariant | covariant
  deriving DecidableEq, Repr

namespace Keyword

/-- Every keyword, in the order the tables list them. -/
def all : List Keyword :=
  [.publicAccess, .privateAccess, .internalAccess, .protectedAccess, .contravariant, .covariant,
   .overriding, .lateinit, .enumClass, .sealed, .annotationClass, .data, .inner, .funInterface,
   .valueClass, .suspend, .tailrec, .operator, .infixCall, .inline, .external, .abstract, .final,
   .openClass, .vararg, .noinline, .crossinline, .reified, .expect, .actual, .const, .companion,
   .javaDefault, .javaNative, .javaStatic, .javaStrict, .javaSynchronized, .javaTransient,
   .javaVolatile]

/-- The keyword's text in a source file. -/
def text : Keyword → String
  | .publicAccess => "public"
  | .privateAccess => "private"
  | .internalAccess => "internal"
  | .protectedAccess => "protected"
  | .contravariant => "in"
  | .covariant => "out"
  | .overriding => "override"
  | .lateinit => "lateinit"
  | .enumClass => "enum"
  | .sealed => "sealed"
  | .annotationClass => "annotation"
  | .data => "data"
  | .inner => "inner"
  | .funInterface => "fun"
  | .valueClass => "value"
  | .suspend => "suspend"
  | .tailrec => "tailrec"
  | .operator => "operator"
  | .infixCall => "infix"
  | .inline => "inline"
  | .external => "external"
  | .abstract => "abstract"
  | .final => "final"
  | .openClass => "open"
  | .vararg => "vararg"
  | .noinline => "noinline"
  | .crossinline => "crossinline"
  | .reified => "reified"
  | .expect => "expect"
  | .actual => "actual"
  | .const => "const"
  | .companion => "companion"
  | .javaDefault => "default"
  | .javaNative => "native"
  | .javaStatic => "static"
  | .javaStrict => "strictfp"
  | .javaSynchronized => "synchronized"
  | .javaTransient => "transient"
  | .javaVolatile => "volatile"

/-- The name of a keyword in a record, which tells the platform's keywords apart
from those of the language. -/
def label : Keyword → String
  | .publicAccess => "Public"
  | .privateAccess => "Private"
  | .internalAccess => "Internal"
  | .protectedAccess => "Protected"
  | .contravariant => "In"
  | .covariant => "Out"
  | .overriding => "Override"
  | .lateinit => "Lateinit"
  | .enumClass => "Enum"
  | .sealed => "Sealed"
  | .annotationClass => "Annotation"
  | .data => "Data"
  | .inner => "Inner"
  | .funInterface => "Fun"
  | .valueClass => "Value"
  | .suspend => "Suspend"
  | .tailrec => "Tailrec"
  | .operator => "Operator"
  | .infixCall => "Infix"
  | .inline => "Inline"
  | .external => "External"
  | .abstract => "Abstract"
  | .final => "Final"
  | .openClass => "Open"
  | .vararg => "Vararg"
  | .noinline => "Noinline"
  | .crossinline => "Crossinline"
  | .reified => "Reified"
  | .expect => "Expect"
  | .actual => "Actual"
  | .const => "Const"
  | .companion => "Companion"
  | .javaDefault => "JavaDefault"
  | .javaNative => "JavaNative"
  | .javaStatic => "JavaStatic"
  | .javaStrict => "JavaStrict"
  | .javaSynchronized => "JavaSynchronized"
  | .javaTransient => "JavaTransient"
  | .javaVolatile => "JavaVolatile"

instance : Vocabulary Keyword := ⟨all, label⟩

/-- The modifier a keyword stands for, if it has one. -/
def modifier? : Keyword → Option Modifier
  | .publicAccess => some .publicAccess
  | .privateAccess => some .privateAccess
  | .protectedAccess => some .protectedAccess
  | .internalAccess => some .internalAccess
  | .final => some .final
  | .openClass => some .openClass
  | .abstract => some .abstract
  | .sealed => some .sealed
  | .overriding => some .overriding
  | .lateinit => some .lateinit
  | .data => some .data
  | .inline => some .inline
  | .suspend => some .suspend
  | .infixCall => some .infixCall
  | .operator => some .operator
  | .inner => some .inner
  | .const => some .const
  | .crossinline => some .crossinline
  | .noinline => some .noinline
  | .reified => some .reified
  | .external => some .external
  | .tailrec => some .tailrec
  | .vararg => some .vararg
  | .contravariant => some .contravariant
  | .covariant => some .covariant
  | .enumClass | .annotationClass | .funInterface | .valueClass | .expect | .actual
  | .companion | .javaDefault | .javaNative | .javaStatic | .javaStrict | .javaSynchronized
  | .javaTransient | .javaVolatile => none

/-- The modifier an element gets for a keyword: public where none is meant. -/
def modifier (k : Keyword) : Modifier := k.modifier?.getD .publicAccess

end Keyword

namespace Modifier

/-- Every modifier, in the order in which a set lists them. -/
def all : List Modifier :=
  [.publicAccess, .privateAccess, .protectedAccess, .internalAccess, .final, .openClass, .abstract,
   .sealed, .overriding, .lateinit, .data, .inline, .suspend, .infixCall, .operator, .inner,
   .const, .crossinline, .noinline, .reified, .external, .tailrec, .vararg, .contravariant,
   .covariant]

theorem mem_all (m : Modifier) : m ∈ all := by cases m <;> decide

/-- The name under which a modifier is written out. -/
def label : Modifier → String
  | .publicAccess => "Public"
  | .privateAccess => "Private"
  | .protectedAccess => "Protected"
  | .internalAccess => "Internal"
  | .final => "Final"
  | .openClass => "Open"
  | .abstract => "Abstract"
  | .sealed => "Sealed"
  | .overriding => "Override"
  | .lateinit => "Lateinit"
  | .data => "Data"
  | .inline => "Inline"
  | .suspend => "Suspend"
  | .infixCall => "Infix"
  | .operator => "Operator"
  | .inner => "Inner"
  | .const => "Const"
  | .crossinline => "Crossinline"
  | .noinline => "Noinline"
  | .reified => "Reified"
  | .external => "External"
  | .tailrec => "Tailrec"
  | .vararg => "Vararg"
  | .contravariant => "In"
  | .covariant => "Out"

instance : Vocabulary Modifier := ⟨all, label⟩

/-- Whether the modifier says who may see the element. -/
def isVisibility : Modifier → Bool
  | .publicAccess | .privateAccess | .protectedAccess | .internalAccess => true
  | _ => false

end Modifier

/-! ### Sets of modifiers -/

/-- A set of modifiers, as the list of its members in their fixed order. -/
structure ModifierSet where
  /-- The members. -/
  toList : List Modifier
  /-- Each member stands once, and in the order of `Modifier.all`. -/
  ordered : Modifier.all.filter (fun m => decide (m ∈ toList)) = toList
  deriving DecidableEq, Repr

namespace ModifierSet

/-- The set of the modifiers in a list. -/
def ofList (ms : List Modifier) : ModifierSet where
  toList := Modifier.all.filter fun m => decide (m ∈ ms)
  ordered := by
    refine List.filter_congr fun m _ => ?_
    simp [List.mem_filter, Modifier.mem_all]

/-- The set of what the keywords stand for. -/
def ofKeywords (ks : List Keyword) : ModifierSet := ofList (ks.map Keyword.modifier)

/-- The set without members. -/
def empty : ModifierSet := ofList []

/-- Whether a modifier is in the set. -/
def contains (s : ModifierSet) (m : Modifier) : Bool := decide (m ∈ s.toList)

instance : Inhabited ModifierSet := ⟨empty⟩

/-- Sets with the same members are the same. -/
theorem ext_mem {s t : ModifierSet} (h : ∀ m, m ∈ s.toList ↔ m ∈ t.toList) : s = t := by
  obtain ⟨xs, hx⟩ := s
  obtain ⟨ys, hy⟩ := t
  have : xs = ys := by
    rw [← hx, ← hy]
    exact List.filter_congr fun m _ => by simp [h m]
  subst this
  rfl

end ModifierSet
end SymbolGraph
