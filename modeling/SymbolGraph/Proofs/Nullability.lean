/-
# Null in assignability

Null is a matter of its own in assignability: a type that admits it can be stored only
where it is admitted, and the rest is decided as if neither type admitted it
(`Ty.Made.isAssignableFrom_null`). So a type can be stored where its nullable version is
expected.

The rest is a question of names, and the mark for null must stay out of those. It does,
except from the name of a class without a qualified one, which is its text. Such a class
is not assignable to its own nullable version (`SymbolTable.mark_in_name_shop`), unless
the text of that is by chance among the names above the class.

Key theorems: `Ty.Fits.erasedName_withNullable`, `Ty.Made.isAssignableFrom_null`,
`SymbolTable.mark_in_name_shop`.
-/
import SymbolGraph.Proofs.Erasure
import SymbolGraph.Proofs.UnrelatedClasses

namespace SymbolGraph

open Primitive (unwrap)

/-! ### Names with a mark -/

theorem ne_append_mark {s : String} (h : s.toList.getLast? ≠ some '?') (name : String) :
    s ≠ name ++ "?" := by
  rintro rfl
  exact h (by simp)

namespace Primitive

theorem ofName?_append_mark (name : String) : ofName? (name ++ "?") = none := by
  have hlast : ∀ p ∈ all, p.name.toList.getLast? ≠ some '?' := by decide
  refine List.find?_eq_none.mpr fun p hp => ?_
  simpa using ne_append_mark (hlast p hp) name

theorem ofWrapper?_append_mark (name : String) : ofWrapper? (name ++ "?") = none := by
  have hlast : ∀ p ∈ all, p.wrapper.toList.getLast? ≠ some '?' := by decide
  refine List.find?_eq_none.mpr fun p hp => ?_
  simpa using ne_append_mark (hlast p hp) name

/-- A name with a mark counts as no other. -/
theorem unwrap_eq_append_mark_iff {m name : String} : unwrap m = unwrap (name ++ "?") ↔
    m = name ++ "?" := by
  have hself : unwrap (name ++ "?") = name ++ "?" := by rw [unwrap, ofWrapper?_append_mark]
  rw [hself, unwrap_eq_iff (ofWrapper?_append_mark name) (ofName?_append_mark name)]

theorem unwrap_append_mark_ne_any (name : String) : unwrap (name ++ "?") ≠ Builtin.any := by
  intro h
  have htop : unwrap Builtin.any = unwrap (name ++ "?") := h.symm
  exact ne_append_mark (by decide) name (unwrap_eq_append_mark_iff.mp htop)

end Primitive

namespace Ty

/-! ### What the mark for null changes -/

theorem Fits.kind_of_class {type : Ty} (h : type.Fits) (hclass : type.classElement?.isSome) :
    type.kind = .declared := by
  have hsuits := h.suits
  unfold classElement? at hclass
  split at hclass
  · rename_i hform
    rw [Suits, hform] at hsuits
    exact hsuits.1
  · exact absurd hclass (by simp)

theorem erasure_withNullable (type : Ty) (nullable : Bool) :
    (type.withNullable nullable).erasure = type.erasure := by
  by_cases hs : type.IsSettled
  · have hsettled : (type.withNullable nullable).IsSettled := hs
    have hsame : (type.withNullable nullable).component? = type.component? := rfl
    cases hc : type.component? with
    | none =>
      rw [erasure_of_plain hsettled (hsame.trans hc), erasure_of_plain hs hc]
      rfl
    | some component =>
      rw [erasure_of_component? (hsame.trans hc), erasure_of_component? hc]
  · have hbound : ¬ (type.withNullable nullable).IsSettled := hs
    rw [(of_bound hbound).1, (of_bound hs).1]
    rfl

theorem supertypeNames_withNullable (type : Ty) (nullable : Bool) :
    (type.withNullable nullable).supertypeNames = type.supertypeNames := by
  obtain ⟨_, _, _, _, _, _, _, _, _, form⟩ := type
  cases form <;> rfl

/-- Null admitted or not, a type goes by the same name, unless it is a class without one. -/
theorem Fits.erasedName_withNullable {type : Ty} (h : type.Fits) {nullable : Bool}
    (hsame : type.IsUnnamedClass → type.nullable = nullable) :
    (type.withNullable nullable).erasedName = type.erasedName := by
  have hmarked : (type.withNullable nullable).Fits := h.withNullable nullable
  by_cases hs : type.IsSettled
  · by_cases hu : type.IsUnnamedClass
    · -- nothing was changed, so the text is what it was
      rw [hmarked.erasedName_of_unnamed hu, h.erasedName_of_unnamed hu,
        erasure_withNullable, ← hsame hu]
      rfl
    · rw [hmarked.erasedName_erasure hs hu, h.erasedName_erasure hs hu, erasure_withNullable]
  · have hbound : ¬ (type.withNullable nullable).IsSettled := hs
    rw [(of_bound hbound).2.1, (of_bound hs).2.1]
    rfl

/-- A class without a name that does not admit null goes by its name with the mark behind it once
it does. -/
theorem Fits.erasedName_withNullable_of_unnamed {type : Ty} (h : type.Fits)
    (hu : type.IsUnnamedClass) (hnull : type.nullable = false) :
    (type.withNullable true).erasedName = type.erasedName ++ "?" := by
  have hmarked : (type.withNullable true).Fits := h.withNullable true
  rw [hmarked.erasedName_of_unnamed hu, h.erasedName_of_unnamed hu, erasure_withNullable,
    nullableText_eq_empty_iff.mpr hnull, String.append_empty,
    String.append_assoc]
  rfl

/-! ### One rule for null -/

theorem isAssignableFrom_self {type : Ty} (h : type.isUnknown = false) :
    type.isAssignableFrom type = true := by
  have hnull : type.nullable = false ∨ type.nullable = true :=
    (Bool.eq_false_or_eq_true type.nullable).symm
  exact (isAssignableTo_iff_null h h rfl).mpr hnull

/-- If the names stay the same without the mark, null is decided apart from them. -/
theorem isAssignableFrom_iff_withNullable {a b : Ty}
    (ha : (a.withNullable false).erasedName = a.erasedName)
    (hb : (b.withNullable false).erasedName = b.erasedName) :
    a.isAssignableFrom b = true ↔
      (b.nullable = false ∨ a.nullable = true) ∧
        (a.withNullable false).isAssignableFrom (b.withNullable false) = true := by
  have hnames : (b.withNullable false).GoesBy (a.withNullable false).erasedName ↔
      b.GoesBy a.erasedName := by
    rw [GoesBy, GoesBy, ha, hb, supertypeNames_withNullable]
  have hbare := isAssignableTo_iff (s := b.withNullable false) (o := a.withNullable false)
  rw [hnames, ha] at hbare
  have hmarked := isAssignableTo_iff (s := b) (o := a)
  constructor
  · intro h
    obtain ⟨hfound, hnull, hrest⟩ := hmarked.mp h
    exact ⟨hnull, hbare.mpr ⟨hfound, Or.inl rfl, hrest⟩⟩
  · rintro ⟨hnull, h⟩
    obtain ⟨hfound, -, hrest⟩ := hbare.mp h
    exact hmarked.mpr ⟨hfound, hnull, hrest⟩

/-- A type that was found can be stored where its nullable version is expected, unless it is a
class without a name: then the mark makes the name another. -/
theorem Fits.isAssignableFrom_nullable_iff {type : Ty} (h : type.Fits)
    (hfound : type.isUnknown = false) :
    (type.withNullable true).isAssignableFrom type = true ↔
      (type.IsUnnamedClass →
        type.nullable = true ∨ type.erasedName ++ "?" ∈ type.supertypeNames) := by
  have hiff := isAssignableTo_iff (s := type) (o := type.withNullable true)
  rw [isAssignableTo] at hiff
  by_cases hmark : type.IsUnnamedClass ∧ type.nullable = false
  · obtain ⟨hu, hnull⟩ := hmark
    have hbottom : type.kind ≠ .nothing := by simp [h.kind_of_class hu.1]
    have hother : type.erasedName ≠ type.erasedName ++ "?" := fun heq =>
      absurd (String.append_eq_left_iff.mp heq.symm) (by decide)
    have hname := h.erasedName_withNullable_of_unnamed hu hnull
    have hgoes : type.GoesBy (type.withNullable true).erasedName ↔
        type.erasedName ++ "?" ∈ type.supertypeNames := by
      rw [hname, GoesBy, Primitive.unwrap_eq_append_mark_iff, or_iff_right hother]
      simp only [Primitive.unwrap_eq_append_mark_iff, exists_eq_right]
    have htop : unwrap (type.withNullable true).erasedName ≠ Builtin.any := by
      rw [hname]
      exact Primitive.unwrap_append_mark_ne_any _
    have hfound' : (type.withNullable true).isUnknown = false := hfound
    rw [hiff, and_iff_right ⟨hfound, hfound'⟩, and_iff_right (Or.inl hnull),
      or_iff_right hbottom, or_iff_right htop, hgoes, imp_iff_right hu,
      or_iff_right (ne_true_of_eq_false hnull)]
  · have hsame : type.IsUnnamedClass → type.nullable = true := fun hu =>
      eq_true_of_ne_false fun hnull => hmark ⟨hu, hnull⟩
    have hname : unwrap type.erasedName = unwrap (type.withNullable true).erasedName := by
      rw [h.erasedName_withNullable hsame]
    have hto := isAssignableTo_iff_null (o := type.withNullable true) hfound hfound hname
    exact iff_of_true (hto.mpr (Or.inr rfl)) fun hu => Or.inl (hsame hu)

/-- **Null is decided by one rule**, unless a class without a name admits it: a type that admits
null can be stored only where null is admitted, and the rest is decided without. A type that was
found can be stored where it is expected itself. It can be stored where its nullable version is
expected, but for a class without a name that does not admit null and does not carry the text of
that version. -/
theorem Made.isAssignableFrom_null {a b : Ty} (ha : a.Made) (hb : b.Made)
    (hfound : a.isUnknown = false) :
    ((a.IsUnnamedClass → a.nullable = false) → (b.IsUnnamedClass → b.nullable = false) →
      (a.isAssignableFrom b = true ↔
        (b.nullable = false ∨ a.nullable = true) ∧
          (a.withNullable false).isAssignableFrom (b.withNullable false) = true)) ∧
    a.isAssignableFrom a = true ∧
    ((a.withNullable true).isAssignableFrom a = true ↔
      (a.IsUnnamedClass → a.nullable = true ∨ a.erasedName ++ "?" ∈ a.supertypeNames)) := by
  have hfits : a.Fits := ha.wellFormed.fits
  have hfits' : b.Fits := hb.wellFormed.fits
  refine ⟨fun hmark hmark' => ?_, isAssignableFrom_self hfound,
    hfits.isAssignableFrom_nullable_iff hfound⟩
  exact isAssignableFrom_iff_withNullable (hfits.erasedName_withNullable hmark)
    (hfits'.erasedName_withNullable hmark')

/-- In the table `tree`, `out graph.Tree` with null admitted takes the nested interface, and null
with it, by the rule; and it is taken where its own nullable version is expected. -/
theorem isAssignableFrom_null_tree :
    let a := (SymbolTable.tree.typeOfArgument .full
      ⟨.covariant, some (.named "graph.Tree")⟩).withNullable true
    let b := SymbolTable.tree.typeOf .flat ⟨.decl 16, [], true, []⟩
    a.Made ∧ b.Made ∧ a.isUnknown = false ∧ ¬ b.IsUnnamedClass ∧ b.nullable = true ∧
      a.isAssignableFrom b = true ∧
      (a.withNullable false).isAssignableFrom (b.withNullable false) = true ∧
      a.isAssignableFrom a = true ∧ (a.withNullable true).isAssignableFrom a = true := by
  intro a b
  have ha : a.Made := .withNullable (.typeOfArgument _ _ _) true
  have hb : b.Made := .typeOf _ _ _
  have hnamed : ¬ a.IsUnnamedClass := by decide +kernel
  have hnamed' : ¬ b.IsUnnamedClass := by decide +kernel
  have hstored : a.isAssignableFrom b = true := by decide +kernel
  obtain ⟨hrule, hself, hwiden⟩ := ha.isAssignableFrom_null hb rfl
  have hbare := (hrule (fun hu => absurd hu hnamed) fun hu => absurd hu hnamed').mp hstored
  exact ⟨ha, hb, rfl, hnamed', rfl, hstored, hbare.2, hself,
    hwiden.mpr fun hu => absurd hu hnamed⟩

end Ty

namespace SymbolTable

/-- **The mark for null stays in the name of a class in a function**: the class is not taken where
its nullable version is expected, although null is not in the way and both are the same type
without the mark. -/
theorem mark_in_name_shop : Reachable shop ∧ ∀ d,
    let plain := shop.typeOf d (.decl 15)
    let nullable := shop.typeOf d ⟨.decl 15, [], true, []⟩
    plain.nullable = false ∧ nullable.nullable = true ∧
      nullable.isAssignableFrom plain = false ∧
      (nullable.withNullable false).isAssignableFrom (plain.withNullable false) = true := by
  refine ⟨reachable_shop, fun d => ?_⟩
  cases d <;> decide +kernel

end SymbolTable
end SymbolGraph
