/-
# Primitive types and their wrappers

A primitive type has the class that wraps it for a counterpart, and a class with the name of a
wrapper has the primitive type. The two go by one name, as a wrapper's name counts as its
primitive's, so what is left of assigning the one to the other is a question of null
(`Ty.isAssignableTo_iff_null`). Arguments, annotations and the names above the wrapper are of no
matter to it.

The wrapper of a primitive type takes over its mark for null, so each can be stored as the other.
The primitive type of a wrapper is made without the mark. So the wrapper takes what it was made
of, and gives it back only if it admits no null itself (`Ty.Made.counterparts_assignable`). A
nullable primitive that is boxed and unboxed again does not take its own wrapper any more
(`Ty.null_lost_in_unboxing`).

Key theorems: `Ty.boxed?_eq_some_iff`, `Ty.unboxed?_eq_some_iff`, `Ty.Made.counterparts_assignable`,
`Ty.null_lost_in_unboxing`.
-/
import SymbolGraph.Proofs.Assignability
import SymbolGraph.Proofs.Erasure

namespace SymbolGraph

open Primitive (unwrap)

/-! ### Names of primitives and wrappers -/

theorem Primitive.unwrap_wrapper (p : Primitive) : unwrap p.wrapper = p.name := by
  rw [unwrap, ofWrapper?_wrapper]

/-- No primitive has the name of a wrapper. -/
theorem Primitive.unwrap_name (p : Primitive) : unwrap p.name = p.name := by cases p <;> decide

theorem TypeKind.primitive?_eq_some_iff {kind : TypeKind} {p : Primitive} :
    kind.primitive? = some p ↔ kind = .primitive p := by
  cases kind <;> simp [primitive?]

namespace Ty

/-! ### Types by their qualified names -/

/-- A type with a qualified name was found, and goes by it. -/
theorem Fits.erasedName_of_qualifiedName {type : Ty} (h : type.Fits) {name : String}
    (hname : type.qualifiedName = some name) :
    type.isUnknown = false ∧ type.erasedName = name := by
  have hsuits := h.suits
  have hfound : type.IsSettled ∧ type.isUnknown = false := by
    obtain ⟨kind, canonicalName, qualifiedName, nullable, arguments, upper, lower, declaration,
      annotations, form⟩ := type
    obtain rfl : qualifiedName = some name := hname
    cases form with
    | «variable» | wildcard => exact absurd hsuits.2.1 (by simp)
    | unknown =>
      obtain ⟨null, heq⟩ := hsuits
      have hnone : some name = none := congrArg Ty.qualifiedName heq
      exact absurd hnone (by simp)
    | _ => exact ⟨trivial, rfl⟩
  obtain ⟨hs, hknown⟩ := hfound
  refine ⟨hknown, ?_⟩
  rw [erasedName_of_settled hs, hknown, hname]
  rfl

/-- Only primitive types are of a primitive kind, and they have their names. -/
theorem Fits.qualifiedName_of_primitive {type : Ty} (h : type.Fits) {p : Primitive}
    (hkind : type.kind = .primitive p) : type.qualifiedName = some p.name := by
  have hsuits := h.suits
  obtain ⟨kind, canonicalName, qualifiedName, nullable, arguments, upper, lower, declaration,
    annotations, form⟩ := type
  obtain rfl : kind = .primitive p := hkind
  cases form with
  | primitive =>
    obtain ⟨q, hq, hname⟩ := hsuits
    obtain rfl : p = q := TypeKind.primitive.inj hq
    exact hname
  | unknown =>
    obtain ⟨null, heq⟩ := hsuits
    have hother : TypeKind.primitive p = .other := congrArg Ty.kind heq
    exact absurd hother (by simp)
  | noType =>
    rcases hsuits with ⟨hunit, -⟩ | ⟨hnothing, -⟩
    · exact absurd hunit (by simp)
    · exact absurd hnothing (by simp)
  | _ => exact absurd hsuits.1 (by simp)

/-! ### Counterparts -/

/-- The class that wraps a primitive, with null admitted or not. -/
def wrapperType (p : Primitive) (nullable : Bool) : Ty :=
  (declared (.named p.wrapper .classType) []).withNullable nullable

theorem fits_wrapperType (p : Primitive) (nullable : Bool) : (wrapperType p nullable).Fits := by
  have hmade : (wrapperType p nullable).Made := .withNullable (.declared _ (by simp)) nullable
  exact hmade.wellFormed.fits

/-- The wrapper of a primitive type takes over its mark for null. -/
theorem boxed?_eq_some_iff {type b : Ty} :
    type.boxed? = some b ↔ ∃ p, type.kind = .primitive p ∧ b = wrapperType p type.nullable := by
  rw [boxed?, Option.map_eq_some_iff]
  constructor
  · rintro ⟨p, hp, rfl⟩
    exact ⟨p, TypeKind.primitive?_eq_some_iff.mp hp, rfl⟩
  · rintro ⟨p, hp, rfl⟩
    exact ⟨p, TypeKind.primitive?_eq_some_iff.mpr hp, rfl⟩

/-- The primitive of a wrapper type is made without a mark. -/
theorem unboxed?_eq_some_iff {type u : Ty} :
    type.unboxed? = some u ↔
      ∃ name p, type.qualifiedName = some name ∧ Primitive.ofWrapper? name = some p ∧
        u = ofPrimitive p := by
  rw [unboxed?, Option.map_eq_some_iff]
  constructor
  · rintro ⟨p, hp, rfl⟩
    obtain ⟨name, hname, hp⟩ := Option.bind_eq_some_iff.mp hp
    exact ⟨name, p, hname, hp, rfl⟩
  · rintro ⟨name, p, hname, hp, rfl⟩
    exact ⟨p, Option.bind_eq_some_iff.mpr ⟨name, hname, hp⟩, rfl⟩

/-- **A primitive type and its wrapper can each be stored as the other**, as both admit null or
neither does. **A wrapper takes its primitive type, and goes to it exactly if it admits no
null**, as the primitive type is made without the mark. -/
theorem Made.counterparts_assignable {type : Ty} (h : type.Made) :
    (∀ b, type.boxed? = some b →
      b.nullable = type.nullable ∧ type.isAssignableTo b = true ∧ b.isAssignableTo type = true) ∧
    ∀ u, type.unboxed? = some u →
      u.nullable = false ∧ u.isAssignableTo type = true ∧
        (type.isAssignableTo u = true ↔ type.nullable = false) := by
  have hfits : type.Fits := h.wellFormed.fits
  constructor
  · intro b hb
    obtain ⟨p, hkind, rfl⟩ := boxed?_eq_some_iff.mp hb
    obtain ⟨hknown, hname⟩ :=
      hfits.erasedName_of_qualifiedName (hfits.qualifiedName_of_primitive hkind)
    have hwrapper : (wrapperType p type.nullable).qualifiedName = some p.wrapper := rfl
    obtain ⟨hknown', hname'⟩ :=
      (fits_wrapperType p type.nullable).erasedName_of_qualifiedName hwrapper
    have hsame : unwrap type.erasedName = unwrap (wrapperType p type.nullable).erasedName := by
      rw [hname, hname', Primitive.unwrap_name, Primitive.unwrap_wrapper]
    have hnull : type.nullable = false ∨ type.nullable = true :=
      (Bool.eq_false_or_eq_true type.nullable).symm
    exact ⟨rfl, (isAssignableTo_iff_null hknown hknown' hsame).mpr hnull,
      (isAssignableTo_iff_null hknown' hknown hsame.symm).mpr hnull⟩
  · intro u hu
    obtain ⟨name, p, hqualified, hp, rfl⟩ := unboxed?_eq_some_iff.mp hu
    obtain ⟨hknown, hname⟩ := hfits.erasedName_of_qualifiedName hqualified
    have hsame : unwrap type.erasedName = unwrap (ofPrimitive p).erasedName := by
      have hprimitive : (ofPrimitive p).erasedName = p.name := rfl
      rw [hname, hprimitive, Primitive.unwrap_name, unwrap, hp]
    have hmark : (ofPrimitive p).nullable = false := rfl
    have hto := isAssignableTo_iff_null hknown rfl hsame
    have hfrom := isAssignableTo_iff_null rfl hknown hsame.symm
    refine ⟨hmark, hfrom.mpr (Or.inl hmark), hto.trans ?_⟩
    rw [hmark]
    simp

/-- A nullable `kotlin.Int` and its wrapper go to each other, and so do the class
`java.lang.Integer` and its primitive. -/
theorem counterparts_assignable_int :
    let int := (primitive (.primitive .int)).withNullable true
    let integer := declared (.named "java.lang.Integer" .classType) []
    int.Made ∧ integer.Made ∧
      (∃ b, int.boxed? = some b ∧ b.canonicalName = "java.lang.Integer?" ∧
        int.isAssignableTo b = true ∧ b.isAssignableTo int = true) ∧
      ∃ u, integer.unboxed? = some u ∧ u.canonicalName = "kotlin.Int" ∧
        integer.isAssignableTo u = true ∧ u.isAssignableTo integer = true := by
  intro int integer
  have hint : int.Made := .withNullable (.primitive _) true
  have hinteger : integer.Made := .declared _ (by simp)
  have hboxed : int.boxed? = some (wrapperType .int true) := rfl
  have hunboxed : integer.unboxed? = some (ofPrimitive .int) := by
    exact unboxed?_eq_some_iff.mpr ⟨_, .int, rfl, by decide, rfl⟩
  obtain ⟨-, hto, hfrom⟩ := hint.counterparts_assignable.1 _ hboxed
  obtain ⟨-, hfrom', hto'⟩ := hinteger.counterparts_assignable.2 _ hunboxed
  exact ⟨hint, hinteger, ⟨_, hboxed, by decide +kernel, hto, hfrom⟩,
    ⟨_, hunboxed, by decide +kernel, hto'.mpr rfl, hfrom'⟩⟩

/-- **Null is lost in unboxing**: the wrapper of a nullable `kotlin.Int` admits null, the primitive
type of that wrapper does not, and the wrapper does not go to it. -/
theorem null_lost_in_unboxing :
    let int := (primitive (.primitive .int)).withNullable true
    ∃ b u, int.Made ∧ int.boxed? = some b ∧ b.Made ∧ b.unboxed? = some u ∧
      b.nullable = true ∧ u.nullable = false ∧
      u.isAssignableTo b = true ∧ b.isAssignableTo u = false := by
  intro int
  have hint : int.Made := .withNullable (.primitive _) true
  have hwrapper : (wrapperType .int true).Made := .withNullable (.declared _ (by simp)) true
  have hunboxed : (wrapperType .int true).unboxed? = some (ofPrimitive .int) :=
    unboxed?_eq_some_iff.mpr ⟨_, .int, rfl, by decide, rfl⟩
  exact ⟨wrapperType .int true, ofPrimitive .int, hint, rfl, hwrapper, hunboxed, rfl, rfl,
    by decide +kernel, by decide +kernel⟩

end Ty
end SymbolGraph
