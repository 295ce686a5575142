/-
# References whose type is found

A reference has a type if it points at a class or at a type parameter. It has none if
nobody took the name it is written with, if its handle is of no declaration, or if it
points at a function or a property, which are no types (`isUnknown_typeOf_iff`). How
deep a conversion goes makes no difference to that, and neither do the arguments: a
class with an argument that was not found has a type, with an unknown type in it.

Which arguments stand in the type of a reference depends on what it points at: a class
keeps them all, an array the first one, and all else none. A reference resolves if it
points at a type and the arguments that are kept do so too, all the way down
(`Resolves`). Exactly then nothing in its type is unknown (`found_signatureType_iff`).

Key definitions: `Declaration.IsType`, `SymbolTable.PointsAtType`, `Ty.Contains`,
`Ty.Found`, `SymbolTable.Resolves`.
Key theorems: `SymbolTable.isUnknown_typeOf_iff`, `SymbolTable.found_signatureType_iff`.
-/
import Mathlib.Logic.Relation
import SymbolGraph.Proofs.Converted

namespace SymbolGraph

/-! ### Types with nothing unknown in them -/

namespace Ty

/-- The types that a type is made of: arguments, bounds, and the component of an array. -/
def constituents (type : Ty) : List Ty :=
  type.arguments ++ type.upperBounds ++ type.lowerBounds ++ type.component?.toList

/-- A type is, or contains at any depth, another. -/
def Contains : Ty → Ty → Prop := Relation.ReflTransGen fun type part => part ∈ type.constituents

/-- Nothing in the type is unknown. -/
def Found (type : Ty) : Prop := ∀ s, type.Contains s → s.isUnknown = false

@[simp] theorem isUnknown_unknown : unknown.isUnknown = true := rfl
@[simp] theorem isUnknown_ofPrimitive (p : Primitive) : (ofPrimitive p).isUnknown = false := rfl
@[simp] theorem isUnknown_array (s : Ty) : (array s).isUnknown = false := rfl
@[simp] theorem isUnknown_typeVariable (p : TypeParameter) :
    (typeVariable p).isUnknown = false := rfl
@[simp] theorem isUnknown_wildcard (upper lower : Option Ty) :
    (wildcard upper lower).isUnknown = false := rfl

@[simp] theorem isUnknown_noType (kind : TypeKind) : (noType kind).isUnknown = false := by
  cases kind <;> rfl

@[simp] theorem constituents_ofPrimitive (p : Primitive) : (ofPrimitive p).constituents = [] := rfl
@[simp] theorem constituents_unknown : unknown.constituents = [] := rfl
@[simp] theorem constituents_array (s : Ty) : (array s).constituents = [s, s] := rfl

@[simp] theorem constituents_noType (kind : TypeKind) : (noType kind).constituents = [] := by
  cases kind <;> rfl

@[simp] theorem constituents_typeVariable (p : TypeParameter) :
    (typeVariable p).constituents = p.bounds := by
  simp [constituents, typeVariable, rendered, bare, component?]

@[simp] theorem constituents_declared (element : ClassElement) (arguments : List Ty) :
    (declared element arguments).constituents = arguments := by
  simp [constituents, declared, rendered, bare, component?]

@[simp] theorem constituents_withNullable (type : Ty) (nullable : Bool) :
    (type.withNullable nullable).constituents = type.constituents := rfl

@[simp] theorem constituents_wildcard (upper lower : Option Ty) :
    (wildcard upper lower).constituents = upper.toList ++ lower.toList := by
  simp [constituents, wildcard, rendered, bare, component?]

/-- What holds of all that a type contains holds of the type, and of all that its parts contain. -/
theorem forall_contains_iff {P : Ty → Prop} {type : Ty} :
    (∀ s, type.Contains s → P s) ↔
      P type ∧ ∀ part ∈ type.constituents, ∀ s, part.Contains s → P s := by
  constructor
  · intro h
    exact ⟨h type .refl, fun part hpart s hs => h s (.head hpart hs)⟩
  · rintro ⟨hself, hinner⟩ s hs
    rcases hs.cases_head with rfl | ⟨part, hpart, hs⟩
    · exact hself
    · exact hinner part hpart s hs

theorem found_iff {type : Ty} :
    type.Found ↔ type.isUnknown = false ∧ ∀ part ∈ type.constituents, part.Found :=
  forall_contains_iff

theorem not_found_iff {type : Ty} :
    ¬ type.Found ↔ ∃ s, type.Contains s ∧ s.isUnknown = true := by
  simp [Found]

theorem not_found_unknown : ¬ unknown.Found :=
  not_found_iff.mpr ⟨unknown, .refl, isUnknown_unknown⟩

/-- A projection is made of its bounds. -/
theorem found_wildcard_iff {upper lower : Option Ty} :
    (wildcard upper lower).Found ↔ (∀ s ∈ upper, s.Found) ∧ ∀ s ∈ lower, s.Found := by
  rw [found_iff]
  simp [or_imp, forall_and]

end Ty

/-! ### Declarations of types -/

namespace Declaration

/-- The declaration is a class or a type parameter. -/
def IsType (d : Declaration) : Prop := d.asClass.isSome ∨ d.asTypeParameter.isSome

instance (d : Declaration) : Decidable d.IsType := inferInstanceAs (Decidable (_ ∨ _))

theorem typeKindOfClass_ne (name : Option String) :
    typeKindOfClass name ≠ .other ∧ typeKindOfClass name ≠ .wildcard ∧
      typeKindOfClass name ≠ .variable := by
  unfold typeKindOfClass
  repeat' split
  all_goals simp

/-- A class has the sort of type that its name gives, a type parameter has one of its own,
and functions and properties are no types. -/
theorem typeKind_cases (d : Declaration) :
    (∃ c, d.asClass = some c ∧ d.typeKind = typeKindOfClass d.qualifiedName) ∨
      (∃ p, d.asTypeParameter = some p ∧ d.typeKind = .variable) ∨
      (¬ d.IsType ∧ d.typeKind = .other) := by
  cases hs : d.shape with
  | classLike c => exact Or.inl ⟨c, Draft.asClass_eq_some_iff.mpr hs, by rw [typeKind, hs]⟩
  | typeParameter p =>
    exact Or.inr (Or.inl ⟨p, Draft.asTypeParameter_eq_some_iff.mpr hs, by rw [typeKind, hs]⟩)
  | callable c =>
    refine Or.inr (Or.inr ⟨?_, by rw [typeKind, hs]⟩)
    simp [IsType, Draft.asClass, Draft.asTypeParameter, hs]
  | property p =>
    refine Or.inr (Or.inr ⟨?_, by rw [typeKind, hs]⟩)
    simp [IsType, Draft.asClass, Draft.asTypeParameter, hs]

theorem typeKind_ne_other_iff {d : Declaration} : d.typeKind ≠ .other ↔ d.IsType := by
  rcases d.typeKind_cases with ⟨c, hc, hk⟩ | ⟨p, hp, hk⟩ | ⟨hnone, hk⟩
  · have hother := (typeKindOfClass_ne d.qualifiedName).1
    exact iff_of_true (hk ▸ hother) (Or.inl (by rw [hc]; rfl))
  · exact iff_of_true (by simp [hk]) (Or.inr (by rw [hp]; rfl))
  · exact iff_of_false (by simp [hk]) hnone

theorem typeKind_ne_wildcard (d : Declaration) : d.typeKind ≠ .wildcard := by
  rcases d.typeKind_cases with ⟨c, -, hk⟩ | ⟨p, -, hk⟩ | ⟨-, hk⟩
  · rw [hk]
    exact (typeKindOfClass_ne d.qualifiedName).2.1
  · simp [hk]
  · simp [hk]

theorem exists_asClass_of_typeKind {d : Declaration} (h : d.typeKind = .declared) :
    ∃ c, d.asClass = some c := by
  rcases d.typeKind_cases with ⟨c, hc, -⟩ | ⟨p, -, hk⟩ | ⟨-, hk⟩
  · exact ⟨c, hc⟩
  · exact absurd (h.symm.trans hk) (by simp)
  · exact absurd (h.symm.trans hk) (by simp)

theorem exists_asTypeParameter_of_typeKind {d : Declaration} (h : d.typeKind = .variable) :
    ∃ p, d.asTypeParameter = some p := by
  rcases d.typeKind_cases with ⟨c, -, hk⟩ | ⟨p, hp, -⟩ | ⟨-, hk⟩
  · exact absurd (hk.symm.trans h) (typeKindOfClass_ne d.qualifiedName).2.2
  · exact ⟨p, hp⟩
  · exact absurd (h.symm.trans hk) (by simp)

end Declaration

/-- The arguments that stand in a type of some sort: a class keeps them all, an array the
first, and all else none. -/
def TypeKind.kept {α : Type} (kind : TypeKind) (arguments : List α) : List α :=
  match kind with
  | .declared => arguments
  | .array => arguments.take 1
  | _ => []

theorem TypeKind.kept_map {α β : Type} (kind : TypeKind) (f : α → β) (arguments : List α) :
    kind.kept (arguments.map f) = (kind.kept arguments).map f := by
  cases kind <;> simp [kept]

theorem TypeKind.mem_of_mem_kept {α : Type} {kind : TypeKind} {arguments : List α} {a : α}
    (h : a ∈ kind.kept arguments) : a ∈ arguments := by
  cases kind with
  | declared => exact h
  | array => exact List.mem_of_mem_take h
  | _ => exact absurd h List.not_mem_nil

/-- The type that an argument asks for; a star asks for none. -/
def TypeArgument.asked? (a : TypeArgument) : Option TypeRef :=
  if a.projection = .star then none else a.type

namespace SymbolTable

/-- The reference points at a class or a type parameter. -/
def PointsAtType (t : SymbolTable) (r : TypeRef) : Prop :=
  ∃ d, t.target? r = some d ∧ d.IsType

instance (t : SymbolTable) (r : TypeRef) : Decidable (t.PointsAtType r) :=
  inferInstanceAs (Decidable (∃ d ∈ t.target? r, d.IsType))

/-- The reference points at a type, an array has an argument, and the arguments that are
kept resolve too. -/
inductive Resolves (t : SymbolTable) : TypeRef → Prop
  | intro {r : TypeRef} {d : Declaration} (target : t.target? r = some d) (isType : d.IsType)
      (component : d.typeKind = .array → r.arguments ≠ [])
      (arguments : ∀ a ∈ d.typeKind.kept r.arguments, ∀ s, a.asked? = some s → t.Resolves s) :
      t.Resolves r

variable {t : SymbolTable}

theorem Resolves.pointsAtType {r : TypeRef} (h : t.Resolves r) : t.PointsAtType r := by
  cases h with
  | intro target isType _ _ => exact ⟨_, target, isType⟩

/-- The arguments that are kept resolve with the reference. -/
theorem Resolves.argument {r s : TypeRef} {d : Declaration} {a : TypeArgument}
    (h : t.Resolves r) (hd : t.target? r = some d) (ha : a ∈ d.typeKind.kept r.arguments)
    (hs : a.asked? = some s) : t.Resolves s := by
  cases h with
  | intro target _ _ arguments =>
    have heq := Option.some.inj (target.symm.trans hd)
    exact arguments a (heq ▸ ha) s hs

/-! ### Whether the type of a reference is unknown -/

/-- Conversions that answer for every class and for every type parameter. -/
structure Answers (t : SymbolTable) (class? : DeclId → Option ClassElement)
    (parameter? : DeclId → Option TypeParameter) : Prop where
  classes : ∀ id d c, t.decl? id = some d → d.asClass = some c → ∃ e, class? id = some e
  parameters : ∀ id d p, t.decl? id = some d → d.asTypeParameter = some p →
    ∃ e, parameter? id = some e

theorem answers_flat (t : SymbolTable) : t.Answers t.flatClass? t.flatTypeParameter? where
  classes _ d c hd hc := ⟨_, conversion_eq_some_iff.mpr ⟨d, c, hd, hc, rfl⟩⟩
  parameters _ d p hd hp := ⟨_, conversion_eq_some_iff.mpr ⟨d, p, hd, hp, rfl⟩⟩

theorem answers_bounded (t : SymbolTable) :
    t.Answers t.boundedClass? (t.typeParameter? .bounded) where
  classes _ d c hd hc := ⟨_, conversion_eq_some_iff.mpr ⟨d, c, hd, hc, rfl⟩⟩
  parameters _ d p hd hp := ⟨_, conversion_eq_some_iff.mpr ⟨d, p, hd, hp, rfl⟩⟩

variable {class? : DeclId → Option ClassElement} {parameter? : DeclId → Option TypeParameter}
  {arguments : List Ty}

@[simp] theorem isUnknown_nestedType (d : Declaration) (e : ClassElement) :
    (t.nestedType d e arguments).isUnknown = false := rfl

@[simp] theorem constituents_nestedType (d : Declaration) (e : ClassElement) :
    (t.nestedType d e arguments).constituents = arguments := by
  simp [nestedType, Ty.constituents, Ty.declared, Ty.rendered, Ty.bare, Ty.component?]

theorem isUnknown_typeOfTarget_iff (h : t.Answers class? parameter?) {id : DeclId}
    {d : Declaration} (hd : t.decl? id = some d) :
    (t.typeOfTarget class? parameter? arguments id d).isUnknown = false ↔ d.IsType := by
  rw [← Declaration.typeKind_ne_other_iff]
  unfold typeOfTarget
  cases hk : d.typeKind with
  | declared =>
    obtain ⟨c, hc⟩ := Declaration.exists_asClass_of_typeKind hk
    obtain ⟨e, he⟩ := h.classes id d c hd hc
    simp [he]
  | «variable» =>
    obtain ⟨p, hp⟩ := Declaration.exists_asTypeParameter_of_typeKind hk
    obtain ⟨e, he⟩ := h.parameters id d p hd hp
    simp [he]
  | wildcard => exact absurd hk d.typeKind_ne_wildcard
  | other => simp
  | primitive p => simp
  | unit => simp
  | nothing => simp
  | array => simp

/-! The marks of a reference change neither whether its type is unknown nor what the type
is made of. -/

@[simp] theorem isUnknown_marked (depth : Depth) (r : TypeRef) (d : Declaration) (type : Ty) :
    (t.marked depth r d type).isUnknown = type.isUnknown := by
  unfold marked
  split <;> rfl

@[simp] theorem constituents_marked (depth : Depth) (r : TypeRef) (d : Declaration) (type : Ty) :
    (t.marked depth r d type).constituents = type.constituents := by
  unfold marked
  split <;> rfl

theorem assembleType_of_target? {r : TypeRef} {d : Declaration} (h : t.target? r = some d)
    (depth : Depth) : ∃ id, t.decl? id = some d ∧
      t.assembleType depth class? parameter? arguments r =
        t.marked depth r d (t.typeOfTarget class? parameter? arguments id d) := by
  obtain ⟨id, hid, hd⟩ := Option.bind_eq_some_iff.mp h
  refine ⟨id, hd, ?_⟩
  rw [assembleType, hid]
  simp only [hd]

theorem assembleType_of_no_target {r : TypeRef} (h : t.target? r = none) (depth : Depth) :
    t.assembleType depth class? parameter? arguments r = .unknown := by
  unfold assembleType
  cases hid : t.resolve? r with
  | none => rfl
  | some id =>
    have hd : t.decl? id = none := by
      rw [target?, hid, Option.bind_some] at h
      exact h
    simp only [hd]

theorem isUnknown_assembleType_iff (h : t.Answers class? parameter?) (depth : Depth)
    (r : TypeRef) :
    (t.assembleType depth class? parameter? arguments r).isUnknown = false ↔
      t.PointsAtType r := by
  unfold PointsAtType
  cases hr : t.target? r with
  | none =>
    rw [assembleType_of_no_target hr]
    simp
  | some d =>
    obtain ⟨id, hd, heq⟩ := assembleType_of_target? hr depth
    rw [heq, isUnknown_marked, isUnknown_typeOfTarget_iff h hd]
    simp

theorem isUnknown_signatureType_iff (r : TypeRef) :
    (t.signatureType r).isUnknown = false ↔ t.PointsAtType r := by
  obtain ⟨target, arguments, nullable, annotations⟩ := r
  unfold signatureType
  exact isUnknown_assembleType_iff t.answers_flat .flat _

/-- **A reference has a type exactly if it points at a class or a type parameter**, at
every depth. -/
theorem isUnknown_typeOf_iff (depth : Depth) (r : TypeRef) :
    (t.typeOf depth r).isUnknown = false ↔ t.PointsAtType r := by
  cases depth with
  | full => exact isUnknown_assembleType_iff t.answers_bounded .bounded r
  | bounded => exact isUnknown_signatureType_iff r
  | flat => exact isUnknown_signatureType_iff r

/-! ### Whether anything in the type of a reference is unknown -/

/-- The type of a declaration is made of the arguments that its sort of type keeps. -/
theorem found_typeOfTarget_iff {id : DeclId} {d : Declaration} (hd : t.decl? id = some d) :
    (t.typeOfTarget t.flatClass? t.flatTypeParameter? arguments id d).Found ↔
      d.IsType ∧ (d.typeKind = .array → arguments ≠ []) ∧
        ∀ s ∈ d.typeKind.kept arguments, s.Found := by
  have hknown : (t.typeOfTarget t.flatClass? t.flatTypeParameter? arguments id d).isUnknown = false ↔
      d.IsType := isUnknown_typeOfTarget_iff t.answers_flat hd
  rw [Ty.found_iff, hknown]
  refine and_congr_right fun htype => ?_
  have hother : d.typeKind ≠ .other := Declaration.typeKind_ne_other_iff.mpr htype
  unfold typeOfTarget
  cases hk : d.typeKind with
  | declared =>
    obtain ⟨c, hc⟩ := Declaration.exists_asClass_of_typeKind hk
    obtain ⟨e, he⟩ := t.answers_flat.classes id d c hd hc
    simp [he, TypeKind.kept]
  | «variable» =>
    -- a flat type parameter has no bounds
    obtain ⟨p, hp⟩ := Declaration.exists_asTypeParameter_of_typeKind hk
    have he : t.flatTypeParameter? id = some (t.boundedTypeParameter .flat d p []) :=
      conversion_eq_some_iff.mpr ⟨d, p, hd, hp, rfl⟩
    simp [he, boundedTypeParameter, TypeKind.kept]
  | array =>
    cases arguments with
    | nil => simp [Ty.not_found_unknown]
    | cons s _ => simp [TypeKind.kept]
  | wildcard => exact absurd hk d.typeKind_ne_wildcard
  | other => exact absurd hk hother
  | primitive p => simp [TypeKind.kept]
  | unit => simp [TypeKind.kept]
  | nothing => simp [TypeKind.kept]

theorem found_assembleType_iff {r : TypeRef} :
    (t.assembleType .flat t.flatClass? t.flatTypeParameter? arguments r).Found ↔
      ∃ d, t.target? r = some d ∧ d.IsType ∧ (d.typeKind = .array → arguments ≠ []) ∧
        ∀ s ∈ d.typeKind.kept arguments, s.Found := by
  cases hr : t.target? r with
  | none =>
    rw [assembleType_of_no_target hr]
    simp [Ty.not_found_unknown]
  | some d =>
    obtain ⟨id, hd, heq⟩ := assembleType_of_target? hr .flat
    rw [heq, Ty.found_iff, isUnknown_marked, constituents_marked, ← Ty.found_iff,
      found_typeOfTarget_iff hd]
    simp

theorem found_projected_iff (projection : Projection) (type : Ty) :
    (projected projection type).Found ↔ (projection ≠ .star → type.Found) := by
  cases projection with
  | invariant => simp [projected]
  | covariant => simp [projected, Ty.found_wildcard_iff]
  | contravariant => simp [projected, Ty.found_wildcard_iff]
  | star => simp [projected, Ty.found_wildcard_iff]

theorem resolves_iff {r : TypeRef} :
    t.Resolves r ↔ ∃ d, t.target? r = some d ∧ d.IsType ∧
      (d.typeKind = .array → r.arguments ≠ []) ∧
      ∀ a ∈ d.typeKind.kept r.arguments, ∀ s, a.asked? = some s → t.Resolves s := by
  constructor
  · rintro ⟨target, isType, component, arguments⟩
    exact ⟨_, target, isType, component, arguments⟩
  · rintro ⟨d, target, isType, component, arguments⟩
    exact .intro target isType component arguments

mutual

/-- **Nothing in the type of a reference is unknown exactly if the reference resolves.** -/
theorem found_signatureType_iff : ∀ r : TypeRef, (t.signatureType r).Found ↔ t.Resolves r
  | ⟨target, arguments, nullable, annotations⟩ => by
    have harguments := found_signatureArguments_iff arguments
    unfold signatureType
    rw [found_assembleType_iff, resolves_iff, signatureArguments_eq_map]
    refine exists_congr fun d => and_congr_right fun _ => and_congr_right fun _ => ?_
    rw [TypeKind.kept_map, List.forall_mem_map, ne_eq, List.map_eq_nil_iff]
    refine and_congr_right fun _ => forall₂_congr fun a ha => ?_
    exact harguments a (TypeKind.mem_of_mem_kept ha)

theorem found_signatureArguments_iff : ∀ as : List TypeArgument, ∀ a ∈ as,
    ((t.signatureArgument a).Found ↔ ∀ s, a.asked? = some s → t.Resolves s)
  | [] => fun _ ha => absurd ha List.not_mem_nil
  | a :: as =>
    List.forall_mem_cons.mpr ⟨found_signatureArgument_iff a, found_signatureArguments_iff as⟩

theorem found_signatureArgument_iff : ∀ a : TypeArgument,
    ((t.signatureArgument a).Found ↔ ∀ s, a.asked? = some s → t.Resolves s)
  | ⟨projection, none⟩ => by
    unfold signatureArgument
    simp [Ty.found_wildcard_iff, TypeArgument.asked?]
  | ⟨projection, some r⟩ => by
    have hr := found_signatureType_iff r
    unfold signatureArgument
    rw [found_projected_iff, hr]
    by_cases hstar : projection = .star
    · simp [TypeArgument.asked?, hstar]
    · simp [TypeArgument.asked?, hstar]

end

end SymbolTable
end SymbolGraph
