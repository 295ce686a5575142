/-
# What a type answers, at each depth

The erased name of a type, its text after erasure and what can be assigned to it
look at little of what stands behind the type (`Ty.Alike`). A deeper conversion
changes none of it for a class, an array or a primitive: the names behind a class
are the same at every depth, and arguments are converted alike at all of them.
What a deeper conversion does change is the bounds of a type parameter. They are
there in full only, so a type parameter with bounds erases to its first bound in
full, and to the top type otherwise (`typeOf_parameter`).

Key definitions: `Ty.Alike`, `SymbolTable.PointsAtBounded`,
`SymbolTable.BoundsSeenAlike`.
Key theorems: `Ty.Alike.isAssignableFrom`, `SymbolTable.alike_full_signature`,
`SymbolTable.type_answers_agree`.
-/
import SymbolGraph.Proofs.Growth
import SymbolGraph.Proofs.Resolution
import SymbolGraph.Ty.Operations

namespace SymbolGraph

/-! ### Types that answer alike -/

namespace Ty

/-- Two types answer alike about erasure and assignability. -/
structure Alike (x y : Ty) : Prop where
  unknown : x.isUnknown = y.isUnknown
  kind : x.kind = y.kind
  nullable : x.nullable = y.nullable
  erasedName : x.erasedName = y.erasedName
  erasure : x.erasure.canonicalName = y.erasure.canonicalName
  supertypeNames : x.supertypeNames = y.supertypeNames

namespace Alike

variable {x x' y y' : Ty}

theorem refl (x : Ty) : Alike x x := ⟨rfl, rfl, rfl, rfl, rfl, rfl⟩

theorem symm (h : Alike x y) : Alike y x where
  unknown := h.unknown.symm
  kind := h.kind.symm
  nullable := h.nullable.symm
  erasedName := h.erasedName.symm
  erasure := h.erasure.symm
  supertypeNames := h.supertypeNames.symm

/-- Assignability asks both types nothing else. -/
theorem isAssignableFrom (hx : Alike x x') (hy : Alike y y') :
    x.isAssignableFrom y = x'.isAssignableFrom y' := by
  unfold Ty.isAssignableFrom
  rw [hx.unknown, hx.nullable, hx.erasedName, hy.unknown, hy.kind, hy.nullable, hy.erasedName,
    hy.supertypeNames]

/-- Projections of types that answer alike do so too. A projection from below answers as the
top type does, whatever its type. -/
theorem projected (h : Alike x y) (p : Projection) :
    Alike (SymbolTable.projected p x) (SymbolTable.projected p y) := by
  cases p with
  | invariant => exact h
  | covariant =>
    have hnames : x.erasedName :: x.supertypeNames ++ [] = y.erasedName :: y.supertypeNames ++ [] := by
      rw [h.erasedName, h.supertypeNames]
    exact ⟨rfl, rfl, rfl, h.erasedName, h.erasure, hnames⟩
  | contravariant => exact ⟨rfl, rfl, rfl, rfl, rfl, rfl⟩
  | star => exact refl _

end Alike

theorem alike_projected_of_hidden {p : Projection} (h : p ≠ .invariant ∧ p ≠ .covariant)
    (x y : Ty) : Alike (SymbolTable.projected p x) (SymbolTable.projected p y) := by
  cases p with
  | invariant => exact absurd rfl h.1
  | covariant => exact absurd rfl h.2
  | contravariant => exact ⟨rfl, rfl, rfl, rfl, rfl, rfl⟩
  | star => exact Alike.refl _

end Ty

namespace SymbolTable

variable {t : SymbolTable}

/-! ### References at two depths -/

/-- The reference points at a type parameter with bounds. -/
def PointsAtBounded (t : SymbolTable) (r : TypeRef) : Prop :=
  ∃ d p, t.target? r = some d ∧ d.asTypeParameter = some p ∧ p.bounds ≠ []

theorem signatureType_eq_assembleType (r : TypeRef) : t.signatureType r =
    t.assembleType .flat t.flatClass? t.flatTypeParameter? (t.signatureArguments r.arguments) r := by
  obtain ⟨target, arguments, nullable, annotations⟩ := r
  rw [signatureType]

/-- How deep the annotations on a type are converted makes no difference to its answers. -/
theorem alike_marked (depth depth' : Depth) (r : TypeRef) (d : Declaration) (x : Ty) :
    (t.marked depth r d x).Alike (t.marked depth' r d x) := by
  by_cases hx : x.isUnknown
  · rw [marked, marked, if_pos hx, if_pos hx]
    exact Ty.Alike.refl x
  · rw [marked, marked, if_neg hx, if_neg hx]
    obtain ⟨kind, canonicalName, qualifiedName, nullable, arguments, upper, lower, declaration,
      annotations, form⟩ := x
    cases form <;> cases upper <;> exact ⟨rfl, rfl, rfl, rfl, rfl, rfl⟩

variable {class? : DeclId → Option ClassElement} {parameter? : DeclId → Option TypeParameter}
  {arguments : List Ty}

theorem assembleType_of_decl? {r : TypeRef} {id : DeclId} {d : Declaration}
    (hr : t.resolve? r = some id) (hd : t.decl? id = some d) (depth : Depth) :
    t.assembleType depth class? parameter? arguments r =
      t.marked depth r d (t.typeOfTarget class? parameter? arguments id d) := by
  rw [assembleType, hr]
  simp only [hd]

/-- What stands behind a type is converted to another depth, which leaves the name of a class and
the names above it alone; a type parameter without bounds has none at either depth. -/
theorem alike_marked_typeOfTarget {id : DeclId} {d : Declaration} (hd : t.decl? id = some d)
    (hbounds : ∀ p, d.asTypeParameter = some p → p.bounds = []) (r : TypeRef) :
    (t.marked .bounded r d
        (t.typeOfTarget t.boundedClass? (t.typeParameter? .bounded) arguments id d)).Alike
      (t.marked .flat r d
        (t.typeOfTarget t.flatClass? t.flatTypeParameter? arguments id d)) := by
  cases hk : d.typeKind with
  | declared =>
    obtain ⟨c, hc⟩ := Declaration.exists_asClass_of_typeKind hk
    have hbounded : t.boundedClass? id = _ := conversion_eq_some_iff.mpr ⟨d, c, hd, hc, rfl⟩
    have hflat : t.flatClass? id = _ := conversion_eq_some_iff.mpr ⟨d, c, hd, hc, rfl⟩
    rw [typeOfTarget, typeOfTarget, hk]
    simp only [hbounded, hflat]
    exact ⟨rfl, rfl, rfl, rfl, rfl, rfl⟩
  | «variable» =>
    obtain ⟨p, hp⟩ := Declaration.exists_asTypeParameter_of_typeKind hk
    have hbounded : t.typeParameter? .bounded id = _ :=
      conversion_eq_some_iff.mpr ⟨d, p, hd, hp, rfl⟩
    have hflat : t.flatTypeParameter? id = _ := conversion_eq_some_iff.mpr ⟨d, p, hd, hp, rfl⟩
    rw [typeOfTarget, typeOfTarget, hk]
    simp only [hbounded, hflat, hbounds p hp]
    exact ⟨rfl, rfl, rfl, rfl, rfl, rfl⟩
  | _ =>
    rw [typeOfTarget, typeOfTarget, hk]
    exact alike_marked _ _ r d _

/-- **A type in full answers as it does in a signature**, unless it stands for a type parameter
with bounds. -/
theorem alike_full_signature {r : TypeRef} (h : ¬ t.PointsAtBounded r) :
    (t.typeOf .full r).Alike (t.signatureType r) := by
  rw [signatureType_eq_assembleType]
  unfold typeOf
  cases htarget : t.target? r with
  | none =>
    rw [assembleType_of_no_target htarget, assembleType_of_no_target htarget]
    exact Ty.Alike.refl _
  | some d =>
    obtain ⟨id, hr, hd⟩ := Option.bind_eq_some_iff.mp htarget
    simp only [assembleType_of_decl? hr hd]
    refine alike_marked_typeOfTarget hd (fun p hp => ?_) r
    exact Classical.byContradiction fun hbounds => h ⟨d, p, htarget, hp, hbounds⟩

theorem alike_typeOf {r : TypeRef} {depth depth' : Depth}
    (h : t.PointsAtBounded r → (depth = .full ↔ depth' = .full)) :
    (t.typeOf depth r).Alike (t.typeOf depth' r) := by
  have hsignature : ∀ {depth : Depth}, depth ≠ .full → t.typeOf depth r = t.signatureType r := by
    intro depth hne
    cases depth with
    | full => exact absurd rfl hne
    | bounded | flat => rfl
  by_cases hfull : depth = .full
  · by_cases hfull' : depth' = .full
    · rw [hfull, hfull']
      exact Ty.Alike.refl _
    · rw [hfull, hsignature hfull']
      exact alike_full_signature fun hb => hfull' ((h hb).mp hfull)
  · rw [hsignature hfull]
    by_cases hfull' : depth' = .full
    · rw [hfull']
      exact (alike_full_signature fun hb => hfull ((h hb).mpr hfull')).symm
    · rw [hsignature hfull']
      exact Ty.Alike.refl _

/-! ### Type parameters -/

/-- A type parameter erases to its first bound in full, and at other depths to the top type. -/
theorem typeOf_parameter {r : TypeRef} {d : Declaration} {p : TypeParameterShape} {bound : TypeRef}
    {bounds : List TypeRef} (hr : t.target? r = some d) (hp : d.asTypeParameter = some p)
    (hbounds : p.bounds = bound :: bounds) :
    (t.typeOf .full r).erasedName = (t.signatureType bound).erasedName ∧
      (t.typeOf .full r).erasure = (t.signatureType bound).erasure ∧
      ∀ depth, depth ≠ .full →
        (t.typeOf depth r).erasedName = Builtin.any ∧ (t.typeOf depth r).erasure = Ty.any := by
  have hk : d.typeKind = .variable := by
    rw [Declaration.typeKind, Draft.asTypeParameter_eq_some_iff.mp hp]
  obtain ⟨id, hr, hd⟩ := Option.bind_eq_some_iff.mp hr
  have hflat : t.flatTypeParameter? id = _ := conversion_eq_some_iff.mpr ⟨d, p, hd, hp, rfl⟩
  have hbounded : t.typeParameter? .bounded id = _ :=
    conversion_eq_some_iff.mpr ⟨d, p, hd, hp, rfl⟩
  have hsignature : (t.signatureType r).erasedName = Builtin.any ∧
      (t.signatureType r).erasure = Ty.any := by
    rw [signatureType_eq_assembleType, assembleType_of_decl? hr hd, typeOfTarget, hk]
    simp only [hflat]
    exact ⟨rfl, rfl⟩
  have hfull : (t.typeOf .full r).erasedName = (t.signatureType bound).erasedName ∧
      (t.typeOf .full r).erasure = (t.signatureType bound).erasure := by
    unfold typeOf
    simp only [assembleType_of_decl? hr hd, typeOfTarget, hk, hbounded, hbounds]
    exact ⟨rfl, rfl⟩
  refine ⟨hfull.1, hfull.2, fun depth hne => ?_⟩
  cases depth with
  | full => exact absurd rfl hne
  | bounded | flat => exact hsignature

/-! ### All references -/

/-- If a type parameter with bounds shows, both depths are full or neither is. -/
def BoundsSeenAlike (t : SymbolTable) (p : Projection) (r : TypeRef) (depth depth' : Depth) : Prop :=
  t.PointsAtBounded r → p = .invariant ∨ p = .covariant → (depth = .full ↔ depth' = .full)

theorem alike_projected_typeOf {r : TypeRef} {p : Projection} {depth depth' : Depth}
    (h : t.BoundsSeenAlike p r depth depth') :
    (projected p (t.typeOf depth r)).Alike (projected p (t.typeOf depth' r)) := by
  by_cases hp : p = .invariant ∨ p = .covariant
  · exact (alike_typeOf fun hb => h hb hp).projected p
  · exact Ty.alike_projected_of_hidden (not_or.mp hp) _ _

/-- **What a type answers does not depend on the depth of its conversion**, but for the bounds of
a type parameter. References, plain (`.invariant`) or under a projection, have the same erased
name, the same text after erasure and the same assignability at all depths. A type parameter with
bounds erases to its first bound in full, and to the top type at the other two depths. -/
theorem type_answers_agree (t : SymbolTable) :
    (∀ (r s : TypeRef) (p q : Projection) (d d' e e' : Depth),
      t.BoundsSeenAlike p r d d' → t.BoundsSeenAlike q s e e' →
      (projected p (t.typeOf d r)).erasedName = (projected p (t.typeOf d' r)).erasedName ∧
      (projected p (t.typeOf d r)).erasure.canonicalName =
        (projected p (t.typeOf d' r)).erasure.canonicalName ∧
      (projected p (t.typeOf d r)).isAssignableFrom (projected q (t.typeOf e s)) =
        (projected p (t.typeOf d' r)).isAssignableFrom (projected q (t.typeOf e' s))) ∧
    ∀ (r : TypeRef) (d : Declaration) (p : TypeParameterShape) (bound : TypeRef)
      (bounds : List TypeRef),
      t.target? r = some d → d.asTypeParameter = some p → p.bounds = bound :: bounds →
      (t.typeOf .full r).erasedName = (t.signatureType bound).erasedName ∧
      (t.typeOf .full r).erasure = (t.signatureType bound).erasure ∧
      ∀ depth, depth ≠ .full →
        (t.typeOf depth r).erasedName = Builtin.any ∧ (t.typeOf depth r).erasure = Ty.any := by
  refine ⟨fun r s p q d d' e e' hr hs => ?_, fun r d p bound bounds => typeOf_parameter⟩
  have halike := alike_projected_typeOf hr
  exact ⟨halike.erasedName, halike.erasure, halike.isAssignableFrom (alike_projected_typeOf hs)⟩

/-- In the table `tree`, `out graph.Tree?` and the type parameter of the class answer the same
flat and with bounds; in full the type parameter erases as `graph.Tree` does. -/
theorem type_answers_agree_tree :
    let given : TypeRef := ⟨.named "graph.Tree", [⟨.star, none⟩], true, []⟩
    tree.BoundsSeenAlike .covariant given .full .flat ∧
    tree.PointsAtBounded (.decl 15) ∧ tree.BoundsSeenAlike .invariant (.decl 15) .bounded .flat ∧
    (projected .covariant (tree.typeOf .full given)).isAssignableFrom
        (tree.typeOf .bounded (.decl 15)) =
      (projected .covariant (tree.typeOf .flat given)).isAssignableFrom
        (tree.typeOf .flat (.decl 15)) ∧
    (tree.typeOf .full (.decl 15)).erasure = (tree.signatureType (.named "graph.Tree")).erasure := by
  intro given
  have hgiven : ¬ tree.PointsAtBounded given := by
    have htarget : (tree.target? given).map (fun d => d.asTypeParameter.isNone) = some true := by
      decide +kernel
    rintro ⟨d, p, hd, hp, -⟩
    rw [hd, Option.map_some, hp] at htarget
    exact absurd htarget (by simp)
  have hparameter : ((tree.target? (.decl 15)).bind (·.asTypeParameter)).map (·.bounds) =
      some [.named "graph.Tree"] := by rfl
  obtain ⟨p, hfound, hbounds⟩ := Option.map_eq_some_iff.mp hparameter
  obtain ⟨d, hd, hp⟩ := Option.bind_eq_some_iff.mp hfound
  obtain ⟨hagree, hbound⟩ := type_answers_agree tree
  have hr : tree.BoundsSeenAlike .covariant given .full .flat := fun hb => absurd hb hgiven
  have hs : tree.BoundsSeenAlike .invariant (.decl 15) .bounded .flat := fun _ _ => by simp
  exact ⟨hr, ⟨d, p, hd, hp, by simp [hbounds]⟩, hs, (hagree _ _ _ _ _ _ _ _ hr hs).2.2,
    (hbound _ d p _ _ hd hp hbounds).2.1⟩

/-- **Bounds are left out below a full conversion**: the type parameter of `graph.Tree`, bounded
by the class, is the class after erasure in full and the top type flat, where it takes a text. -/
theorem bounds_left_out_tree : Reachable tree ∧
    (tree.typeOf .full (.decl 15)).erasedName = "graph.Tree" ∧
    (tree.typeOf .flat (.decl 15)).erasedName = "kotlin.Any" ∧
    (tree.typeOf .full (.decl 15)).erasure.canonicalName = "graph.Tree" ∧
    (tree.typeOf .flat (.decl 15)).erasure.canonicalName = "kotlin.Any" ∧
    (tree.typeOf .full (.decl 15)).isAssignableFrom
      (tree.typeOf .full (.named "kotlin.String")) = false ∧
    (tree.typeOf .flat (.decl 15)).isAssignableFrom
      (tree.typeOf .full (.named "kotlin.String")) = true := by
  refine ⟨reachable_tree, ?_, ?_, ?_, ?_, ?_, ?_⟩ <;> decide +kernel

end SymbolTable
end SymbolGraph
