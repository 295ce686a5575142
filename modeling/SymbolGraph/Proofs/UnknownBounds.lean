/-
# What was not found, behind a bound

A type that was not found is assignable to nothing, and nothing to it. Assignability asks
only the type itself for that. A type parameter and a projection are found, but erase to
their first bound, and so down to the end of the chain. If what is there was not found,
they go by the name that all such types share, as any class goes by its own
(`SymbolTable.isAssignableFrom_unknown`). So projections of two types that nobody found are
taken for each other, and the top type takes them both
(`SymbolTable.missing_for_missing_tree`).

Among the types of references this concerns type parameters in full only, whose first
bound was not found (`SymbolTable.erasure_typeOf_eq_unknown_iff`).

Key definitions: `SymbolTable.PointsAtLostBound`.
Key theorems: `Ty.WellFormed.erasure_eq_unknown_iff`, `SymbolTable.isAssignableFrom_unknown`,
`SymbolTable.erasure_typeOf_eq_unknown_iff`, `SymbolTable.missing_for_missing_tree`.
-/
import SymbolGraph.Proofs.Erasure
import SymbolGraph.Proofs.TypeAnswers
import SymbolGraph.Proofs.UnrelatedClasses

namespace SymbolGraph

open Primitive (unwrap)

namespace Ty

/-! ### The end of the chain was not found -/

theorem isUnknown_of_not_settled {type : Ty} (h : ¬ type.IsSettled) : type.isUnknown = false := by
  unfold isUnknown
  split
  · rename_i hform
    exact absurd (by rw [IsSettled, hform]; trivial) h
  · rfl

/-- A type erases to what was not found exactly if the end of the chain was not found. -/
theorem WellFormed.erasure_eq_unknown_iff {type : Ty} (h : type.WellFormed) :
    type.erasure = unknown ↔ type.standIn.isUnknown = true := by
  rw [← erasure_standIn]
  constructor
  · intro heq
    rw [← isUnknown_erasure (isSettled_standIn type), heq, isUnknown_unknown]
  · intro hlost
    have hsuits := h.standIn.fits.suits
    unfold isUnknown at hlost
    split at hlost
    · rename_i hform
      rw [Suits, hform] at hsuits
      obtain ⟨nullable, heq⟩ := hsuits
      rw [heq]
      rfl
    · exact absurd hlost (by simp)

theorem WellFormed.erasedName_of_lost {type : Ty} (h : type.WellFormed)
    (hlost : type.erasure = unknown) : type.erasedName = unknownTypeName := by
  rw [← erasedName_standIn, erasedName_of_settled (isSettled_standIn type),
    if_pos (h.erasure_eq_unknown_iff.mp hlost)]

/-- Only a type parameter or a projection is found and erases to what was not found. -/
theorem WellFormed.isUnknown_eq_false_iff {type : Ty} (h : type.WellFormed)
    (hlost : type.erasure = unknown) : type.isUnknown = false ↔ ¬ type.IsSettled := by
  refine ⟨fun hfound hs => ?_, isUnknown_of_not_settled⟩
  have hend := h.erasure_eq_unknown_iff.mp hlost
  rw [standIn_of_settled hs, hfound] at hend
  exact absurd hend (by simp)

theorem Fits.kind_of_not_settled {type : Ty} (h : type.Fits) (hs : ¬ type.IsSettled) :
    type.kind ≠ .nothing := by
  have hsuits := h.suits
  obtain ⟨kind, _, _, _, _, _, _, _, _, form⟩ := type
  cases form with
  | «variable» | wildcard =>
    obtain ⟨hkind, -⟩ := hsuits
    obtain rfl : kind = _ := hkind
    simp
  | _ => exact absurd trivial hs

theorem unwrap_eq_unknownTypeName_iff {m : String} :
    unwrap m = unwrap unknownTypeName ↔ m = unknownTypeName := by
  have hself : unwrap unknownTypeName = unknownTypeName := by decide
  rw [hself, Primitive.unwrap_eq_iff (by decide) (by decide)]

/-- Where a bound hides an unknown type, the bottom type is taken, and what goes by the name that
unknown types share. -/
theorem WellFormed.isAssignableFrom_iff_of_lost {a : Ty} (h : a.WellFormed)
    (hlost : a.erasure = unknown) (b : Ty) :
    a.isAssignableFrom b = true ↔ (b.isUnknown = false ∧ ¬ a.IsSettled) ∧
      (b.nullable = false ∨ a.nullable = true) ∧
      (b.kind = .nothing ∨ b.erasedName = unknownTypeName ∨
        unknownTypeName ∈ b.supertypeNames) := by
  have hiff := isAssignableTo_iff (s := b) (o := a)
  have htop : unwrap unknownTypeName ≠ Builtin.any := by decide
  have hgoes : b.GoesBy unknownTypeName ↔
      b.erasedName = unknownTypeName ∨ unknownTypeName ∈ b.supertypeNames := by
    simp only [GoesBy, unwrap_eq_unknownTypeName_iff, exists_eq_right]
  rw [isAssignableTo] at hiff
  rw [hiff, h.isUnknown_eq_false_iff hlost, h.erasedName_of_lost hlost, or_iff_right htop, hgoes]

/-- A bound that hides an unknown type goes where the top type is expected, or something of the
name that unknown types share, or something that one of the bounds goes by. -/
theorem WellFormed.isAssignableTo_iff_of_lost {b : Ty} (h : b.WellFormed)
    (hlost : b.erasure = unknown) (a : Ty) :
    a.isAssignableFrom b = true ↔ (¬ b.IsSettled ∧ a.isUnknown = false) ∧
      (b.nullable = false ∨ a.nullable = true) ∧
      (a.erasedName = Builtin.any ∨ a.erasedName = unknownTypeName ∨
        ∃ n ∈ b.supertypeNames, unwrap n = unwrap a.erasedName) := by
  have hiff := isAssignableTo_iff (s := b) (o := a)
  have htop : unwrap a.erasedName = Builtin.any ↔ a.erasedName = Builtin.any :=
    Primitive.unwrap_eq_iff (by decide) (by decide)
  have hgoes : b.GoesBy a.erasedName ↔ a.erasedName = unknownTypeName ∨
      ∃ n ∈ b.supertypeNames, unwrap n = unwrap a.erasedName := by
    rw [GoesBy, h.erasedName_of_lost hlost, eq_comm, unwrap_eq_unknownTypeName_iff]
  rw [isAssignableTo] at hiff
  rw [hiff, h.isUnknown_eq_false_iff hlost, htop, hgoes]
  refine and_congr_right fun hfound => and_congr_right fun _ => ?_
  rw [or_iff_right (h.fits.kind_of_not_settled hfound.1)]

end Ty

/-! ### Types of references -/

namespace SymbolTable

variable {t : SymbolTable}

/-- The reference points at a type parameter whose first bound points at no type. -/
def PointsAtLostBound (t : SymbolTable) (r : TypeRef) : Prop :=
  ∃ d p bound bounds, t.target? r = some d ∧ d.asTypeParameter = some p ∧
    p.bounds = bound :: bounds ∧ ¬ t.PointsAtType bound

theorem isSettled_marked {depth : Depth} {r : TypeRef} {d : Declaration} {type : Ty}
    (h : type.IsSettled) : (t.marked depth r d type).IsSettled := by
  unfold marked
  split
  · exact h
  · exact h

/-- Only a type parameter has a type that stands for another. -/
theorem isSettled_assembleType {r : TypeRef} {d : Declaration} (hr : t.target? r = some d)
    (hk : d.typeKind ≠ .variable) {class? : DeclId → Option ClassElement}
    {parameter? : DeclId → Option TypeParameter} {arguments : List Ty} (depth : Depth) :
    (t.assembleType depth class? parameter? arguments r).IsSettled := by
  obtain ⟨id, hr, hd⟩ := Option.bind_eq_some_iff.mp hr
  rw [assembleType_of_decl? hr hd]
  refine isSettled_marked ?_
  unfold typeOfTarget
  cases hkind : d.typeKind with
  | «variable» => exact absurd hkind hk
  | declared => cases class? id <;> trivial
  | _ => trivial

theorem isSettled_typeOf {r : TypeRef} {d : Declaration} (hr : t.target? r = some d)
    (hk : d.typeKind ≠ .variable) (depth : Depth) : (t.typeOf depth r).IsSettled := by
  have hsignature : (t.signatureType r).IsSettled := by
    rw [signatureType_eq_assembleType]
    exact isSettled_assembleType hr hk .flat
  cases depth with
  | full => exact isSettled_assembleType hr hk .bounded
  | bounded | flat => exact hsignature

/-- A type parameter erases to the top type in a signature, where it has no bounds. -/
theorem erasure_signatureType_of_parameter {r : TypeRef} {d : Declaration}
    (hr : t.target? r = some d) (hk : d.typeKind = .variable) :
    (t.signatureType r).erasure = Ty.any := by
  obtain ⟨p, hp⟩ := Declaration.exists_asTypeParameter_of_typeKind hk
  obtain ⟨id, hr, hd⟩ := Option.bind_eq_some_iff.mp hr
  have hflat : t.flatTypeParameter? id = _ := conversion_eq_some_iff.mpr ⟨d, p, hd, hp, rfl⟩
  rw [signatureType_eq_assembleType, assembleType_of_decl? hr hd, typeOfTarget, hk]
  simp only [hflat]
  rfl

theorem erasure_typeOf_of_lost {r : TypeRef} (h : ¬ t.PointsAtType r) (depth : Depth) :
    (t.typeOf depth r).erasure = .unknown := by
  have hlost : (t.typeOf depth r).isUnknown = true :=
    eq_true_of_ne_false fun hfound => h ((isUnknown_typeOf_iff depth r).mp hfound)
  have hwell : (t.typeOf depth r).WellFormed := (Converted.type depth r).wellFormed
  rw [hwell.erasure_eq_unknown_iff]
  by_cases hs : (t.typeOf depth r).IsSettled
  · rwa [Ty.standIn_of_settled hs]
  · exact absurd hlost (by simp [Ty.isUnknown_of_not_settled hs])

theorem erasure_typeOf_ne_unknown {r : TypeRef} {d : Declaration} (hr : t.target? r = some d)
    (htype : d.IsType) (hk : d.typeKind ≠ .variable) (depth : Depth) :
    (t.typeOf depth r).erasure ≠ .unknown := by
  intro heq
  have hfound := (isUnknown_typeOf_iff depth r).mpr ⟨d, hr, htype⟩
  rw [← Ty.isUnknown_erasure (isSettled_typeOf hr hk depth), heq] at hfound
  exact absurd hfound (by simp)

/-- In a signature no bound hides anything. -/
theorem erasure_signatureType_eq_unknown_iff (r : TypeRef) :
    (t.signatureType r).erasure = .unknown ↔ ¬ t.PointsAtType r := by
  refine ⟨?_, fun h => erasure_typeOf_of_lost h .flat⟩
  rintro heq ⟨d, hr, htype⟩
  by_cases hk : d.typeKind = .variable
  · rw [erasure_signatureType_of_parameter hr hk] at heq
    exact absurd (congrArg Ty.isUnknown heq) (by decide)
  · exact erasure_typeOf_ne_unknown hr htype hk .flat heq

theorem parameterShape_unique {r : TypeRef} {d d' : Declaration} {p p' : TypeParameterShape}
    (hr : t.target? r = some d) (hp : d.asTypeParameter = some p) (hr' : t.target? r = some d')
    (hp' : d'.asTypeParameter = some p') : p' = p := by
  obtain rfl : d = d' := Option.some.inj (hr.symm.trans hr')
  exact Option.some.inj (hp'.symm.trans hp)

theorem pointsAtBounded_iff {r : TypeRef} {d : Declaration} {p : TypeParameterShape}
    (hr : t.target? r = some d) (hp : d.asTypeParameter = some p) :
    t.PointsAtBounded r ↔ p.bounds ≠ [] := by
  constructor
  · rintro ⟨d', p', hr', hp', hbounds⟩
    exact parameterShape_unique hr hp hr' hp' ▸ hbounds
  · exact fun hbounds => ⟨d, p, hr, hp, hbounds⟩

theorem pointsAtLostBound_iff {r : TypeRef} {d : Declaration} {p : TypeParameterShape}
    (hr : t.target? r = some d) (hp : d.asTypeParameter = some p) :
    t.PointsAtLostBound r ↔
      ∃ bound bounds, p.bounds = bound :: bounds ∧ ¬ t.PointsAtType bound := by
  constructor
  · rintro ⟨d', p', bound, bounds, hr', hp', hrest⟩
    exact ⟨bound, bounds, parameterShape_unique hr hp hr' hp' ▸ hrest⟩
  · rintro ⟨bound, bounds, hrest⟩
    exact ⟨d, p, bound, bounds, hr, hp, hrest⟩

/-- The bounds of a type parameter are there in full only. -/
theorem erasure_typeOf_parameter_iff {r : TypeRef} {d : Declaration} (hr : t.target? r = some d)
    (hk : d.typeKind = .variable) (depth : Depth) :
    (t.typeOf depth r).erasure = .unknown ↔ depth = .full ∧ t.PointsAtLostBound r := by
  have hsignature : (t.signatureType r).erasure ≠ .unknown := by
    rw [erasure_signatureType_of_parameter hr hk]
    exact fun heq => absurd (congrArg Ty.isUnknown heq) (by decide)
  obtain ⟨p, hp⟩ := Declaration.exists_asTypeParameter_of_typeKind hk
  cases depth with
  | bounded | flat => exact iff_of_false hsignature (by simp)
  | full =>
    rw [and_iff_right rfl, pointsAtLostBound_iff hr hp]
    cases hbounds : p.bounds with
    | nil =>
      have hfree : ¬ t.PointsAtBounded r := by simp [pointsAtBounded_iff hr hp, hbounds]
      have halike := (alike_full_signature hfree).erasure
      rw [erasure_signatureType_of_parameter hr hk] at halike
      exact iff_of_false (fun heq => absurd (heq ▸ halike) (by decide)) (by simp)
    | cons bound bounds =>
      rw [(typeOf_parameter hr hp hbounds).2.1, erasure_signatureType_eq_unknown_iff]
      simp

/-- **The type of a reference erases to an unknown one** if the reference points at no type, and
in full also if it points at a type parameter whose first bound points at none. -/
theorem erasure_typeOf_eq_unknown_iff (depth : Depth) (r : TypeRef) :
    (t.typeOf depth r).erasure = .unknown ↔
      ¬ t.PointsAtType r ∨ depth = .full ∧ t.PointsAtLostBound r := by
  by_cases htype : t.PointsAtType r
  · rw [or_iff_right (not_not.mpr htype)]
    obtain ⟨d, hr, htype⟩ := htype
    by_cases hk : d.typeKind = .variable
    · exact erasure_typeOf_parameter_iff hr hk depth
    · refine iff_of_false (erasure_typeOf_ne_unknown hr htype hk depth) ?_
      rintro ⟨-, d', p, _, _, hr', hp, -⟩
      obtain rfl : d = d' := Option.some.inj (hr.symm.trans hr')
      exact hk (by rw [Declaration.typeKind, Draft.asTypeParameter_eq_some_iff.mp hp])
  · exact iff_of_true (erasure_typeOf_of_lost htype depth) (Or.inl htype)

/-! ### Assignability -/

/-- **What erases to an unknown type is assignable only if a bound hides it.** Then it goes by the
name that unknown types share: what is stored in it is the bottom type or goes by that name too,
and it is stored in the top type, in what goes by that name, and in what one of its bounds goes by.
Null has its say as ever. The types of references erase to an unknown one if the reference points
at no type, and hide one in full only, for a type parameter whose first bound points at none. -/
theorem isAssignableFrom_unknown {a b : Ty} (ha : a.Made) (hb : b.Made) :
    (a.erasure = .unknown →
      (a.isAssignableFrom b = true ↔ (b.isUnknown = false ∧ ¬ a.IsSettled) ∧
        (b.nullable = false ∨ a.nullable = true) ∧
        (b.kind = .nothing ∨ b.erasedName = unknownTypeName ∨
          unknownTypeName ∈ b.supertypeNames))) ∧
    (b.erasure = .unknown →
      (a.isAssignableFrom b = true ↔ (¬ b.IsSettled ∧ a.isUnknown = false) ∧
        (b.nullable = false ∨ a.nullable = true) ∧
        (a.erasedName = Builtin.any ∨ a.erasedName = unknownTypeName ∨
          ∃ n ∈ b.supertypeNames, unwrap n = unwrap a.erasedName))) ∧
    ∀ (t : SymbolTable) (depth : Depth) (r : TypeRef),
      (t.typeOf depth r).erasure = .unknown ↔
        ¬ t.PointsAtType r ∨ depth = .full ∧ t.PointsAtLostBound r :=
  ⟨fun hlost => ha.wellFormed.isAssignableFrom_iff_of_lost hlost b,
    fun hlost => hb.wellFormed.isAssignableTo_iff_of_lost hlost a,
    fun _ depth r => erasure_typeOf_eq_unknown_iff depth r⟩

/-- In the table `tree` nobody declared `graph.Leaf`, and there is no handle 99. A projection of the
one is stored where a projection of the other is expected, but neither takes the class `graph.Tree`
nor is taken for it. -/
theorem isAssignableFrom_unknown_tree :
    let a := tree.typeOfArgument .full ⟨.covariant, some (.named "graph.Leaf")⟩
    let b := tree.typeOf .full (.named "graph.Tree")
    let c := tree.typeOfArgument .flat ⟨.covariant, some (.decl 99)⟩
    a.Made ∧ b.Made ∧ c.Made ∧ a.erasure = .unknown ∧ a.isAssignableFrom b = false ∧
      b.isAssignableFrom a = false ∧ c.isAssignableFrom a = true := by
  intro a b c
  have ha : a.Made := .typeOfArgument _ _ _
  have hb : b.Made := .typeOf _ _ _
  have hc : c.Made := .typeOfArgument _ _ _
  have hlost : a.erasure = .unknown :=
    ha.wellFormed.erasure_eq_unknown_iff.mpr (by decide +kernel)
  refine ⟨ha, hb, hc, hlost, ?_, ?_, ?_⟩
  · rw [← Bool.not_eq_true, (isAssignableFrom_unknown ha hb).1 hlost]
    decide +kernel
  · rw [← Bool.not_eq_true, (isAssignableFrom_unknown hb ha).2.1 hlost]
    decide +kernel
  · rw [(isAssignableFrom_unknown hc ha).2.1 hlost]
    decide +kernel

/-- **Two types that nobody found are taken for each other** behind projections, and the top type
takes both. -/
theorem missing_for_missing_tree : Reachable tree ∧ ∀ d,
    let a := tree.typeOfArgument d ⟨.covariant, some (.named "lib.Missing")⟩
    let b := tree.typeOfArgument d ⟨.covariant, some (.named "lib.Gone")⟩
    a.erasure = .unknown ∧ b.erasure = .unknown ∧ a.isAssignableTo b = true ∧
      b.isAssignableTo a = true ∧ a.isAssignableTo .any = true ∧ b.isAssignableTo .any = true := by
  refine ⟨reachable_tree, fun d => ?_⟩
  -- a projection erases as its bound does
  have hlost : ∀ name, ¬ tree.PointsAtType (.named name) →
      (tree.typeOfArgument d ⟨.covariant, some (.named name)⟩).erasure = .unknown :=
    fun _ h => erasure_typeOf_of_lost h d
  refine ⟨hlost _ (by decide +kernel), hlost _ (by decide +kernel), ?_⟩
  cases d <;> decide +kernel

end SymbolTable
end SymbolGraph
