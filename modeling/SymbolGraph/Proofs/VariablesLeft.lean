/-
# The type parameters that a substitution leaves

A substitution is meant to leave none of the type parameters it binds, if there are none in
what it puts in their places. It goes into arguments, components and the bounds of projections,
and there it leaves none. It does not go into the bounds of a type parameter: one that it does
not bind stays as it is, and with it stay the bound type parameters in its bounds. These are
all that can be left (`Ty.mentions_substitute_iff`).

In a signature type parameters have no bounds, so nothing is left in the type of a reference,
unless it is converted in full and stands for a type parameter with bounds
(`SymbolTable.not_mentions_substitute_typeOf`).

Key definitions: `Ty.parameterName?`, `Ty.Mentions`, `Ty.Bindings.Ground`, `Ty.Keeps`,
`SymbolTable.pair`.
Key theorems: `Ty.mentions_substitute_iff`, `SymbolTable.not_mentions_substitute_typeOf`,
`SymbolTable.bound_parameters_left`, `SymbolTable.bound_left_pair`.
-/
import SymbolGraph.Proofs.Substitution
import SymbolGraph.Proofs.UnknownBounds

namespace SymbolGraph
namespace Ty

/-! ### Type parameters in a type -/

/-- The name of the type parameter that the type stands for. -/
def parameterName? (type : Ty) : Option String :=
  match type.form with
  | .variable parameter => some parameter.name
  | .primitive | .array _ | .declared _ _ | .wildcard | .noType | .unknown => none

/-- The type parameter of a name stands somewhere in the type: in an argument, a component or a
bound, at any depth. -/
def Mentions (type : Ty) (name : String) : Prop :=
  ∃ s, type.Contains s ∧ s.parameterName? = some name

theorem parameterName?_of_variable {type : Ty} {parameter : TypeParameter}
    (h : type.form = .variable parameter) : type.parameterName? = some parameter.name := by
  rw [parameterName?, h]

theorem exists_of_parameterName? {type : Ty} {name : String} (h : type.parameterName? = some name) :
    ∃ parameter, type.form = .variable parameter ∧ parameter.name = name := by
  cases hform : type.form with
  | «variable» parameter =>
    rw [parameterName?_of_variable hform] at h
    exact ⟨parameter, rfl, Option.some.inj h⟩
  | _ => exact absurd h (by simp [parameterName?, hform])

theorem parameterName?_of_settled {type : Ty} (h : type.IsSettled) : type.parameterName? = none := by
  unfold IsSettled at h
  unfold parameterName?
  split <;> simp_all

theorem parameterName?_of_rebuilt {type : Ty} (h : type.IsRebuilt) : type.parameterName? = none := by
  unfold IsRebuilt at h
  unfold parameterName?
  split <;> simp_all

theorem mentions_iff {type : Ty} {name : String} :
    type.Mentions name ↔
      type.parameterName? = some name ∨ ∃ part ∈ type.constituents, part.Mentions name := by
  constructor
  · rintro ⟨s, hs, hname⟩
    rcases hs.cases_head with rfl | ⟨part, hpart, hs⟩
    · exact Or.inl hname
    · exact Or.inr ⟨part, hpart, s, hs, hname⟩
  · rintro (hname | ⟨part, hpart, s, hs, hname⟩)
    · exact ⟨type, .refl, hname⟩
    · exact ⟨s, .head hpart hs, hname⟩

theorem mentions_withNullable {type : Ty} {nullable : Bool} {name : String} :
    (type.withNullable nullable).Mentions name ↔ type.Mentions name := by
  rw [mentions_iff, mentions_iff, constituents_withNullable]
  rfl

theorem mentions_array {component : Ty} {name : String} :
    (array component).Mentions name ↔ component.Mentions name := by
  have hself : (array component).parameterName? ≠ some name := by
    simp [parameterName?, array, rendered, bare]
  rw [mentions_iff, or_iff_right hself]
  simp

theorem mentions_declared {element : ClassElement} {arguments : List Ty} {name : String} :
    (declared element arguments).Mentions name ↔ ∃ part ∈ arguments, part.Mentions name := by
  have hself : (declared element arguments).parameterName? ≠ some name := by
    simp [parameterName?, declared, rendered, bare]
  rw [mentions_iff, or_iff_right hself, constituents_declared]

theorem mentions_typeVariable {parameter : TypeParameter} {name : String} :
    (typeVariable parameter).Mentions name ↔
      parameter.name = name ∨ ∃ bound ∈ parameter.bounds, bound.Mentions name := by
  have hself : (typeVariable parameter).parameterName? = some parameter.name := rfl
  rw [mentions_iff, hself, constituents_typeVariable, Option.some.injEq]

/-- In a type whose parts have no parts of their own, these are all there is. -/
theorem forall_contains_of_flat {type : Ty}
    (h : ∀ part ∈ type.constituents, part.constituents.isEmpty = true) {P : Ty → Prop} :
    (∀ s, type.Contains s → P s) ↔ P type ∧ ∀ part ∈ type.constituents, P part := by
  rw [forall_contains_iff]
  refine and_congr_right fun _ => forall₂_congr fun part hpart => ?_
  rw [forall_contains_iff, List.isEmpty_iff.mp (h part hpart)]
  simp

theorem not_mentions_of_leaf {type : Ty} (hs : type.IsSettled) (hparts : type.constituents = [])
    (name : String) : ¬ type.Mentions name := by
  rw [mentions_iff, parameterName?_of_settled hs, hparts]
  simp

/-- The types that bindings put in place of type parameters have none in them. -/
def Bindings.Ground (bindings : Bindings) : Prop :=
  ∀ name bound, bindings.lookup name = some bound → ∀ other, ¬ bound.Mentions other

theorem Bindings.ground_singleton {name : String} {bound : Ty}
    (h : ∀ other, ¬ bound.Mentions other) : Ground [(name, bound)] := by
  intro key bound' hbound
  rw [Keyed.lookup_cons_eq] at hbound
  split at hbound
  · exact Option.some.inj hbound ▸ h
  · exact absurd hbound (by simp)

/-- The substitution comes to a type parameter that it does not bind, and leaves it as it is with
the type parameter of the name in it. -/
def Keeps (type : Ty) (bindings : Bindings) (name : String) : Prop :=
  ∃ s free, type.Enters s ∧ s.parameterName? = some free ∧ bindings.lookup free = none ∧
    s.Mentions name

theorem keeps_of_variable {type : Ty} {parameter : TypeParameter}
    (h : type.form = .variable parameter) {bindings : Bindings} {name : String} :
    type.Keeps bindings name ↔ bindings.lookup parameter.name = none ∧ type.Mentions name := by
  constructor
  · rintro ⟨s, free, hs, hself, hfree, hname⟩
    rcases hs.cases_head with rfl | ⟨part, hpart, -⟩
    · rw [parameterName?_of_variable h] at hself
      exact ⟨Option.some.inj hself ▸ hfree, hname⟩
    · exact absurd hpart (by simp [entered_of_variable h])
  · rintro ⟨hfree, hname⟩
    exact ⟨type, parameter.name, .refl, parameterName?_of_variable h, hfree, hname⟩

theorem keeps_iff_of_not_variable {type : Ty} (h : type.parameterName? = none)
    {bindings : Bindings} {name : String} :
    type.Keeps bindings name ↔ ∃ part ∈ type.entered, part.Keeps bindings name := by
  constructor
  · rintro ⟨s, free, hs, hself, hrest⟩
    rcases hs.cases_head with rfl | ⟨part, hpart, hs⟩
    · exact absurd hself (by simp [h])
    · exact ⟨part, hpart, s, free, hs, hself, hrest⟩
  · rintro ⟨part, hpart, s, free, hs, hrest⟩
    exact ⟨s, free, .head hpart hs, hrest⟩

/-! ### What is left -/

/-- **What a substitution leaves of type parameters** are those that it does not bind, with all that
is in their bounds. -/
theorem mentions_substitute_iff {bindings : Bindings} (h : bindings.Ground) (type : Ty)
    {name : String} : (type.substitute bindings).Mentions name ↔ type.Keeps bindings name := by
  induction type using substitution_induction with
  | «variable» type parameter hform =>
    rw [keeps_of_variable hform, substitute_of_variable hform]
    cases hbound : bindings.lookup parameter.name with
    | none => simp
    | some bound =>
      have hnot : ¬ (bound.admitting type.nullable).Mentions name := by
        rw [admitting, mentions_withNullable]
        exact h parameter.name bound hbound name
      simp [hnot]
  | array type component hform ih =>
    have hother : type.parameterName? = none := by rw [parameterName?, hform]
    rw [substitute_of_array hform, mentions_withNullable, mentions_array, ih,
      keeps_iff_of_not_variable hother, entered_of_array hform]
    simp
  | rebuilt type hrebuilt ih =>
    have hnone : type.parameterName? = none := parameterName?_of_rebuilt hrebuilt
    have hself : (type.mapParts (substitute bindings)).rendered.parameterName? ≠ some name :=
      fun hname => absurd (hnone.symm.trans hname) (by simp)
    rw [substitute_of_rebuilt hrebuilt, mentions_iff, or_iff_right hself,
      constituents_rebuilt hrebuilt, keeps_iff_of_not_variable hnone]
    constructor
    · rintro ⟨part', hpart', hname⟩
      obtain ⟨part, hpart, rfl⟩ := List.mem_map.mp hpart'
      exact ⟨part, hpart, (ih part hpart).mp hname⟩
    · rintro ⟨part, hpart, hkeeps⟩
      exact ⟨_, List.mem_map_of_mem hpart, (ih part hpart).mpr hkeeps⟩

end Ty

/-! ### Types of references -/

namespace SymbolTable

open Ty (unknown)

variable {t : SymbolTable} {class? : DeclId → Option ClassElement}
  {parameter? : DeclId → Option TypeParameter} {arguments : List Ty}

@[simp] theorem entered_marked (depth : Depth) (r : TypeRef) (d : Declaration) (type : Ty) :
    (t.marked depth r d type).entered = type.entered := by
  unfold marked
  split <;> rfl

theorem entered_nestedType (d : Declaration) (element : ClassElement) :
    (t.nestedType d element arguments).entered = arguments := by
  simp [nestedType, Ty.entered, Ty.declared, Ty.rendered, Ty.bare]

/-- A substitution in the type of a reference goes into arguments only; an array without one has
an unknown component. -/
theorem entered_typeOfTarget (id : DeclId) (d : Declaration) :
    ∀ part ∈ (t.typeOfTarget class? parameter? arguments id d).entered,
      part ∈ arguments ∨ part = unknown := by
  have hnone : ∀ part ∈ ([] : List Ty), part ∈ arguments ∨ part = unknown :=
    fun part hpart => absurd hpart List.not_mem_nil
  unfold typeOfTarget
  cases d.typeKind with
  | primitive | unit | nothing | wildcard | other => exact hnone
  | array =>
    refine List.forall_mem_singleton.mpr ?_
    cases arguments with
    | nil => exact Or.inr rfl
    | cons argument _ => exact Or.inl List.mem_cons_self
  | «variable» =>
    cases parameter? id with
    | none => exact hnone
    | some parameter => exact hnone
  | declared =>
    cases class? id with
    | none => exact hnone
    | some element =>
      simp only [entered_nestedType]
      exact fun part hpart => Or.inl hpart

theorem entered_assembleType {depth : Depth} {r : TypeRef} :
    ∀ part ∈ (t.assembleType depth class? parameter? arguments r).entered,
      part ∈ arguments ∨ part = unknown := by
  unfold assembleType
  split
  · exact fun part hpart => absurd hpart List.not_mem_nil
  · split
    · exact fun part hpart => absurd hpart List.not_mem_nil
    · rw [entered_marked]
      exact entered_typeOfTarget _ _

/-- Inside a type in a signature type parameters have no bounds. -/
theorem upperBounds_of_inType {type s : Ty} (h : (Node.type type).Every Node.InType)
    (hs : type.Enters s) {parameter : TypeParameter} (hform : s.form = .variable parameter) :
    s.upperBounds = [] :=
  (h (.type s) (holds_of_contains hs.contains)).1.2.2 (Or.inr ⟨parameter, hform⟩)

/-- The type of a reference in full, if it stands for a type parameter, has the bounds of that. -/
theorem upperBounds_typeOf {r : TypeRef} (h : ¬ t.PointsAtBounded r) {parameter : TypeParameter}
    (hform : (t.typeOf .full r).form = .variable parameter) :
    (t.typeOf .full r).upperBounds = [] := by
  have hsettled : ¬ (t.typeOf .full r).IsSettled := by simp [Ty.IsSettled, hform]
  cases htarget : t.target? r with
  | none =>
    have hlost : t.typeOf .full r = unknown := assembleType_of_no_target htarget .bounded
    rw [hlost]
    rfl
  | some d =>
    by_cases hk : d.typeKind = .variable
    · obtain ⟨p, hp⟩ := Declaration.exists_asTypeParameter_of_typeKind hk
      obtain ⟨id, hr, hd⟩ := Option.bind_eq_some_iff.mp htarget
      have hbounds : p.bounds = [] := by
        rw [pointsAtBounded_iff htarget hp] at h
        exact not_not.mp h
      have hbounded : t.typeParameter? .bounded id = _ :=
        conversion_eq_some_iff.mpr ⟨d, p, hd, hp, rfl⟩
      unfold typeOf
      simp only [assembleType_of_decl? hr hd, typeOfTarget, hk, hbounded, hbounds]
      rfl
    · exact absurd (isSettled_typeOf htarget hk .full) hsettled

/-- Only in full a type parameter has its bounds, and only where the whole reference stands for
it. -/
theorem upperBounds_of_enters {depth : Depth} {r : TypeRef} {s : Ty}
    (hs : (t.typeOf depth r).Enters s) (h : depth = .full → ¬ t.PointsAtBounded r)
    {parameter : TypeParameter} (hform : s.form = .variable parameter) : s.upperBounds = [] := by
  have hsignature : (t.signatureType r).Enters s → s.upperBounds = [] := fun hs =>
    upperBounds_of_inType (t.every_signatureType r) hs hform
  cases depth with
  | bounded | flat => exact hsignature hs
  | full =>
    rcases hs.cases_head with rfl | ⟨part, hpart, hs⟩
    · exact upperBounds_typeOf (h rfl) hform
    · rcases entered_assembleType part hpart with hargument | rfl
      · exact upperBounds_of_inType (t.every_signatureArguments _ part hargument) hs hform
      · exact upperBounds_of_inType Ty.core_unknown.every hs hform

/-- **In the type of a reference no bound type parameter is left**, unless it is converted in full
and stands for a type parameter with bounds. -/
theorem not_mentions_substitute_typeOf {bindings : Ty.Bindings} (h : bindings.Ground)
    {depth : Depth} {r : TypeRef} (hr : depth = .full → ¬ t.PointsAtBounded r) {name : String}
    (hname : bindings.lookup name ≠ none) :
    ¬ ((t.typeOf depth r).substitute bindings).Mentions name := by
  rw [Ty.mentions_substitute_iff h]
  rintro ⟨s, free, hs, hself, hfree, hmentions⟩
  obtain ⟨parameter, hform, -⟩ := Ty.exists_of_parameterName? hself
  have hbounds : s.upperBounds = [] := upperBounds_of_enters hs hr hform
  have htidy : s.Tidy := (Ty.Made.typeOf t depth r).tidy s hs.contains
  rw [Ty.Tidy, hform] at htidy
  obtain ⟨harguments, -, hlower⟩ := htidy
  have hparts : s.constituents = [] := by
    simp [Ty.constituents, Ty.component?, harguments, hbounds, hlower, hform]
  rcases Ty.mentions_iff.mp hmentions with hname' | ⟨part, hpart, -⟩
  · -- the type parameter itself is not bound
    rw [hself] at hname'
    exact hname (Option.some.inj hname' ▸ hfree)
  · exact absurd hpart (by simp [hparts])

/-- **What a substitution leaves of type parameters**, if there are none in what it puts in their
places: those that it does not bind with all that is in their bounds, and no others, in any type. In
the type of a reference no type parameter that it binds is left, unless the reference is converted
in full and stands for a type parameter with bounds. -/
theorem bound_parameters_left {bindings : Ty.Bindings} (h : bindings.Ground) :
    (∀ (type : Ty) (name : String),
      (type.substitute bindings).Mentions name ↔ type.Keeps bindings name) ∧
    ∀ (t : SymbolTable) (depth : Depth) (r : TypeRef),
      (depth = .full → ¬ t.PointsAtBounded r) → ∀ name, bindings.lookup name ≠ none →
        ¬ ((t.typeOf depth r).substitute bindings).Mentions name :=
  ⟨fun type _ => Ty.mentions_substitute_iff h type,
    fun _ _ _ hr _ hname => not_mentions_substitute_typeOf h hr hname⟩

/-- In the table `tree`, `graph.Tree<out T?>` has no `T` left with the class in its place. -/
theorem bound_parameters_left_tree :
    let given : TypeRef :=
      ⟨.named "graph.Tree", [⟨.covariant, some ⟨.decl 15, [], true, []⟩⟩], false, []⟩
    let bindings : Ty.Bindings := [("T", tree.typeOf .full (.named "graph.Tree"))]
    bindings.Ground ∧ ¬ tree.PointsAtBounded given ∧ bindings.lookup "T" ≠ none ∧
      (tree.typeOf .full given).canonicalName = "graph.Tree<out T?>" ∧
      ((tree.typeOf .full given).substitute bindings).canonicalName =
        "graph.Tree<out graph.Tree?>" ∧
      ¬ ((tree.typeOf .full given).substitute bindings).Mentions "T" := by
  intro given bindings
  have hground : bindings.Ground := by
    refine Ty.Bindings.ground_singleton (Ty.not_mentions_of_leaf (by decide +kernel) ?_)
    exact List.isEmpty_iff.mp (by decide +kernel)
  have hfree : ¬ tree.PointsAtBounded given := by
    have htarget : (tree.target? given).map (fun d => d.asTypeParameter.isNone) = some true := by
      decide +kernel
    rintro ⟨d, p, hd, hp, -⟩
    rw [hd, Option.map_some, hp] at htarget
    exact absurd htarget (by simp)
  have hbound : bindings.lookup "T" ≠ none := by simp [bindings]
  exact ⟨hground, hfree, hbound, by decide +kernel, by decide +kernel,
    (bound_parameters_left hground).2 tree .full given (fun _ => hfree) "T" hbound⟩

/-! ### A bound that stays -/

/-- The changes that make the table `pair`. -/
def pairChanges : List Change :=
  [.addFile "src/Pair.kt" "app",
   .declare (.file 0) (Draft.classLike "Pair" .classType),
   .declare (.inside 14) (Draft.typeParameter "T"),
   .declare (.inside 14) ((Draft.typeParameter "U").withBound (.decl 15))]

/-- A class with two type parameters, the second bounded by the first. -/
def pair : SymbolTable := builtin.run pairChanges

theorem reachable_pair : Reachable pair := ⟨pairChanges, rfl⟩

/-- **A bound type parameter stays in the bound of another**: with a class in place of `T` the type
parameter `U` still has the bound `T`. -/
theorem bound_left_pair :
    let bindings : Ty.Bindings := [("T", pair.typeOf .full (.named "kotlin.String"))]
    Reachable pair ∧ bindings.Ground ∧ bindings.lookup "T" ≠ none ∧
      ((pair.typeOf .full (.decl 16)).substitute bindings).Mentions "T" := by
  intro bindings
  have hground : bindings.Ground := by
    refine Ty.Bindings.ground_singleton (Ty.not_mentions_of_leaf (by decide +kernel) ?_)
    exact List.isEmpty_iff.mp (by decide +kernel)
  have hbound : bindings.lookup "T" ≠ none := by simp [bindings]
  have hleft : ((pair.typeOf .full (.decl 16)).substitute bindings).upperBounds.map
      Ty.parameterName? = [some "T"] := by decide +kernel
  obtain ⟨s, hs, hname⟩ := List.mem_map.mp (hleft ▸ List.mem_singleton_self _)
  refine ⟨reachable_pair, hground, hbound, Ty.mentions_iff.mpr (Or.inr ⟨s, ?_, ?_⟩)⟩
  · simp [Ty.constituents, hs]
  · exact Ty.mentions_iff.mpr (Or.inl hname)

end SymbolTable
end SymbolGraph
