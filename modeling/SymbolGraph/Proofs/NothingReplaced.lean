/-
# A substitution with nothing to replace

If a substitution binds no type parameter that stands in a type, it has nothing to replace
there, and what it gives should be the type itself. For a type that was put together it is, in
every field, but for the arrays in it: they are made afresh of their components, and lose the
annotations and the declaration that a reference had marked them with
(`Ty.Made.substitute_unbound`). All else is taken over, and the texts that are made again are
the ones that were there, since the names they are made of are.

So nothing changes exactly if no array that the substitution comes to has such marks. The types
of references mark every array (`SymbolTable.Converted.declaration_of_array`), and so they stay
as they are only if there is no array in them.

Key definitions: `Ty.freshArrays`.
Key theorems: `Ty.substitute_eq_freshArrays`, `Ty.freshArrays_eq_self_iff`,
`Ty.Made.substitute_unbound`, `SymbolTable.marks_lost_array`.
-/
import SymbolGraph.Proofs.VariablesLeft

namespace SymbolGraph
namespace Ty

/-! ### Arrays made afresh -/

mutual

/-- The type, with the arrays in it without declaration and annotations. Nothing in a type
parameter is changed. -/
def freshArrays : Ty → Ty
  | t@{ form := .variable _, .. } => t
  | { kind, canonicalName, qualifiedName, nullable, arguments, upperBounds, lowerBounds,
      form := .array component, .. } =>
    { kind, canonicalName, qualifiedName, nullable
      arguments := allFreshArrays arguments
      upperBounds, lowerBounds
      declaration := none
      annotations := []
      form := .array (freshArrays component) }
  | { kind, canonicalName, qualifiedName, nullable, arguments, upperBounds, lowerBounds,
      declaration, annotations, form } =>
    { kind, canonicalName, qualifiedName, nullable
      arguments := allFreshArrays arguments
      upperBounds := allFreshArrays upperBounds
      lowerBounds := allFreshArrays lowerBounds
      declaration, annotations, form }

/-- Make the arrays in each type of a list afresh. -/
def allFreshArrays : List Ty → List Ty
  | [] => []
  | t :: ts => freshArrays t :: allFreshArrays ts

end

theorem allFreshArrays_eq_map : ∀ types : List Ty, allFreshArrays types = types.map freshArrays
  | [] => by rw [allFreshArrays, List.map_nil]
  | type :: types => by rw [allFreshArrays, allFreshArrays_eq_map types, List.map_cons]

theorem freshArrays_of_variable {type : Ty} {parameter : TypeParameter}
    (h : type.form = .variable parameter) : type.freshArrays = type := by
  obtain ⟨kind, canonicalName, qualifiedName, nullable, arguments, upper, lower, declaration,
    annotations, form⟩ := type
  obtain rfl : form = .variable parameter := h
  rw [freshArrays]

theorem freshArrays_of_array {type component : Ty} (h : type.form = .array component) :
    type.freshArrays =
      { type with
        arguments := type.arguments.map freshArrays
        declaration := none
        annotations := []
        form := .array component.freshArrays } := by
  obtain ⟨kind, canonicalName, qualifiedName, nullable, arguments, upper, lower, declaration,
    annotations, form⟩ := type
  obtain rfl : form = .array component := h
  rw [freshArrays, allFreshArrays_eq_map]

theorem freshArrays_of_rebuilt {type : Ty} (h : type.IsRebuilt) :
    type.freshArrays = type.mapParts freshArrays := by
  obtain ⟨kind, canonicalName, qualifiedName, nullable, arguments, upper, lower, declaration,
    annotations, form⟩ := type
  cases form with
  | «variable» | array => exact h.elim
  | _ => simp only [freshArrays, allFreshArrays_eq_map, mapParts]

@[simp] theorem canonicalName_freshArrays (type : Ty) :
    type.freshArrays.canonicalName = type.canonicalName := by
  obtain ⟨kind, canonicalName, qualifiedName, nullable, arguments, upper, lower, declaration,
    annotations, form⟩ := type
  cases form <;> rfl

/-! ### The text stays -/

variable {f : Ty → Ty}

theorem map_canonicalName (hf : ∀ s, (f s).canonicalName = s.canonicalName) (types : List Ty) :
    (types.map f).map canonicalName = types.map canonicalName := by
  rw [List.map_map]
  exact List.map_congr_left fun s _ => hf s

theorem argumentText_mapParts (hf : ∀ s, (f s).canonicalName = s.canonicalName) (type : Ty) :
    (type.mapParts f).argumentText = type.argumentText := by
  simp [argumentText, mapParts, map_canonicalName hf]

/-- The text of a type depends on the texts of its parts only. -/
theorem render_mapParts (hf : ∀ s, (f s).canonicalName = s.canonicalName) (type : Ty) :
    (type.mapParts f).render = type.render := by
  have hform : (type.mapParts f).form = type.form := rfl
  unfold render
  rw [argumentText_mapParts hf, hform]
  cases type.form with
  | wildcard =>
    simp only [mapParts]
    cases type.lowerBounds <;> cases type.upperBounds <;> simp [hf]
  | _ => rfl

/-! ### A substitution without effect -/

/-- The array of a component made afresh is the array that was there, with this component and without
marks. -/
theorem withNullable_array_fresh {type component : Ty} (h : type.Fits ∧ type.Tidy)
    (hform : type.form = .array component) :
    (array component.freshArrays).withNullable type.nullable =
      { type with
        arguments := type.arguments.map freshArrays
        declaration := none
        annotations := []
        form := .array component.freshArrays } := by
  obtain ⟨⟨htext, hsuits⟩, htidy⟩ := h
  obtain ⟨kind, canonicalName, qualifiedName, nullable, arguments, upper, lower, declaration,
    annotations, form⟩ := type
  obtain rfl : form = .array component := hform
  obtain ⟨hkind, hname, -⟩ := hsuits
  obtain ⟨harguments, hupper, hlower⟩ := htidy
  simp only at htext hkind hname harguments hupper hlower
  subst hkind hname harguments hupper hlower
  rw [htext]
  simp [withNullable, array, rendered, bare, render, argumentText, nullableText]

/-- **A substitution with nothing to replace makes the arrays afresh**, and does no more. -/
theorem substitute_eq_freshArrays {bindings : Bindings} (type : Ty)
    (hmade : ∀ s, type.Contains s → s.Fits ∧ s.Tidy)
    (hfree : ∀ name, type.Mentions name → bindings.lookup name = none) :
    type.substitute bindings = type.freshArrays := by
  induction type using substitution_induction with
  | «variable» type parameter hform =>
    have hself : type.Mentions parameter.name :=
      mentions_iff.mpr (Or.inl (parameterName?_of_variable hform))
    rw [substitute_of_variable hform, hfree _ hself, freshArrays_of_variable hform]
  | array type component hform ih =>
    have hcomponent : component ∈ type.constituents :=
      mem_constituents_of_mem_entered (by simp [entered_of_array hform])
    have hinner : component.substitute bindings = component.freshArrays :=
      ih (fun part hpart => hmade part (.head hcomponent hpart)) fun name hname =>
        hfree name (mentions_iff.mpr (Or.inr ⟨component, hcomponent, hname⟩))
    rw [substitute_of_array hform, hinner, freshArrays_of_array hform]
    exact withNullable_array_fresh (hmade type .refl) hform
  | rebuilt type hrebuilt ih =>
    have hparts : type.mapParts (substitute bindings) = type.mapParts freshArrays := by
      refine mapParts_congr hrebuilt fun s hs => ?_
      have hs' : s ∈ type.constituents := mem_constituents_of_mem_entered hs
      exact ih s hs (fun part hpart => hmade part (.head hs' hpart)) fun name hname =>
        hfree name (mentions_iff.mpr (Or.inr ⟨s, hs', hname⟩))
    have htext : type.canonicalName = type.render := (hmade type .refl).1.text
    rw [substitute_of_rebuilt hrebuilt, hparts, freshArrays_of_rebuilt hrebuilt, rendered,
      render_mapParts canonicalName_freshArrays, ← htext]
    rfl

/-! ### Types that stay as they are -/

/-- The type has neither a declaration nor annotations. -/
def IsUnmarked (type : Ty) : Prop := type.declaration = none ∧ type.annotations = []

theorem Fits.component?_isSome {type : Ty} (h : type.Fits) :
    type.component?.isSome = type.isArray := by
  have hsuits := h.suits
  obtain ⟨kind, canonicalName, qualifiedName, nullable, arguments, upper, lower, declaration,
    annotations, form⟩ := type
  cases form with
  | unknown =>
    obtain ⟨null, heq⟩ := hsuits
    rw [heq]
    rfl
  | primitive =>
    obtain ⟨p, hkind, -⟩ := hsuits
    obtain rfl : kind = .primitive p := hkind
    rfl
  | noType =>
    rcases hsuits with ⟨hkind, -⟩ | ⟨hkind, -⟩
    · obtain rfl : kind = .unit := hkind
      rfl
    · obtain rfl : kind = .nothing := hkind
      rfl
  | _ =>
    obtain ⟨hkind, -⟩ := hsuits
    obtain rfl : kind = _ := hkind
    rfl

theorem map_eq_self_iff {types : List Ty} : types.map f = types ↔ ∀ s ∈ types, f s = s := by
  have h := List.map_inj_left (f := f) (g := id) (l := types)
  rwa [List.map_id] at h

theorem mapParts_eq_self_iff {type : Ty} (h : type.IsRebuilt) :
    type.mapParts f = type ↔ ∀ s ∈ type.entered, f s = s := by
  rw [entered_of_rebuilt h, List.forall_mem_append, List.forall_mem_append, ← map_eq_self_iff,
    ← map_eq_self_iff, ← map_eq_self_iff]
  constructor
  · intro heq
    exact ⟨⟨congrArg arguments heq, congrArg upperBounds heq⟩, congrArg lowerBounds heq⟩
  · rintro ⟨⟨harguments, hupper⟩, hlower⟩
    unfold mapParts
    rw [harguments, hupper, hlower]
    cases type
    rfl

theorem freshArrays_array_eq_self_iff {type component : Ty} (h : type.Tidy)
    (hform : type.form = .array component) :
    type.freshArrays = type ↔ type.IsUnmarked ∧ component.freshArrays = component := by
  rw [Tidy, hform] at h
  rw [freshArrays_of_array hform]
  constructor
  · intro heq
    have hcomponent : TyForm.array component.freshArrays = .array component :=
      (congrArg form heq).trans hform
    exact ⟨⟨(congrArg declaration heq).symm, (congrArg annotations heq).symm⟩,
      TyForm.array.inj hcomponent⟩
  · rintro ⟨⟨hdeclaration, hannotations⟩, hcomponent⟩
    rw [h.1, List.map_singleton, hcomponent, ← h.1, ← hdeclaration, ← hannotations, ← hform]
    cases type
    rfl

/-- **Making the arrays afresh changes nothing** exactly if none of them is marked. -/
theorem freshArrays_eq_self_iff (type : Ty) (hmade : ∀ s, type.Contains s → s.Fits ∧ s.Tidy) :
    type.freshArrays = type ↔
      ∀ s, type.Enters s → s.component?.isSome → s.IsUnmarked := by
  induction type using substitution_induction with
  | «variable» type parameter hform =>
    have hnot : ¬ type.component?.isSome := by simp [component?, hform]
    rw [forall_enters_iff, entered_of_variable hform, freshArrays_of_variable hform]
    simp [hnot]
  | array type component hform ih =>
    have hsome : type.component?.isSome := by simp [component?, hform]
    have hcomponent : component ∈ type.constituents :=
      mem_constituents_of_mem_entered (by simp [entered_of_array hform])
    rw [freshArrays_array_eq_self_iff (hmade type .refl).2 hform, forall_enters_iff,
      entered_of_array hform, List.forall_mem_singleton, imp_iff_right hsome,
      ih fun part hpart => hmade part (.head hcomponent hpart)]
  | rebuilt type hrebuilt ih =>
    have hnot : ¬ type.component?.isSome := by simp [component?_of_rebuilt hrebuilt]
    rw [freshArrays_of_rebuilt hrebuilt, mapParts_eq_self_iff hrebuilt, forall_enters_iff,
      and_iff_right fun hc => absurd hc hnot]
    exact forall₂_congr fun s hs => ih s hs fun part hpart =>
      hmade part (.head (mem_constituents_of_mem_entered hs) hpart)

end Ty

/-! ### Types of references -/

namespace SymbolTable

variable {t : SymbolTable} {class? : DeclId → Option ClassElement}
  {parameter? : DeclId → Option TypeParameter} {arguments : List Ty}

theorem declaration_assembleType {depth : Depth} {r : TypeRef}
    (h : (t.assembleType depth class? parameter? arguments r).isUnknown = false) :
    (t.assembleType depth class? parameter? arguments r).declaration ≠ none := by
  cases htarget : t.target? r with
  | none =>
    rw [assembleType_of_no_target htarget] at h
    exact absurd h (by simp)
  | some d =>
    have hassembled : ∃ id, t.decl? id = some d ∧
        t.assembleType depth class? parameter? arguments r = _ :=
      assembleType_of_target? htarget depth
    obtain ⟨id, -, heq⟩ := hassembled
    rw [heq, isUnknown_marked] at h
    rw [heq, marked, if_neg (by simp [h])]
    simp

theorem isUnknown_of_component? {type : Ty} (h : type.component?.isSome) :
    type.isUnknown = false := by
  obtain ⟨component, hc⟩ := Option.isSome_iff_exists.mp h
  rw [Ty.isUnknown, Ty.component?_eq_some_iff.mp hc]

theorem declaration_signatureType {r : TypeRef} (h : (t.signatureType r).component?.isSome) :
    (t.signatureType r).declaration ≠ none := by
  rw [signatureType_eq_assembleType] at h ⊢
  exact declaration_assembleType (isUnknown_of_component? h)

/-- **A reference marks every array** in its type with the declaration of the array class. -/
theorem Converted.declaration_of_array {type : Ty} (h : t.Converted (.type type))
    (harray : type.component?.isSome) : type.declaration ≠ none := by
  cases h with
  | type depth r =>
    cases depth with
    | full => exact declaration_assembleType (isUnknown_of_component? harray)
    | bounded | flat => exact declaration_signatureType harray
  | argument a =>
    obtain ⟨projection, type⟩ := a
    cases type with
    | none => exact absurd harray (by simp [signatureArgument, Ty.wildcard, Ty.component?,
        Ty.rendered, Ty.bare])
    | some r =>
      rw [signatureArgument] at harray ⊢
      cases projection with
      | invariant => exact declaration_signatureType harray
      | _ => exact absurd harray (by simp [projected, Ty.wildcard, Ty.component?, Ty.rendered,
          Ty.bare])
  | enclosing h =>
    obtain ⟨owner, -, h⟩ := Option.bind_eq_some_iff.mp h
    obtain ⟨c, -, h⟩ := Option.bind_eq_some_iff.mp h
    obtain ⟨s, -, h⟩ := Option.bind_eq_some_iff.mp h
    rw [← Option.some.inj h] at harray
    exact absurd harray (by simp [Ty.declared, Ty.component?, Ty.rendered, Ty.bare])
  | unit => exact absurd harray (by decide)
  | unknown => exact absurd harray (by decide)

/-- Nothing changes in the type of a reference exactly if the substitution comes to no array. -/
theorem freshArrays_typeOf_eq_self_iff (t : SymbolTable) (depth : Depth) (r : TypeRef) :
    (t.typeOf depth r).freshArrays = t.typeOf depth r ↔
      ∀ s, (t.typeOf depth r).Enters s → s.isArray = false := by
  have hmade : (t.typeOf depth r).Made := .typeOf t depth r
  rw [Ty.freshArrays_eq_self_iff _ fun s hs => ⟨hmade.wellFormed s hs, hmade.tidy s hs⟩]
  refine forall₂_congr fun s hs => ?_
  rw [← (hmade.wellFormed s hs.contains).component?_isSome, ← Bool.not_eq_true]
  refine imp_congr_right fun harray => iff_of_false (fun hunmarked => ?_) id
  exact ((Converted.type depth r).contains hs.contains).declaration_of_array harray hunmarked.1

end SymbolTable

namespace Ty

/-- **A substitution with nothing to replace** leaves a type that was put together as it is, but for
the declarations and annotations of the arrays that it comes to. So it is the identity exactly if
these arrays have none, which for the type of a reference means that there are no such arrays. -/
theorem Made.substitute_unbound {type : Ty} (h : type.Made) {bindings : Bindings}
    (hfree : ∀ name, type.Mentions name → bindings.lookup name = none) :
    type.substitute bindings = type.freshArrays ∧
      (type.substitute bindings = type ↔
        ∀ s, type.Enters s → s.isArray = true → s.IsUnmarked) ∧
      ∀ (t : SymbolTable) (depth : Depth) (r : TypeRef), type = t.typeOf depth r →
        (type.substitute bindings = type ↔ ∀ s, type.Enters s → s.isArray = false) := by
  have hmade : ∀ s, type.Contains s → s.Fits ∧ s.Tidy := fun s hs =>
    ⟨h.wellFormed s hs, h.tidy s hs⟩
  have hfresh := substitute_eq_freshArrays type hmade hfree
  refine ⟨hfresh, ?_, ?_⟩
  · rw [hfresh, freshArrays_eq_self_iff type hmade]
    refine forall₂_congr fun s hs => ?_
    rw [(hmade s hs.contains).1.component?_isSome]
  · rintro t depth r rfl
    rw [hfresh, SymbolTable.freshArrays_typeOf_eq_self_iff]

/-- A list of arrays of `T` stays as it is if only `U` is bound. In the table `tree` so does
`graph.Tree<T?>`, as the type of a reference. -/
theorem substitute_unbound_tree :
    let parameter : TypeParameter := ⟨.plain "T" .typeParameter, [], .invariant, false⟩
    let arrays := declared (.named "kotlin.collections.List" .interfaceType)
      [array (typeVariable parameter)]
    let given := SymbolTable.tree.typeOf .full
      ⟨.named "graph.Tree", [⟨.invariant, some ⟨.decl 15, [], true, []⟩⟩], false, []⟩
    let bindings : Bindings := [("U", any)]
    arrays.Made ∧ (∀ name, arrays.Mentions name → bindings.lookup name = none) ∧
      arrays.substitute bindings = arrays ∧
      (∀ name, given.Mentions name → bindings.lookup name = none) ∧
      given.substitute bindings = given := by
  intro parameter arrays given bindings
  have hmade : arrays.Made := by
    refine .declared _ (List.forall_mem_singleton.mpr (.array (.typeVariable ?_)))
    simp [parameter]
  have hbound : ∀ name, name ≠ "U" → bindings.lookup name = none := by
    intro name hname
    rw [Keyed.lookup_cons_eq, if_neg hname, List.lookup_nil]
  have hfree : ∀ name, arrays.Mentions name → bindings.lookup name = none := by
    intro name hname
    obtain rfl : "T" = name := by
      simpa [arrays, parameter, mentions_declared, mentions_array, mentions_typeVariable,
        TypeParameter.name, Header.plain] using hname
    exact hbound "T" (by decide)
  have hunmarked : ∀ s, arrays.Enters s → s.isArray = true → s.IsUnmarked := by
    have hvariable : ∀ s, (typeVariable parameter).Enters s → s.isArray = true → s.IsUnmarked :=
      forall_enters_iff.mpr ⟨fun h => absurd h (by decide), fun _ h => absurd h List.not_mem_nil⟩
    have harray : ∀ s, (array (typeVariable parameter)).Enters s → s.isArray = true →
        s.IsUnmarked :=
      forall_enters_iff.mpr ⟨fun _ => ⟨rfl, rfl⟩, List.forall_mem_singleton.mpr hvariable⟩
    exact forall_enters_iff.mpr ⟨fun h => absurd h (by decide), List.forall_mem_singleton.mpr harray⟩
  have hflat : ∀ part ∈ given.constituents, part.constituents.isEmpty = true := by decide +kernel
  have hnames : ∀ s, given.Contains s → s.parameterName? ≠ some "U" :=
    (forall_contains_of_flat hflat).mpr (by decide +kernel)
  have hfree' : ∀ name, given.Mentions name → bindings.lookup name = none := by
    rintro name ⟨s, hs, hname⟩
    exact hbound name fun heq => hnames s hs (heq ▸ hname)
  have harrays : ∀ s, given.Contains s → s.isArray = false :=
    (forall_contains_of_flat hflat).mpr (by decide +kernel)
  exact ⟨hmade, hfree, (hmade.substitute_unbound hfree).2.1.mpr hunmarked, hfree',
    ((Made.typeOf _ _ _).substitute_unbound hfree').2.2 _ _ _ rfl |>.mpr fun s hs =>
      harrays s hs.contains⟩

end Ty

namespace SymbolTable

/-- **An array loses the marks of its reference** in a substitution that replaces nothing. -/
theorem marks_lost_array :
    let given := builtin.typeOf .full
      ⟨.named "kotlin.Array", [⟨.invariant, some (.named "kotlin.Int")⟩], false, [.named "app.Tag"]⟩
    let bindings : Ty.Bindings := [("T", builtin.typeOf .full (.named "kotlin.String"))]
    Reachable builtin ∧ (∀ name, ¬ given.Mentions name) ∧
      given.declaration.isSome = true ∧ (given.substitute bindings).declaration.isSome = false ∧
      given.annotations.length = 1 ∧ (given.substitute bindings).annotations.length = 0 := by
  intro given bindings
  have hflat : ∀ part ∈ given.constituents, part.constituents.isEmpty = true := by decide +kernel
  have hnone : ∀ s, given.Contains s → s.parameterName? = none :=
    (Ty.forall_contains_of_flat hflat).mpr (by decide +kernel)
  refine ⟨⟨[], rfl⟩, ?_, ?_, ?_, ?_, ?_⟩
  · rintro name ⟨s, hs, hname⟩
    exact absurd ((hnone s hs).symm.trans hname) (by simp)
  all_goals decide +kernel

end SymbolTable
end SymbolGraph
