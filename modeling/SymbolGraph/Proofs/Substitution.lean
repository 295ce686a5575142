/-
# Putting types in place of type parameters

Substitution does one of three things. A type parameter gives way to what its name is bound
to, or stays as it is, bounds and all. An array is made afresh of its component. All else is
rebuilt: the arguments and the bounds are substituted in, and the text is made again from
theirs. So what it goes into is the component of an array, the arguments and bounds of what is
rebuilt, and nothing of a type parameter (`Ty.Enters`).

The mark for null is merged where a type parameter is met: what comes in its place admits null
if it did so before or the type parameter does. Such a mark passes through a further
substitution unchanged (`Ty.substitute_admitting`), and with that two substitutions come to
one, which substitutes the second time in the images of the first
(`Ty.substitute_substitute`). No type has to be put together well for this: the text is made
again wherever anything below it may have changed.

Key definitions: `Ty.entered`, `Ty.Enters`, `Ty.IsRebuilt`, `Ty.admitting`,
`Ty.Bindings.IsComposite`, `Ty.Bindings.andThen`.
Key theorems: `Ty.substitution_induction`, `Ty.substitute_admitting`,
`Ty.substitute_substitute`.
-/
import SymbolGraph.Proofs.Growth
import SymbolGraph.Proofs.MadeTypes
import SymbolGraph.Proofs.PartSizes
import SymbolGraph.Ty.Operations

namespace SymbolGraph
namespace Ty

/-! ### Where substitution goes -/

/-- The types that a substitution goes into. -/
def entered (type : Ty) : List Ty :=
  match type.form with
  | .variable _ => []
  | .array component => [component]
  | .primitive | .declared _ _ | .wildcard | .noType | .unknown =>
    type.arguments ++ type.upperBounds ++ type.lowerBounds

/-- A substitution in the one type comes to the other. -/
def Enters : Ty → Ty → Prop := Relation.ReflTransGen fun type part => part ∈ type.entered

/-- The type is made again from its parts: it is neither a type parameter nor an array. -/
def IsRebuilt (type : Ty) : Prop :=
  match type.form with
  | .variable _ | .array _ => False
  | .primitive | .declared _ _ | .wildcard | .noType | .unknown => True

theorem entered_of_variable {type : Ty} {parameter : TypeParameter}
    (h : type.form = .variable parameter) : type.entered = [] := by
  rw [entered, h]

theorem entered_of_array {type component : Ty} (h : type.form = .array component) :
    type.entered = [component] := by
  rw [entered, h]

theorem entered_of_rebuilt {type : Ty} (h : type.IsRebuilt) :
    type.entered = type.arguments ++ type.upperBounds ++ type.lowerBounds := by
  unfold IsRebuilt at h
  unfold entered
  split <;> simp_all

theorem component?_of_rebuilt {type : Ty} (h : type.IsRebuilt) : type.component? = none := by
  unfold IsRebuilt at h
  unfold component?
  split <;> simp_all

theorem mem_constituents_of_mem_entered {type part : Ty} (h : part ∈ type.entered) :
    part ∈ type.constituents := by
  unfold entered at h
  unfold constituents component?
  split at h <;> simp_all

theorem Enters.contains {type s : Ty} (h : type.Enters s) : type.Contains s :=
  Relation.ReflTransGen.mono (fun _ _ => mem_constituents_of_mem_entered) type s h

/-- What holds wherever a substitution comes to holds of the type, and wherever one in its parts
comes to. -/
theorem forall_enters_iff {P : Ty → Prop} {type : Ty} :
    (∀ s, type.Enters s → P s) ↔
      P type ∧ ∀ part ∈ type.entered, ∀ s, part.Enters s → P s := by
  constructor
  · intro h
    exact ⟨h type .refl, fun part hpart s hs => h s (.head hpart hs)⟩
  · rintro ⟨hself, hinner⟩ s hs
    rcases hs.cases_head with rfl | ⟨part, hpart, hs⟩
    · exact hself
    · exact hinner part hpart s hs

/-- What holds of a type if it holds of the types that a substitution goes into holds of all
types. -/
theorem entered_induction {P : Ty → Prop}
    (step : ∀ type : Ty, (∀ s ∈ type.entered, P s) → P type) (type : Ty) : P type :=
  step type fun s _ => entered_induction step s
termination_by sizeOf type
decreasing_by
  have hpart := SymbolTable.mem_parts_of_mem_constituents (mem_constituents_of_mem_entered ‹_›)
  have hlt := Ty.sizeOf_parts _ hpart
  rw [Node.type.sizeOf_spec] at hlt
  omega

theorem substitution_induction {P : Ty → Prop}
    («variable» : ∀ type parameter, type.form = .variable parameter → P type)
    (array : ∀ type component, type.form = .array component → P component → P type)
    (rebuilt : ∀ type, type.IsRebuilt → (∀ s ∈ type.entered, P s) → P type) (type : Ty) :
    P type := by
  induction type using entered_induction with
  | step type ih =>
    cases h : type.form with
    | «variable» parameter => exact «variable» type parameter h
    | array component => exact array type component h (ih component (by simp [entered, h]))
    | _ => exact rebuilt type (by rw [IsRebuilt, h]; trivial) ih

/-! ### What substitution does -/

/-- The type with its arguments and bounds changed. -/
def mapParts (f : Ty → Ty) (type : Ty) : Ty :=
  { type with
    arguments := type.arguments.map f
    upperBounds := type.upperBounds.map f
    lowerBounds := type.lowerBounds.map f }

theorem mapParts_congr {f g : Ty → Ty} {type : Ty} (h : type.IsRebuilt)
    (hparts : ∀ s ∈ type.entered, f s = g s) : type.mapParts f = type.mapParts g := by
  simp only [entered_of_rebuilt h, List.forall_mem_append] at hparts
  obtain ⟨⟨harguments, hupper⟩, hlower⟩ := hparts
  rw [mapParts, mapParts, List.map_congr_left harguments, List.map_congr_left hupper,
    List.map_congr_left hlower]

theorem constituents_rebuilt {type : Ty} (h : type.IsRebuilt) (f : Ty → Ty) :
    (type.mapParts f).rendered.constituents = type.entered.map f := by
  have hcomponent : (type.mapParts f).rendered.component? = none := component?_of_rebuilt h
  rw [constituents, hcomponent, entered_of_rebuilt h]
  simp [mapParts, rendered]

/-- The type with null admitted if it was before, or if it is to be. -/
def admitting (type : Ty) (null : Bool) : Ty := type.withNullable (type.nullable || null)

theorem substituteAll_eq_map (bindings : Bindings) : ∀ types : List Ty,
    substituteAll bindings types = types.map (substitute bindings)
  | [] => by rw [substituteAll, List.map_nil]
  | type :: types => by
    rw [substituteAll, substituteAll_eq_map bindings types, List.map_cons]

theorem substitute_of_variable {type : Ty} {parameter : TypeParameter}
    (h : type.form = .variable parameter) (bindings : Bindings) :
    type.substitute bindings =
      match bindings.lookup parameter.name with
      | some bound => bound.admitting type.nullable
      | none => type := by
  obtain ⟨kind, canonicalName, qualifiedName, nullable, arguments, upper, lower, declaration,
    annotations, form⟩ := type
  obtain rfl : form = .variable parameter := h
  rw [substitute]
  rfl

theorem substitute_of_array {type component : Ty} (h : type.form = .array component)
    (bindings : Bindings) :
    type.substitute bindings =
      (array (component.substitute bindings)).withNullable type.nullable := by
  obtain ⟨kind, canonicalName, qualifiedName, nullable, arguments, upper, lower, declaration,
    annotations, form⟩ := type
  obtain rfl : form = .array component := h
  rw [substitute]

theorem substitute_of_rebuilt {type : Ty} (h : type.IsRebuilt) (bindings : Bindings) :
    type.substitute bindings = (type.mapParts (substitute bindings)).rendered := by
  obtain ⟨kind, canonicalName, qualifiedName, nullable, arguments, upper, lower, declaration,
    annotations, form⟩ := type
  cases form with
  | «variable» | array => exact h.elim
  | _ => simp only [substitute, substituteAll_eq_map, mapParts]

/-! ### The mark for null -/

theorem admitting_admitting (type : Ty) (null null' : Bool) :
    (type.admitting null).admitting null' = type.admitting (null || null') := by
  change type.withNullable ((type.nullable || null) || null') = _
  rw [Bool.or_assoc]
  rfl

/-- **A mark for null passes through a substitution.** -/
theorem substitute_admitting (type : Ty) (null : Bool) (bindings : Bindings) :
    (type.admitting null).substitute bindings = (type.substitute bindings).admitting null := by
  cases h : type.form with
  | «variable» parameter =>
    have hmarked : (type.admitting null).form = .variable parameter := h
    rw [substitute_of_variable h, substitute_of_variable hmarked]
    cases bindings.lookup parameter.name with
    | none => rfl
    | some bound => exact (admitting_admitting bound type.nullable null).symm
  | array component =>
    have hmarked : (type.admitting null).form = .array component := h
    rw [substitute_of_array h, substitute_of_array hmarked]
    rfl
  | _ =>
    have hrebuilt : type.IsRebuilt := by rw [IsRebuilt, h]; trivial
    have hmarked : (type.admitting null).IsRebuilt := hrebuilt
    rw [substitute_of_rebuilt hrebuilt, substitute_of_rebuilt hmarked]
    rfl

/-! ### Two substitutions -/

namespace Bindings

/-- The bindings `s` bind what `s₁` binds, with `s₂` substituted in it, and for the rest what `s₂`
binds. -/
def IsComposite (s₁ s₂ s : Bindings) : Prop :=
  ∀ name, s.lookup name =
    match s₁.lookup name with
    | some bound => some (bound.substitute s₂)
    | none => s₂.lookup name

/-- The bindings `s₁` with `s₂` substituted in what they bind, and `s₂` for the rest. -/
def andThen (s₁ s₂ : Bindings) : Bindings :=
  s₁.map (fun binding => (binding.1, binding.2.substitute s₂)) ++ s₂

theorem isComposite_andThen (s₁ s₂ : Bindings) : IsComposite s₁ s₂ (s₁.andThen s₂) := by
  intro name
  induction s₁ with
  | nil => rfl
  | cons binding rest ih =>
    obtain ⟨key, bound⟩ := binding
    rw [andThen, List.map_cons, List.cons_append, Keyed.lookup_cons_eq, Keyed.lookup_cons_eq]
    by_cases hkey : name = key
    · rw [if_pos hkey, if_pos hkey]
    · rw [if_neg hkey, if_neg hkey]
      exact ih

end Bindings

/-- **Two substitutions are one**: to substitute `s₁` and then `s₂` is to substitute what `s₁` binds
with `s₂` substituted in it, and for the rest what `s₂` binds. This is so of every type and of all
bindings, in every field. -/
theorem substitute_substitute {s₁ s₂ s : Bindings} (h : s₁.IsComposite s₂ s) (type : Ty) :
    (type.substitute s₁).substitute s₂ = type.substitute s := by
  induction type using substitution_induction with
  | «variable» type parameter hform =>
    have hboth := h parameter.name
    rw [substitute_of_variable hform, substitute_of_variable hform, hboth]
    cases s₁.lookup parameter.name with
    | none => exact substitute_of_variable hform s₂
    | some bound => exact substitute_admitting bound type.nullable s₂
  | array type component hform ih =>
    have hagain : ((array (component.substitute s₁)).withNullable type.nullable).form =
        .array (component.substitute s₁) := rfl
    rw [substitute_of_array hform, substitute_of_array hform, substitute_of_array hagain, ih]
    rfl
  | rebuilt type hrebuilt ih =>
    have hagain : (type.mapParts (substitute s₁)).rendered.IsRebuilt := hrebuilt
    have hparts : type.mapParts (substitute s₂ ∘ substitute s₁) = type.mapParts (substitute s) :=
      mapParts_congr hrebuilt ih
    rw [substitute_of_rebuilt hrebuilt, substitute_of_rebuilt hrebuilt,
      substitute_of_rebuilt hagain, ← hparts]
    simp only [mapParts, rendered, List.map_map]
    rfl

/-- In `graph.Tree<out T?>` arrays of `U` take the place of `T`, and then a text that of `U`: the
array admits null as `T` did, its items admit null as the text does, and what the second
substitution binds `T` to is of no matter. -/
theorem substitute_substitute_tree :
    let type := SymbolTable.tree.typeOf .full
      ⟨.named "graph.Tree", [⟨.covariant, some ⟨.decl 15, [], true, []⟩⟩], false, []⟩
    let s₁ : Bindings :=
      [("T", array (typeVariable ⟨.plain "U" .typeParameter, [], .invariant, false⟩))]
    let s₂ : Bindings := [("T", any),
      ("U", SymbolTable.tree.typeOf .full ⟨.named "kotlin.String", [], true, []⟩)]
    s₁.IsComposite s₂ (s₁.andThen s₂) ∧ type.canonicalName = "graph.Tree<out T?>" ∧
      (type.substitute s₁).canonicalName = "graph.Tree<out kotlin.Array<U>?>" ∧
      (type.substitute s₁).substitute s₂ = type.substitute (s₁.andThen s₂) ∧
      (type.substitute (s₁.andThen s₂)).canonicalName =
        "graph.Tree<out kotlin.Array<kotlin.String?>?>" := by
  intro type s₁ s₂
  have hcomposite : s₁.IsComposite s₂ (s₁.andThen s₂) := s₁.isComposite_andThen s₂
  exact ⟨hcomposite, by decide +kernel, by decide +kernel, substitute_substitute hcomposite type,
    by decide +kernel⟩

end Ty
end SymbolGraph
