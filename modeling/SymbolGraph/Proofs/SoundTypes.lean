/-
# What a type says twice

A type says some things twice. Its text is made of its name, its mark for null and the texts of its
parts; the component of an array is its argument too; the bounds of a type parameter stand in the
type as well as in the parameter. Nothing of this is made again when it is asked for, so the two
have to agree at every place of a type (`Ty.Sound`).

A type is changed in three ways: its mark for null is set, it loses its arguments, or its arguments
and bounds give way to others. What agrees goes on agreeing in each of them, if the text is made
again and the arguments of an array are left to its component. Erasure and substitution are
recursions that do nothing else, so of sound types they make sound types. What is converted is put
together by the same functions. What a reference adds to it, annotations and the type it is nested
in among them, is no part of its text.

Key definitions: `Ty.Consistent`, `Ty.Sound`, `Ty.KeptByOperations`.
Key theorems: `Ty.Sound.erasure`, `Ty.Sound.substitute`, `Ty.keptByOperations_sound`,
`SymbolTable.Converted.wellFormed_of_holds`, `Ty.sound_throughout`.
-/
import SymbolGraph.Proofs.Boxing
import SymbolGraph.Proofs.Substitution

namespace SymbolGraph
namespace Ty

/-! ### Agreement at one place -/

/-- What the type says of its parts and its name is what it consists of says. -/
def Agrees (type : Ty) : Prop :=
  match type.form with
  | .array component => type.arguments = [component]
  | .variable parameter => type.upperBounds = parameter.bounds
  | .wildcard => type.upperBounds.length ≤ 1 ∧ type.lowerBounds.length ≤ 1
  | .unknown => type.kind = .other ∧ type.qualifiedName = none
  | .primitive | .declared _ _ | .noType => True

/-- The text is the one that the type renders to, and the rest agrees. -/
structure Consistent (type : Ty) : Prop where
  text : type.canonicalName = type.render
  agrees : type.Agrees

/-- The type is consistent, and so are its arguments, components and bounds, at any depth. -/
def Sound (type : Ty) : Prop := ∀ s, type.Contains s → s.Consistent

theorem sound_iff {type : Ty} :
    type.Sound ↔ type.Consistent ∧ ∀ part ∈ type.constituents, part.Sound :=
  forall_contains_iff

theorem Sound.agrees {type : Ty} (h : type.Sound) : type.Agrees := (h type .refl).agrees

theorem Sound.part {type part : Ty} (h : type.Sound) (hpart : part ∈ type.constituents) :
    part.Sound :=
  (sound_iff.mp h).2 part hpart

/-- What suits a type that was not found is more than what agrees: there is one such type only, up
to the mark for null. -/
theorem Suits.agrees {type : Ty} (h : type.Suits) : type.Agrees := by
  obtain ⟨kind, canonicalName, qualifiedName, nullable, arguments, upper, lower, declaration,
    annotations, form⟩ := type
  cases form with
  | primitive | declared | noType => trivial
  | array | «variable» | wildcard => exact h.2.2
  | unknown =>
    obtain ⟨null, heq⟩ := h
    rw [heq]
    exact ⟨rfl, rfl⟩

theorem Fits.consistent {type : Ty} (h : type.Fits) : type.Consistent := ⟨h.text, h.suits.agrees⟩

theorem WellFormed.sound {type : Ty} (h : type.WellFormed) : type.Sound :=
  fun s hs => (h s hs).consistent

/-! ### What changes a type -/

/-- The old text is not read when the text is made, so only the rest has to agree. -/
theorem Agrees.rendered {type : Ty} (h : type.Agrees) : type.rendered.Consistent := ⟨rfl, h⟩

/-- Only an array says twice what its arguments are. -/
theorem Agrees.withoutArguments {type : Ty} (h : type.Agrees) (hc : type.component? = none) :
    type.withoutArguments.Consistent := by
  obtain ⟨kind, canonicalName, qualifiedName, nullable, arguments, upper, lower, declaration,
    annotations, form⟩ := type
  cases form with
  | array component => exact absurd hc (by simp [component?])
  | _ => exact ⟨rfl, h⟩

/-- What is rebuilt has as many bounds as before. -/
theorem Agrees.mapParts {type : Ty} (h : type.Agrees) (hrebuilt : type.IsRebuilt) (f : Ty → Ty) :
    (type.mapParts f).Agrees := by
  obtain ⟨kind, canonicalName, qualifiedName, nullable, arguments, upper, lower, declaration,
    annotations, form⟩ := type
  cases form with
  | «variable» | array => exact hrebuilt.elim
  | wildcard =>
    obtain ⟨hupper, hlower⟩ := h
    have hupper' : (upper.map f).length ≤ 1 := by rwa [List.length_map]
    have hlower' : (lower.map f).length ≤ 1 := by rwa [List.length_map]
    exact ⟨hupper', hlower'⟩
  | primitive | declared | noType | unknown => exact h

theorem constituents_withoutArguments {type : Ty} (hc : type.component? = none) :
    type.withoutArguments.constituents = type.upperBounds ++ type.lowerBounds := by
  have hcomponent : type.withoutArguments.component? = none := hc
  rw [constituents, hcomponent]
  simp [withoutArguments, rendered]

namespace Sound

theorem withNullable {type : Ty} (h : type.Sound) (nullable : Bool) :
    (type.withNullable nullable).Sound := by
  have hmarked : { type with nullable }.Agrees := h.agrees
  exact sound_iff.mpr ⟨hmarked.rendered, (sound_iff.mp h).2⟩

theorem array {component : Ty} (h : component.Sound) : (array component).Sound := by
  have hfits : (Ty.array component).Fits := keptInMaking_fits.array component
  exact sound_iff.mpr ⟨hfits.consistent, by simpa using h⟩

/-! ### Erasure -/

theorem withoutArguments {type : Ty} (h : type.Sound) (hc : type.component? = none) :
    type.withoutArguments.Sound := by
  refine sound_iff.mpr ⟨h.agrees.withoutArguments hc, fun part hpart => h.part ?_⟩
  rw [constituents_withoutArguments hc] at hpart
  rw [constituents, List.append_assoc type.arguments]
  exact List.mem_append_left _ (List.mem_append_right _ hpart)

theorem firstBound {type : Ty} (h : type.Sound) : type.firstBound.Sound := by
  unfold Ty.firstBound
  cases hu : type.upperBounds with
  | nil => exact wellFormed_any.sound
  | cons bound _ => exact h.part (by simp [constituents, hu])

/-- **Erasing keeps a type sound.** -/
theorem erasure {type : Ty} (h : type.Sound) : type.erasure.Sound := by
  induction type using erasure_induction with
  | plain type hs hc =>
    rw [erasure_of_plain hs hc]
    exact h.withoutArguments hc
  | array type component hc ih =>
    have hcomponent : component.Sound := h.part (by simp [constituents, hc])
    rw [erasure_of_component? hc]
    exact (ih hcomponent).array
  | bound type hs ih =>
    rw [(of_bound hs).1]
    exact ih h.firstBound

/-! ### Substitution -/

/-- **Substituting keeps a type sound**, if all is sound that the bindings bind. -/
theorem substitute {bindings : Bindings}
    (hbindings : ∀ name bound, bindings.lookup name = some bound → bound.Sound) {type : Ty}
    (h : type.Sound) : (type.substitute bindings).Sound := by
  induction type using substitution_induction with
  | «variable» type parameter hform =>
    rw [substitute_of_variable hform]
    cases hlookup : bindings.lookup parameter.name with
    | none => exact h
    | some bound => exact (hbindings parameter.name bound hlookup).withNullable _
  | array type component hform ih =>
    have hentered : component ∈ type.entered := by simp [entered_of_array hform]
    have hcomponent : component.Sound := h.part (mem_constituents_of_mem_entered hentered)
    rw [substitute_of_array hform]
    exact (ih hcomponent).array.withNullable type.nullable
  | rebuilt type hrebuilt ih =>
    rw [substitute_of_rebuilt hrebuilt]
    refine sound_iff.mpr ⟨(h.agrees.mapParts hrebuilt _).rendered, ?_⟩
    rw [constituents_rebuilt hrebuilt, List.forall_mem_map]
    exact fun part hpart => ih part hpart (h.part (mem_constituents_of_mem_entered hpart))

end Sound

/-! ### All that puts types together -/

/-- What holds of all that is made by the functions on types, if it holds of the types that they
are given. -/
structure KeptByOperations (Q : Ty → Prop) : Prop where
  unknown : Q .unknown
  noType : ∀ kind, Q (.noType kind)
  primitive : ∀ kind, Q (.primitive kind)
  any : Q .any
  declared : ∀ element arguments, (∀ s ∈ arguments, Q s) → Q (.declared element arguments)
  array : ∀ component, Q component → Q (.array component)
  typeVariable : ∀ parameter, (∀ s ∈ parameter.bounds, Q s) → Q (.typeVariable parameter)
  wildcard : ∀ upper lower, (∀ s ∈ upper, Q s) → (∀ s ∈ lower, Q s) → Q (.wildcard upper lower)
  withNullable : ∀ type nullable, Q type → Q (type.withNullable nullable)
  erasure : ∀ type, Q type → Q type.erasure
  boxed : ∀ type b, Q type → type.boxed? = some b → Q b
  unboxed : ∀ type u, Q type → type.unboxed? = some u → Q u
  substitute : ∀ (bindings : Bindings) type,
    (∀ name bound, bindings.lookup name = some bound → Q bound) → Q type →
      Q (type.substitute bindings)

theorem keptByOperations_sound : KeptByOperations Sound where
  unknown := Made.unknown.wellFormed.sound
  noType kind := (Made.noType kind).wellFormed.sound
  primitive kind := (Made.primitive kind).wellFormed.sound
  any := wellFormed_any.sound
  declared element arguments h := by
    have hfits : (Ty.declared element arguments).Fits :=
      keptInMaking_fits.declared element arguments none
    exact sound_iff.mpr ⟨hfits.consistent, by simpa using h⟩
  array component h := h.array
  typeVariable parameter h := by
    have hfits : (Ty.typeVariable parameter).Fits := keptInMaking_fits.typeVariable parameter
    exact sound_iff.mpr ⟨hfits.consistent, by simpa using h⟩
  wildcard upper lower hupper hlower := by
    have hfits : (Ty.wildcard upper lower).Fits := keptInMaking_fits.wildcard upper lower
    refine sound_iff.mpr ⟨hfits.consistent, ?_⟩
    rw [constituents_wildcard, List.forall_mem_append]
    exact ⟨fun s hs => hupper s (Option.mem_toList.mp hs),
      fun s hs => hlower s (Option.mem_toList.mp hs)⟩
  withNullable type nullable h := h.withNullable nullable
  erasure type h := h.erasure
  boxed type b _ hb := by
    obtain ⟨p, -, rfl⟩ := boxed?_eq_some_iff.mp hb
    have hwrapper : (Ty.declared (.named p.wrapper .classType) []).Made := .declared _ (by simp)
    exact (hwrapper.withNullable type.nullable).wellFormed.sound
  unboxed type u _ hu := by
    obtain ⟨name, p, -, -, rfl⟩ := unboxed?_eq_some_iff.mp hu
    have hprimitive : (ofPrimitive p).Made := .primitive (.primitive p)
    exact hprimitive.wellFormed.sound
  substitute bindings type hbindings h := h.substitute hbindings

end Ty

/-! ### What is converted -/

namespace SymbolTable

open Ty (keptInMaking_fits)

variable {t : SymbolTable}

/-- **Every type anywhere in what is converted is well-formed**, in annotations and constants
too. -/
theorem Converted.wellFormed_of_holds {n : Node} (h : t.Converted n) {type : Ty}
    (htype : n.Holds (.type type)) : type.WellFormed := by
  intro s hs
  have hholds : n.Holds (.type s) := Node.holds_trans htype (holds_of_contains hs)
  rcases h.holds hholds with hconverted | hremark
  · exact keptInMaking_fits.converted hconverted
  · exact keptInMaking_fits.inRemark hremark

end SymbolTable

namespace Ty

/-- **Types are sound throughout**: the functions on types make sound types of sound ones, and every
type anywhere in the type of a reference and in the element of a declaration is sound, at every
depth. -/
theorem sound_throughout (t : SymbolTable) (depth : Depth) :
    KeptByOperations Sound ∧
      (∀ r s, (Node.type (t.typeOf depth r)).Holds (.type s) → s.Sound) ∧
      ∀ id e, t.element? depth id = some e →
        ∀ s, (Node.element e).Holds (.type s) → s.Sound := by
  refine ⟨keptByOperations_sound, fun r s hs => ?_, fun id e he s hs => ?_⟩
  · have htype : t.Converted (.type (t.typeOf depth r)) := .type depth r
    exact (htype.wellFormed_of_holds hs).sound
  · have helement : t.Converted (.element e) := .element he
    exact (helement.wellFormed_of_holds hs).sound

/-- In the table `tree` the type `graph.Tree<out T?>` is sound. It stays so if an array takes the
place of `T`, and its text is the one that goes with the array; and if it is erased. -/
theorem sound_throughout_tree :
    let type := SymbolTable.tree.typeOf .full
      ⟨.named "graph.Tree", [⟨.covariant, some ⟨.decl 15, [], true, []⟩⟩], false, []⟩
    let texts := array (SymbolTable.tree.typeOf .full ⟨.named "kotlin.String", [], true, []⟩)
    type.Sound ∧ (type.substitute [("T", texts)]).Sound ∧
      (type.substitute [("T", texts)]).canonicalName =
        "graph.Tree<out kotlin.Array<kotlin.String?>?>" ∧
      type.erasure.Sound ∧ type.erasure.canonicalName = "graph.Tree" := by
  intro type texts
  obtain ⟨hkept, htypes, -⟩ := sound_throughout SymbolTable.tree .full
  have htype : type.Sound := htypes _ type .refl
  have htexts : texts.Sound := hkept.array _ (htypes _ _ .refl)
  have hbindings : ∀ name bound, [("T", texts)].lookup name = some bound → bound.Sound := by
    intro name bound hlookup
    rw [Keyed.lookup_cons_eq] at hlookup
    split at hlookup
    · exact Option.some.inj hlookup ▸ htexts
    · exact absurd hlookup (by simp)
  exact ⟨htype, hkept.substitute _ type hbindings htype, by decide +kernel,
    hkept.erasure type htype, by decide +kernel⟩

end Ty
end SymbolGraph
