/-
# What erasure leaves

A type parameter and a projection erase to their first bound, which may be one of the
two again, so what is left is the erasure of the type at the end of the chain
(`Ty.standIn`), or the top type if the chain ends without a bound. What is left admits no
null and has no arguments, unless it is an array, and nothing more can be erased from it
(`Ty.erasure_erasure`).

The erased name is a recursion of its own, and is meant to be the name of what is left.
For everything with a qualified name it is. A class that has none, such as one in a
function, goes by its text, with the arguments and the mark for null still in it, and its
erasure has neither. So the erased name of a type is the one of its erasure unless the
chain ends at such a class, with arguments or with null admitted
(`Ty.Made.erasure_coherent`).

Key definitions: `Ty.IsSettled`, `Ty.firstBound`, `Ty.standIn`, `Ty.IsUnnamedClass`,
`SymbolTable.shop`.
Key theorems: `Ty.erasure_induction`, `Ty.erasure_standIn`, `Ty.Made.erasure_coherent`,
`SymbolTable.arguments_left_shop`.
-/
import SymbolGraph.Proofs.Growth
import SymbolGraph.Proofs.MadeTypes
import SymbolGraph.Ty.Operations

namespace SymbolGraph
namespace Ty

/-! ### Following the bounds -/

/-- The type is neither a type parameter nor a projection. -/
def IsSettled (type : Ty) : Prop :=
  match type.form with
  | .variable _ | .wildcard => False
  | .primitive | .array _ | .declared _ _ | .noType | .unknown => True

instance (type : Ty) : Decidable type.IsSettled :=
  match h : type.form with
  | .variable _ | .wildcard => isFalse (by simp [IsSettled, h])
  | .primitive | .array _ | .declared _ _ | .noType | .unknown => isTrue (by simp [IsSettled, h])

/-- The first bound of a type parameter or a projection, the top type if there is none. -/
def firstBound (type : Ty) : Ty := type.upperBounds.head?.getD any

/-- The type at the end of the chain of first bounds. -/
def standIn : Ty → Ty
  | { form := .variable _, upperBounds := bound :: _, .. } => bound.standIn
  | { form := .variable _, upperBounds := [], .. } => any
  | { form := .wildcard, upperBounds := bound :: _, .. } => bound.standIn
  | { form := .wildcard, upperBounds := [], .. } => any
  | type => type

/-- Erasure follows first bounds and components, and ends at all other types. -/
theorem erasure_induction {P : Ty → Prop}
    (plain : ∀ type, type.IsSettled → type.component? = none → P type)
    (array : ∀ type component, type.component? = some component → P component → P type)
    (bound : ∀ type, ¬ type.IsSettled → P type.firstBound → P type) : ∀ type, P type
  | { form := .variable _, upperBounds := first :: _, .. } =>
    bound _ id (erasure_induction plain array bound first)
  | { form := .wildcard, upperBounds := first :: _, .. } =>
    bound _ id (erasure_induction plain array bound first)
  | { form := .variable _, upperBounds := [], .. } => bound _ id (plain any trivial rfl)
  | { form := .wildcard, upperBounds := [], .. } => bound _ id (plain any trivial rfl)
  | { form := .array component, .. } =>
    array _ component rfl (erasure_induction plain array bound component)
  | { form := .primitive, .. } | { form := .declared _ _, .. } | { form := .noType, .. }
  | { form := .unknown, .. } => plain _ trivial rfl

/-! What the recursions do in each case. -/

theorem erasure_of_plain {type : Ty} (hs : type.IsSettled) (hc : type.component? = none) :
    type.erasure = type.withoutArguments := by
  obtain ⟨_, _, _, _, _, _, _, _, _, form⟩ := type
  cases form with
  | «variable» | wildcard => exact hs.elim
  | array component => exact absurd hc (by simp [component?])
  | _ => simp [erasure]

theorem component?_eq_some_iff {type component : Ty} :
    type.component? = some component ↔ type.form = .array component := by
  unfold component?
  cases type.form <;> simp

theorem isSettled_of_component? {type component : Ty} (h : type.component? = some component) :
    type.IsSettled := by
  rw [IsSettled, component?_eq_some_iff.mp h]
  trivial

theorem erasure_of_component? {type component : Ty} (h : type.component? = some component) :
    type.erasure = array component.erasure := by
  obtain ⟨_, _, _, _, _, _, _, _, _, form⟩ := type
  obtain rfl : form = .array component := component?_eq_some_iff.mp h
  simp [erasure]

/-- At a type parameter and at a projection all three go on with the first bound. -/
theorem of_bound {type : Ty} (h : ¬ type.IsSettled) :
    type.erasure = type.firstBound.erasure ∧ type.erasedName = type.firstBound.erasedName ∧
      type.standIn = type.firstBound.standIn := by
  obtain ⟨_, _, _, _, _, upper, _, _, _, form⟩ := type
  cases form with
  | «variable» | wildcard => cases upper <;> exact ⟨rfl, rfl, rfl⟩
  | _ => exact absurd trivial h

theorem standIn_of_settled {type : Ty} (h : type.IsSettled) : type.standIn = type := by
  unfold standIn
  split <;> first | rfl | exact h.elim

/-- What is at the end of the chain holds of a type, if it passes on from the first bound. -/
theorem settled_induction {P : Ty → Prop} (settled : ∀ type, type.IsSettled → P type)
    (bound : ∀ type, ¬ type.IsSettled → P type.firstBound → P type) (type : Ty) : P type :=
  erasure_induction (fun type hs _ => settled type hs)
    (fun type _ hc _ => settled type (isSettled_of_component? hc)) bound type

/-! ### The end of the chain -/

theorem isSettled_standIn (type : Ty) : type.standIn.IsSettled := by
  induction type using settled_induction with
  | settled type h => rwa [standIn_of_settled h]
  | bound type h ih => rwa [(of_bound h).2.2]

theorem erasure_standIn (type : Ty) : type.standIn.erasure = type.erasure := by
  induction type using settled_induction with
  | settled type h => rw [standIn_of_settled h]
  | bound type h ih => rw [(of_bound h).2.2, ih, (of_bound h).1]

theorem erasedName_standIn (type : Ty) : type.standIn.erasedName = type.erasedName := by
  induction type using settled_induction with
  | settled type h => rw [standIn_of_settled h]
  | bound type h ih => rw [(of_bound h).2.2, ih, (of_bound h).2.1]

theorem wellFormed_any : any.WellFormed := (Made.declared _ (by simp)).wellFormed

theorem WellFormed.firstBound {type : Ty} (h : type.WellFormed) : type.firstBound.WellFormed := by
  unfold Ty.firstBound
  cases hu : type.upperBounds with
  | nil => exact wellFormed_any
  | cons bound _ => exact h.upperBound (by simp [hu])

theorem WellFormed.standIn {type : Ty} (h : type.WellFormed) : type.standIn.WellFormed := by
  induction type using settled_induction with
  | settled type hs => rwa [standIn_of_settled hs]
  | bound type hs ih =>
    rw [(of_bound hs).2.2]
    exact ih h.firstBound

/-! ### Nothing more to erase -/

/-- **Erasing twice is erasing once.** -/
theorem erasure_erasure (type : Ty) : type.erasure.erasure = type.erasure := by
  induction type using erasure_induction with
  | plain type hs hc =>
    have hagain : type.withoutArguments.erasure = type.withoutArguments.withoutArguments :=
      erasure_of_plain hs hc
    rw [erasure_of_plain hs hc, hagain]
    rfl
  | array type component hc ih =>
    have hagain : (array component.erasure).erasure = array component.erasure.erasure :=
      erasure_of_component? rfl
    rw [erasure_of_component? hc, hagain, ih]
  | bound type h ih => rw [(of_bound h).1, ih]

/-- What is left is an array, or some type without its arguments and its mark for null. -/
theorem erasure_cases (type : Ty) : (∃ component, type.erasure = array component) ∨
    ∃ plain : Ty, plain.IsSettled ∧ type.erasure = plain.withoutArguments := by
  induction type using erasure_induction with
  | plain type hs hc => exact Or.inr ⟨type, hs, erasure_of_plain hs hc⟩
  | array type component hc _ => exact Or.inl ⟨component.erasure, erasure_of_component? hc⟩
  | bound type h ih => rwa [(of_bound h).1]

theorem nullable_erasure (type : Ty) : type.erasure.nullable = false := by
  rcases type.erasure_cases with ⟨component, h⟩ | ⟨plain, -, h⟩
  · rw [h]
    rfl
  · rw [h]
    rfl

theorem arguments_erasure {type : Ty} (harray : type.erasure.isArray = false) :
    type.erasure.arguments = [] := by
  rcases type.erasure_cases with ⟨component, h⟩ | ⟨plain, -, h⟩
  · rw [h] at harray
    exact absurd harray (by simp [isArray, array, rendered, bare])
  · rw [h]
    rfl

theorem isSettled_erasure (type : Ty) : type.erasure.IsSettled := by
  rcases type.erasure_cases with ⟨component, h⟩ | ⟨plain, hs, h⟩
  · rw [h]
    trivial
  · rwa [h]

theorem isUnknown_erasure {type : Ty} (hs : type.IsSettled) :
    type.erasure.isUnknown = type.isUnknown := by
  cases hc : type.component? with
  | none =>
    rw [erasure_of_plain hs hc]
    rfl
  | some component =>
    have hform : type.form = .array component := component?_eq_some_iff.mp hc
    rw [erasure_of_component? hc, isUnknown_array, isUnknown, hform]

/-! ### The name of what is left -/

/-- The type of a class without a qualified name. -/
def IsUnnamedClass (type : Ty) : Prop :=
  type.classElement?.isSome ∧ type.qualifiedName = none

instance (type : Ty) : Decidable type.IsUnnamedClass := inferInstanceAs (Decidable (_ ∧ _))

theorem IsUnnamedClass.isSettled {type : Ty} (h : type.IsUnnamedClass) : type.IsSettled := by
  have hclass := h.1
  unfold classElement? at hclass
  split at hclass
  · rename_i hform
    rw [IsSettled, hform]
    trivial
  · exact absurd hclass (by simp)

/-- A settled type that was found goes by its qualified name, or else by its text. -/
theorem erasedName_of_settled {type : Ty} (hs : type.IsSettled) :
    type.erasedName =
      if type.isUnknown then unknownTypeName else type.qualifiedName.getD type.canonicalName := by
  obtain ⟨_, _, _, _, _, _, _, _, _, form⟩ := type
  cases form with
  | «variable» | wildcard => exact hs.elim
  | _ => simp [erasedName, isUnknown]

/-- Only a class can be found and have no qualified name. -/
theorem Fits.exists_qualifiedName {type : Ty} (h : type.Fits) (hs : type.IsSettled)
    (hfound : type.isUnknown = false) (hu : ¬ type.IsUnnamedClass) :
    ∃ name, type.qualifiedName = some name := by
  have hsuits := h.suits
  obtain ⟨kind, canonicalName, qualifiedName, nullable, arguments, upper, lower, declaration,
    annotations, form⟩ := type
  cases form with
  | «variable» | wildcard => exact hs.elim
  | array component => exact ⟨_, hsuits.2.1⟩
  | primitive =>
    obtain ⟨p, -, hname⟩ := hsuits
    exact ⟨p.name, hname⟩
  | noType =>
    rcases hsuits with ⟨-, hname⟩ | ⟨-, hname⟩
    · exact ⟨_, hname⟩
    · exact ⟨_, hname⟩
  | declared element enclosing =>
    exact Option.ne_none_iff_exists'.mp fun hnone => hu ⟨rfl, hnone⟩
  | unknown => exact absurd hfound (by simp [isUnknown])

theorem Fits.qualifiedName_erasure {type : Ty} (h : type.Fits) (hs : type.IsSettled) :
    type.erasure.qualifiedName = type.qualifiedName := by
  cases hc : type.component? with
  | none =>
    rw [erasure_of_plain hs hc]
    rfl
  | some component =>
    have hsuits := h.suits
    rw [Suits, component?_eq_some_iff.mp hc] at hsuits
    rw [erasure_of_component? hc, hsuits.2.1]
    rfl

/-- A type that goes by a qualified name, or was not found, keeps its name in erasure. -/
theorem Fits.erasedName_erasure {type : Ty} (h : type.Fits) (hs : type.IsSettled)
    (hu : ¬ type.IsUnnamedClass) : type.erasedName = type.erasure.erasedName := by
  rw [erasedName_of_settled hs, erasedName_of_settled type.isSettled_erasure,
    isUnknown_erasure hs, h.qualifiedName_erasure hs]
  by_cases hfound : type.isUnknown = false
  · obtain ⟨name, hname⟩ := h.exists_qualifiedName hs hfound hu
    rw [hname, Option.getD_some, Option.getD_some]
  · rw [if_pos (eq_true_of_ne_false hfound), if_pos (eq_true_of_ne_false hfound)]

/-- A class without a name goes by its text, which has the arguments and the mark for null behind
the text of the erasure. -/
theorem Fits.erasedName_of_unnamed {type : Ty} (h : type.Fits) (hu : type.IsUnnamedClass) :
    type.erasedName = type.erasure.erasedName ++ (type.argumentText ++ type.nullableText) := by
  have hs := hu.isSettled
  have htext := h.text
  obtain ⟨hclass, hname⟩ := hu
  obtain ⟨kind, canonicalName, qualifiedName, nullable, arguments, upper, lower, declaration,
    annotations, form⟩ := type
  obtain rfl : qualifiedName = none := hname
  cases form with
  | declared element enclosing =>
    rw [erasedName_of_settled hs, ← String.append_assoc]
    simpa [isUnknown, erasure, withoutArguments, rendered, erasedName, render, argumentText,
      nullableText] using htext
  | _ => exact absurd hclass (by simp [classElement?])

theorem argumentText_eq_empty_iff {type : Ty} : type.argumentText = "" ↔ type.arguments = [] := by
  unfold argumentText
  cases type.arguments <;> simp

theorem nullableText_eq_empty_iff {type : Ty} :
    type.nullableText = "" ↔ type.nullable = false := by
  unfold nullableText
  cases type.nullable <;> simp

theorem Fits.erasedName_eq_erasure_iff {type : Ty} (h : type.Fits) (hs : type.IsSettled) :
    type.erasedName = type.erasure.erasedName ↔
      (type.IsUnnamedClass → type.arguments = [] ∧ type.nullable = false) := by
  by_cases hu : type.IsUnnamedClass
  · rw [h.erasedName_of_unnamed hu, imp_iff_right hu, String.append_eq_left_iff,
      String.append_eq_empty_iff, argumentText_eq_empty_iff, nullableText_eq_empty_iff]
  · exact iff_of_true (h.erasedName_erasure hs hu) fun hu' => absurd hu' hu

/-- **Erasure and erased names fit together**, but for a class without a qualified name at the
end of the chain, with arguments or with null admitted. -/
theorem Made.erasure_coherent {type : Ty} (h : type.Made) :
    type.erasure.erasure = type.erasure ∧ type.erasure.nullable = false ∧
      (type.erasure.isArray = false → type.erasure.arguments = []) ∧
      (type.erasedName = type.erasure.erasedName ↔
        (type.standIn.IsUnnamedClass →
          type.standIn.arguments = [] ∧ type.standIn.nullable = false)) := by
  refine ⟨erasure_erasure type, nullable_erasure type, arguments_erasure, ?_⟩
  have hfits : type.standIn.Fits := h.wellFormed.standIn.fits
  rw [← erasedName_standIn, ← erasure_standIn]
  exact hfits.erasedName_eq_erasure_iff (isSettled_standIn type)

/-- In the table `tree` a projection of the type parameter erases to the class `graph.Tree`, which
bounds the type parameter and has a name. -/
theorem erasure_coherent_tree :
    let type := SymbolTable.tree.typeOfArgument .full ⟨.covariant, some (.decl 15)⟩
    type.Made ∧ type.standIn.qualifiedName = some "graph.Tree" ∧
      type.erasure.erasure = type.erasure ∧ type.erasedName = type.erasure.erasedName := by
  intro type
  have hmade : type.Made := .typeOfArgument _ _ _
  have hname : type.standIn.qualifiedName = some "graph.Tree" := by decide +kernel
  obtain ⟨hagain, -, -, hnames⟩ := hmade.erasure_coherent
  exact ⟨hmade, hname, hagain, hnames.mpr fun hu => absurd (hname.symm.trans hu.2) (by simp)⟩

end Ty

/-! ### A class without a name -/

namespace SymbolTable

/-- The changes that make the table `shop`. -/
def shopChanges : List Change :=
  [.addFile "src/Shop.kt" "shop",
   .declare (.file 0) (Draft.function "run" [] (some (.named Builtin.unit))),
   .declare (.inside 14) (Draft.classLike "Local" .classType)]

/-- A function with a class in it. -/
def shop : SymbolTable := builtin.run shopChanges

theorem reachable_shop : Reachable shop := ⟨shopChanges, rfl⟩

/-- **The name of a class in a function keeps what erasure drops**: its arguments, and its mark for
null. -/
theorem arguments_left_shop : Reachable shop ∧ ∀ d,
    let filled := shop.typeOf d ⟨.decl 15, [⟨.invariant, some (.named "kotlin.Int")⟩], false, []⟩
    let nullable := shop.typeOf d ⟨.decl 15, [], true, []⟩
    filled.erasedName = "Local<kotlin.Int>" ∧ filled.erasure.erasedName = "Local" ∧
      nullable.erasedName = "Local?" ∧ nullable.erasure.erasedName = "Local" := by
  refine ⟨reachable_shop, fun d => ?_⟩
  cases d <;> decide +kernel

end SymbolTable
end SymbolGraph
