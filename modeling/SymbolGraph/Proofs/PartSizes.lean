/-
# Induction on a tree

What a part of a converted tree holds directly is smaller than the part itself, kind by
kind. So what passes from all that a part holds directly to the part holds of every part
(`Node.induction`), and a statement about elements, types, annotations and values is one
induction with four cases, though they are built from each other.

Key theorems: `Node.sizeOf_lt_of_mem_parts`, `Node.induction`.
-/
import SymbolGraph.Proofs.Parts

namespace SymbolGraph

open Node (ofElements ofTypes ofMarks ofValues)

namespace Node

theorem forall_mem_ofElements {P : Node → Prop} {es : List Element} :
    (∀ m ∈ ofElements es, P m) ↔ ∀ e ∈ es, P (.element e) :=
  List.forall_mem_map

theorem forall_mem_ofTypes {P : Node → Prop} {ts : List Ty} :
    (∀ m ∈ ofTypes ts, P m) ↔ ∀ t ∈ ts, P (.type t) :=
  List.forall_mem_map

theorem forall_mem_ofMarks {P : Node → Prop} {as : List Annotation} :
    (∀ m ∈ ofMarks as, P m) ↔ ∀ a ∈ as, P (.mark a) :=
  List.forall_mem_map

theorem forall_mem_ofValues {P : Node → Prop} {vs : List Value} :
    (∀ m ∈ ofValues vs, P m) ↔ ∀ v ∈ vs, P (.value v) :=
  List.forall_mem_map

end Node

section

open Node (forall_mem_ofElements forall_mem_ofTypes forall_mem_ofMarks forall_mem_ofValues)

theorem sizeOf_lt_of_eq_some {α : Type} [SizeOf α] {o : Option α} {a : α} (h : o = some a) :
    sizeOf a < sizeOf o := by
  rw [h, Option.some.sizeOf_spec]
  omega

theorem Header.sizeOf_parts {h : Header} : ∀ m ∈ h.parts, sizeOf m ≤ sizeOf h := by
  obtain ⟨name, qualified, kind, package, enclosing, enclosed, annotations, modifiers, doc, file,
    valid⟩ := h
  simp only [Header.parts, List.forall_mem_append, forall_mem_ofElements, forall_mem_ofMarks,
    Header.mk.sizeOf_spec, Node.element.sizeOf_spec, Node.mark.sizeOf_spec, Option.mem_toList]
  refine ⟨⟨fun e he => ?_, fun e he => ?_⟩, fun a ha => ?_⟩
  · have := sizeOf_lt_of_eq_some he
    omega
  · have := List.sizeOf_lt_of_mem he
    omega
  · have := List.sizeOf_lt_of_mem ha
    omega

theorem Element.sizeOf_parts {e : Element} : ∀ m ∈ e.parts, sizeOf m ≤ sizeOf e := by
  cases e with
  | classLike c =>
    obtain ⟨header, kind, superclass, interfaces, parameters, companion, supertypes, inner, isLocal,
      anonymous, isCompanion⟩ := c
    simp only [Element.parts, List.forall_mem_append, forall_mem_ofElements, forall_mem_ofTypes,
      List.forall_mem_map, Option.mem_toList, Node.element.sizeOf_spec, Node.type.sizeOf_spec,
      Element.classLike.sizeOf_spec, ClassElement.mk.sizeOf_spec, Element.typeParameter.sizeOf_spec]
    refine ⟨⟨fun m hm => ?_, fun t ht => ?_, fun t ht => ?_⟩, fun p hp => ?_, fun k hk => ?_⟩
    · have := Header.sizeOf_parts m hm
      omega
    · have := sizeOf_lt_of_eq_some ht
      omega
    · have := List.sizeOf_lt_of_mem ht
      omega
    · have := List.sizeOf_lt_of_mem hp
      omega
    · have := sizeOf_lt_of_eq_some hk
      omega
  | callable c =>
    obtain ⟨header, returnType, parameters, typeParameters, thrown, receiver, varargs, isAbstract,
      isDefault, isSuspend, isInline, isOperator, isInfix⟩ := c
    simp only [Element.parts, List.forall_mem_append, forall_mem_ofElements, forall_mem_ofTypes,
      List.forall_mem_map, List.forall_mem_cons, Option.mem_toList, Node.element.sizeOf_spec,
      Node.type.sizeOf_spec, Element.callable.sizeOf_spec, Callable.mk.sizeOf_spec,
      Element.variable.sizeOf_spec, Element.typeParameter.sizeOf_spec]
    refine ⟨⟨fun m hm => ?_, ?_, fun t ht => ?_, fun t ht => ?_⟩, fun v hv => ?_, fun p hp => ?_⟩
    · have := Header.sizeOf_parts m hm
      omega
    · omega
    · have := List.sizeOf_lt_of_mem ht
      omega
    · have := sizeOf_lt_of_eq_some ht
      omega
    · have := List.sizeOf_lt_of_mem hv
      omega
    · have := List.sizeOf_lt_of_mem hp
      omega
  | «variable» v =>
    obtain ⟨header, type, kind, constant, isMutable, isConst, isLateinit, hasDefault⟩ := v
    simp only [Element.parts, List.forall_mem_append, forall_mem_ofTypes, forall_mem_ofValues,
      List.forall_mem_singleton, Option.mem_toList, Node.type.sizeOf_spec, Node.value.sizeOf_spec,
      Element.variable.sizeOf_spec, Variable.mk.sizeOf_spec]
    refine ⟨⟨fun m hm => ?_, ?_⟩, fun v hv => ?_⟩
    · have := Header.sizeOf_parts m hm
      omega
    · omega
    · have := sizeOf_lt_of_eq_some hv
      omega
  | property p =>
    obtain ⟨header, type, constant, isMutable, isConst, isLateinit, getter, setter, field,
      customGetter, customSetter, delegate, receiver⟩ := p
    simp only [Element.parts, List.forall_mem_append, forall_mem_ofElements, forall_mem_ofTypes,
      forall_mem_ofValues, List.forall_mem_map, List.forall_mem_cons, Option.mem_toList,
      Node.element.sizeOf_spec, Node.type.sizeOf_spec, Node.value.sizeOf_spec,
      Element.property.sizeOf_spec, Property.mk.sizeOf_spec, Element.callable.sizeOf_spec,
      Element.variable.sizeOf_spec]
    refine ⟨⟨⟨fun m hm => ?_, ?_, fun t ht => ?_⟩, fun v hv => ?_⟩,
      ⟨fun c hc => ?_, fun c hc => ?_⟩, fun v hv => ?_⟩
    · have := Header.sizeOf_parts m hm
      omega
    · omega
    · have := sizeOf_lt_of_eq_some ht
      omega
    · have := sizeOf_lt_of_eq_some hv
      omega
    · have := sizeOf_lt_of_eq_some hc
      omega
    · have := sizeOf_lt_of_eq_some hc
      omega
    · have := sizeOf_lt_of_eq_some hv
      omega
  | typeParameter p =>
    obtain ⟨header, bounds, variance, reified⟩ := p
    simp only [Element.parts, List.forall_mem_append, forall_mem_ofTypes, Node.type.sizeOf_spec,
      Element.typeParameter.sizeOf_spec, TypeParameter.mk.sizeOf_spec]
    refine ⟨fun m hm => ?_, fun t ht => ?_⟩
    · have := Header.sizeOf_parts m hm
      omega
    · have := List.sizeOf_lt_of_mem ht
      omega
  | stub s => simp [Element.parts]

theorem TyForm.sizeOf_parts {form : TyForm} : ∀ m ∈ form.parts, sizeOf m ≤ sizeOf form + 1 := by
  cases form with
  | array component =>
    simp only [TyForm.parts, List.forall_mem_singleton, Node.type.sizeOf_spec,
      TyForm.array.sizeOf_spec]
    omega
  | declared element enclosing =>
    simp only [TyForm.parts, List.forall_mem_cons, forall_mem_ofTypes, Option.mem_toList,
      Node.element.sizeOf_spec, Node.type.sizeOf_spec, Element.classLike.sizeOf_spec,
      TyForm.declared.sizeOf_spec]
    refine ⟨by omega, fun t ht => ?_⟩
    have := sizeOf_lt_of_eq_some ht
    omega
  | «variable» parameter =>
    simp only [TyForm.parts, List.forall_mem_singleton, Node.element.sizeOf_spec,
      Element.typeParameter.sizeOf_spec, TyForm.variable.sizeOf_spec]
    omega
  | primitive | wildcard | noType | unknown => simp [TyForm.parts]

theorem Ty.sizeOf_parts {t : Ty} : ∀ m ∈ t.parts, sizeOf m ≤ sizeOf t := by
  obtain ⟨kind, name, qualified, nullable, arguments, upper, lower, declaration, annotations,
    form⟩ := t
  simp only [Ty.parts, List.forall_mem_append, forall_mem_ofTypes, forall_mem_ofElements,
    forall_mem_ofMarks, Option.mem_toList, Node.type.sizeOf_spec, Node.element.sizeOf_spec,
    Node.mark.sizeOf_spec, Ty.mk.sizeOf_spec]
  refine ⟨⟨⟨⟨⟨fun s hs => ?_, fun s hs => ?_⟩, fun s hs => ?_⟩, fun e he => ?_⟩, fun a ha => ?_⟩,
    fun m hm => ?_⟩
  · have := List.sizeOf_lt_of_mem hs
    omega
  · have := List.sizeOf_lt_of_mem hs
    omega
  · have := List.sizeOf_lt_of_mem hs
    omega
  · have := sizeOf_lt_of_eq_some he
    omega
  · have := List.sizeOf_lt_of_mem ha
    omega
  · have := TyForm.sizeOf_parts m hm
    omega

theorem Annotation.sizeOf_parts {a : Annotation} : ∀ m ∈ a.parts, sizeOf m ≤ sizeOf a := by
  obtain ⟨type, name, qualified, arguments⟩ := a
  simp only [List.forall_mem_cons, Annotation.parts, forall_mem_ofValues, List.forall_mem_map,
    Node.type.sizeOf_spec, Node.value.sizeOf_spec, Annotation.mk.sizeOf_spec]
  refine ⟨by omega, fun argument hargument => ?_⟩
  have := List.sizeOf_lt_of_mem hargument
  have : sizeOf argument = 1 + sizeOf argument.1 + sizeOf argument.2 := rfl
  omega

theorem Value.sizeOf_parts {v : Value} : ∀ m ∈ v.parts, sizeOf m ≤ sizeOf v := by
  cases v with
  | enumConstant type constant =>
    simp only [Value.parts, List.forall_mem_cons, List.not_mem_nil, false_implies, implies_true,
      and_true, Node.type.sizeOf_spec, Node.element.sizeOf_spec, Value.enumConstant.sizeOf_spec]
    omega
  | array values =>
    simp only [Value.parts, forall_mem_ofValues, Node.value.sizeOf_spec, Value.array.sizeOf_spec]
    intro w hw
    have := List.sizeOf_lt_of_mem hw
    omega
  | nested content =>
    simp only [Value.parts, List.forall_mem_singleton, Node.mark.sizeOf_spec,
      Value.nested.sizeOf_spec]
    omega
  | string _ | literal _ | classLiteral _ _ | unknown _ => simp [Value.parts]

end

namespace Node

/-- What a part holds directly is smaller. -/
theorem sizeOf_lt_of_mem_parts {n m : Node} (h : m ∈ n.parts) : sizeOf m < sizeOf n := by
  cases n with
  | element e =>
    have := Element.sizeOf_parts m h
    rw [element.sizeOf_spec]
    omega
  | type t =>
    have := Ty.sizeOf_parts m h
    rw [type.sizeOf_spec]
    omega
  | mark a =>
    have := Annotation.sizeOf_parts m h
    rw [mark.sizeOf_spec]
    omega
  | value v =>
    have := Value.sizeOf_parts m h
    rw [value.sizeOf_spec]
    omega

/-- **What holds of a part if it holds of all that the part holds directly, holds of every
part.** -/
theorem induction {P : Node → Prop} (step : ∀ n, (∀ m ∈ n.parts, P m) → P n) (n : Node) : P n :=
  step n fun m _ => induction step m
termination_by sizeOf n
decreasing_by exact sizeOf_lt_of_mem_parts ‹_›

end Node
end SymbolGraph
