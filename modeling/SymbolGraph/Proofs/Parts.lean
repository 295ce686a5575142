/-
# All parts of a tree

Claims about a converted tree speak of everything in it: elements in elements,
types in signatures, arguments and bounds in types, annotations on both, values
in annotations. `Node.parts` lists what a part holds directly, every field of
every kind, and `Node.Holds` is what it holds at any depth. A property holds of
a whole tree (`Node.Every`) if it holds of the root and of the whole tree below
each part of the root; for each kind of node, one lemma says which trees these
are, so a conversion is followed field by field.

Key definitions: `Node.parts`, `Node.Holds`, `Node.Below`, `Node.Every`,
`Header.Every`.
Key theorems: `Node.every_iff`, `Node.hop?_mem_parts`, `Node.holds_of_follow?`.
-/
import Mathlib.Logic.Relation
import SymbolGraph.Node

namespace SymbolGraph

/-! ### What a part holds directly -/

namespace Node

/-- Some elements, as parts. -/
def ofElements (es : List Element) : List Node := es.map .element

/-- Some types, as parts. -/
def ofTypes (ts : List Ty) : List Node := ts.map .type

/-- Some annotations, as parts. -/
def ofMarks (as : List Annotation) : List Node := as.map .mark

/-- Some values, as parts. -/
def ofValues (vs : List Value) : List Node := vs.map .value

end Node

open Node (ofElements ofTypes ofMarks ofValues)

/-- What stands in the header of an element. -/
def Header.parts (h : Header) : List Node :=
  ofElements (h.enclosing.toList ++ h.enclosed) ++ ofMarks h.annotations

/-- What an element holds directly. -/
def Element.parts : Element → List Node
  | .classLike c =>
    c.header.parts ++ ofTypes (c.superclass.toList ++ c.interfaces) ++
      ofElements (c.typeParameters.map .typeParameter ++ c.companion.toList.map .classLike)
  | .callable c =>
    c.header.parts ++ ofTypes (c.returnType :: (c.thrownTypes ++ c.receiverType.toList)) ++
      ofElements (c.parameters.map .variable ++ c.typeParameters.map .typeParameter)
  | .variable v => v.header.parts ++ ofTypes [v.type] ++ ofValues v.constantValue.toList
  | .property p =>
    p.header.parts ++ ofTypes (p.type :: p.receiverType.toList) ++
      ofValues p.constantValue.toList ++
      ofElements (p.getter.toList.map .callable ++ p.setter.toList.map .callable ++
        p.backingField.toList.map .variable)
  | .typeParameter p => p.header.parts ++ ofTypes p.bounds
  | .stub _ => []

/-- What the form of a type holds directly. -/
def TyForm.parts : TyForm → List Node
  | .array component => [.type component]
  | .declared element enclosing => .element (.classLike element) :: ofTypes enclosing.toList
  | .variable parameter => [.element (.typeParameter parameter)]
  | .primitive | .wildcard | .noType | .unknown => []

/-- What a type holds directly. -/
def Ty.parts (t : Ty) : List Node :=
  ofTypes (t.arguments ++ t.upperBounds ++ t.lowerBounds) ++ ofElements t.declaration.toList ++
    ofMarks t.annotations ++ t.form.parts

/-- What an annotation holds directly. -/
def Annotation.parts (a : Annotation) : List Node :=
  .type a.type :: ofValues (a.arguments.map Prod.snd)

/-- What a value holds directly. -/
def Value.parts : Value → List Node
  | .enumConstant type constant => [.type type, .element constant]
  | .array values => ofValues values
  | .nested content => [.mark content]
  | .string _ | .literal _ | .classLiteral _ _ | .unknown _ => []

namespace Node

/-- What a part holds directly. -/
def parts : Node → List Node
  | .element e => e.parts
  | .type t => t.parts
  | .mark a => a.parts
  | .value v => v.parts

/-- A part holds itself and all that its parts hold. -/
def Holds : Node → Node → Prop := Relation.ReflTransGen fun n m => m ∈ n.parts

/-- What a part holds, the part itself apart. -/
def Below : Node → Node → Prop := Relation.TransGen fun n m => m ∈ n.parts

/-- A property of everything that a part holds. -/
def Every (P : Node → Prop) (n : Node) : Prop := ∀ m, n.Holds m → P m

theorem holds_trans {n m k : Node} (h : n.Holds m) (h' : m.Holds k) : n.Holds k :=
  Relation.ReflTransGen.trans h h'

theorem holds_of_mem {n m : Node} (h : m ∈ n.parts) : n.Holds m := Relation.ReflTransGen.single h

/-- What is below a part is held by one of its parts. -/
theorem below_iff {n k : Node} : n.Below k ↔ ∃ m ∈ n.parts, m.Holds k := by
  constructor
  · intro h
    obtain ⟨m, hm, hk⟩ := Relation.TransGen.head'_iff.mp h
    exact ⟨m, hm, hk⟩
  · rintro ⟨m, hm, hk⟩
    exact Relation.TransGen.head' hm hk

variable {P : Node → Prop}

/-- A property holds of a whole tree if it holds of the root and of all trees below it. -/
theorem every_iff {n : Node} : n.Every P ↔ P n ∧ ∀ m ∈ n.parts, m.Every P := by
  constructor
  · intro h
    exact ⟨h n Relation.ReflTransGen.refl, fun m hm k hk => h k (holds_trans (holds_of_mem hm) hk)⟩
  · rintro ⟨h0, h1⟩ k hk
    rcases Relation.ReflTransGen.cases_head hk with rfl | ⟨m, hm, hk⟩
    · exact h0
    · exact h1 m hm k hk

theorem Every.self {n : Node} (h : n.Every P) : P n := h n Relation.ReflTransGen.refl

/-- A property of a whole tree is one of every tree in it. -/
theorem Every.every {n : Node} (h : n.Every P) : n.Every (Every P) :=
  fun _ hm k hk => h k (holds_trans hm hk)

end Node

/-! ### Every hop leads to a part -/

theorem Header.mem_parts {h : Header} {m : Node} : m ∈ h.parts ↔
    (∃ e, h.enclosing = some e ∧ m = .element e) ∨ (∃ e ∈ h.enclosed, m = .element e) ∨
      ∃ a ∈ h.annotations, m = .mark a := by
  simp only [Header.parts, ofElements, ofMarks, List.mem_append, List.mem_map, Option.mem_toList]
  constructor
  · rintro (⟨e, he | he, rfl⟩ | ⟨a, ha, rfl⟩)
    · exact Or.inl ⟨e, he, rfl⟩
    · exact Or.inr (Or.inl ⟨e, he, rfl⟩)
    · exact Or.inr (Or.inr ⟨a, ha, rfl⟩)
  · rintro (⟨e, he, rfl⟩ | ⟨e, he, rfl⟩ | ⟨a, ha, rfl⟩)
    · exact Or.inl ⟨e, Or.inl he, rfl⟩
    · exact Or.inl ⟨e, Or.inr he, rfl⟩
    · exact Or.inr ⟨a, ha, rfl⟩

/-- What stands in the header of an element is a part of the element. -/
theorem Element.mem_parts_of_header {e : Element} {h : Header} {m : Node} (he : e.header? = some h)
    (hm : m ∈ h.parts) : m ∈ e.parts := by
  cases e with
  | stub s => simp [header?] at he
  | classLike c => simp_all [header?, parts]
  | callable c => simp_all [header?, parts]
  | «variable» v => simp_all [header?, parts]
  | property p => simp_all [header?, parts]
  | typeParameter p => simp_all [header?, parts]

theorem Element.asClass?_eq_some_iff {e : Element} {c : ClassElement} :
    e.asClass? = some c ↔ e = .classLike c := by
  cases e <;> simp [asClass?]

theorem Element.asCallable?_eq_some_iff {e : Element} {c : Callable} :
    e.asCallable? = some c ↔ e = .callable c := by
  cases e <;> simp [asCallable?]

theorem Element.asProperty?_eq_some_iff {e : Element} {p : Property} :
    e.asProperty? = some p ↔ e = .property p := by
  cases e <;> simp [asProperty?]

theorem Element.asTypeParameter?_eq_some_iff {e : Element} {p : TypeParameter} :
    e.asTypeParameter? = some p ↔ e = .typeParameter p := by
  cases e <;> simp [asTypeParameter?]

namespace Hop

open Element (mem_parts_of_header)

variable {e : Element} {m : Node}

/-- The three fields of a header that hold parts. -/
theorem fromHeader_mem {h : Hop} (hh : h = .enclosing ∨ (∃ i, h = .enclosed i) ∨ ∃ i, h = .annotations i)
    (hm : h.fromElement e = some m) : m ∈ e.parts := by
  rcases hh with rfl | ⟨i, rfl⟩ | ⟨i, rfl⟩
  · obtain ⟨x, hx, rfl⟩ := Option.map_eq_some_iff.mp hm
    obtain ⟨k, hk, hx⟩ := Option.bind_eq_some_iff.mp hx
    exact mem_parts_of_header hk (Header.mem_parts.mpr (Or.inl ⟨x, hx, rfl⟩))
  · obtain ⟨x, hx, rfl⟩ := Option.map_eq_some_iff.mp hm
    have hmem : x ∈ e.enclosed := List.mem_of_getElem? hx
    unfold Element.enclosed at hmem
    split at hmem
    · rename_i k hk
      exact mem_parts_of_header hk (Header.mem_parts.mpr (Or.inr (Or.inl ⟨x, hmem, rfl⟩)))
    · exact absurd hmem List.not_mem_nil
  · obtain ⟨x, hx, rfl⟩ := Option.map_eq_some_iff.mp hm
    have hmem : x ∈ e.annotations := List.mem_of_getElem? hx
    unfold Element.annotations at hmem
    split at hmem
    · rename_i k hk
      exact mem_parts_of_header hk (Header.mem_parts.mpr (Or.inr (Or.inr ⟨x, hmem, rfl⟩)))
    · exact absurd hmem List.not_mem_nil

/-- A hop through a field of one sort of elements leads from such an element. -/
theorem exists_of_bind_map {α β : Type} {x : Option α} {field : α → Option β} {node : β → Node}
    (h : (x.bind field).map node = some m) :
    ∃ a b, x = some a ∧ field a = some b ∧ node b = m := by
  obtain ⟨b, hb, rfl⟩ := Option.map_eq_some_iff.mp h
  obtain ⟨a, ha, hab⟩ := Option.bind_eq_some_iff.mp hb
  exact ⟨a, b, ha, hab, rfl⟩

theorem fromElement_mem {h : Hop} (hm : h.fromElement e = some m) : m ∈ e.parts := by
  cases h with
  | enclosing => exact fromHeader_mem (Or.inl rfl) hm
  | enclosed i => exact fromHeader_mem (Or.inr (Or.inl ⟨i, rfl⟩)) hm
  | annotations i => exact fromHeader_mem (Or.inr (Or.inr ⟨i, rfl⟩)) hm
  | superclass =>
    obtain ⟨c, x, hc, hx, rfl⟩ := exists_of_bind_map hm
    obtain rfl := Element.asClass?_eq_some_iff.mp hc
    simp [Element.parts, ofTypes, hx]
  | interfaces i =>
    obtain ⟨c, x, hc, hx, rfl⟩ := exists_of_bind_map hm
    obtain rfl := Element.asClass?_eq_some_iff.mp hc
    simp [Element.parts, ofTypes, List.mem_of_getElem? hx]
  | companion =>
    obtain ⟨c, x, hc, hx, rfl⟩ := exists_of_bind_map hm
    obtain rfl := Element.asClass?_eq_some_iff.mp hc
    simp [Element.parts, ofElements, hx]
  | typeParameters i =>
    obtain ⟨x, hx, rfl⟩ := Option.map_eq_some_iff.mp hm
    have hmem : x ∈ e.typeParameters := List.mem_of_getElem? hx
    cases e <;> simp_all [Element.typeParameters, Element.parts, ofElements]
  | returnType =>
    obtain ⟨c, hc, rfl⟩ := Option.map_eq_some_iff.mp hm
    obtain rfl := Element.asCallable?_eq_some_iff.mp hc
    simp [Element.parts, ofTypes]
  | parameters i =>
    obtain ⟨c, x, hc, hx, rfl⟩ := exists_of_bind_map hm
    obtain rfl := Element.asCallable?_eq_some_iff.mp hc
    simp [Element.parts, ofElements, List.mem_of_getElem? hx]
  | thrownTypes i =>
    obtain ⟨c, x, hc, hx, rfl⟩ := exists_of_bind_map hm
    obtain rfl := Element.asCallable?_eq_some_iff.mp hc
    simp [Element.parts, ofTypes, List.mem_of_getElem? hx]
  | receiverType =>
    obtain ⟨x, hx, rfl⟩ := Option.map_eq_some_iff.mp hm
    cases e <;> simp_all [Element.receiverType?, Element.parts, ofTypes]
  | type =>
    obtain ⟨x, hx, rfl⟩ := Option.map_eq_some_iff.mp hm
    cases e <;> simp_all [Element.type?, Element.parts, ofTypes]
  | constantValue =>
    obtain ⟨x, hx, rfl⟩ := Option.map_eq_some_iff.mp hm
    cases e <;> simp_all [Element.constantValue?, Element.parts, ofValues]
  | getter =>
    obtain ⟨p, x, hp, hx, rfl⟩ := exists_of_bind_map hm
    obtain rfl := Element.asProperty?_eq_some_iff.mp hp
    simp [Element.parts, ofElements, hx]
  | setter =>
    obtain ⟨p, x, hp, hx, rfl⟩ := exists_of_bind_map hm
    obtain rfl := Element.asProperty?_eq_some_iff.mp hp
    simp [Element.parts, ofElements, hx]
  | backingField =>
    obtain ⟨p, x, hp, hx, rfl⟩ := exists_of_bind_map hm
    obtain rfl := Element.asProperty?_eq_some_iff.mp hp
    simp [Element.parts, ofElements, hx]
  | bounds i =>
    obtain ⟨p, x, hp, hx, rfl⟩ := exists_of_bind_map hm
    obtain rfl := Element.asTypeParameter?_eq_some_iff.mp hp
    simp [Element.parts, ofTypes, List.mem_of_getElem? hx]
  | genericElement =>
    -- the generic element of a type parameter is what is around it
    obtain ⟨p, x, hp, hx, rfl⟩ := exists_of_bind_map hm
    obtain rfl := Element.asTypeParameter?_eq_some_iff.mp hp
    exact mem_parts_of_header rfl (Header.mem_parts.mpr (Or.inl ⟨x, hx, rfl⟩))
  | _ => exact absurd hm (by simp [fromElement])

theorem fromType_mem {t : Ty} {h : Hop} {m : Node} (hm : h.fromType t = some m) :
    m ∈ t.parts := by
  cases h <;>
    simp [fromType, Ty.component?, Ty.classElement?, Ty.enclosing?] at hm <;>
    simp only [Ty.parts, TyForm.parts, ofElements, ofTypes, ofMarks, List.mem_append,
      List.mem_map, Option.mem_toList] <;>
    grind [List.mem_of_getElem?]

theorem fromMark_mem {a : Annotation} {h : Hop} {m : Node} (hm : h.fromMark a = some m) :
    m ∈ a.parts := by
  cases h with
  | markType => simp_all [fromMark, Annotation.parts]
  | argument name =>
    obtain ⟨v, hv, rfl⟩ := Option.map_eq_some_iff.mp hm
    obtain ⟨l, r, hlr, -⟩ := List.lookup_eq_some_iff.mp hv
    refine List.mem_cons_of_mem _ (List.mem_map.mpr ⟨v, List.mem_map.mpr ⟨(name, v), ?_, rfl⟩, rfl⟩)
    rw [hlr]
    simp
  | _ => simp [fromMark] at hm

theorem fromValue_mem {v : Value} {h : Hop} {m : Node} (hm : h.fromValue v = some m) :
    m ∈ v.parts := by
  unfold fromValue at hm
  split at hm
  · obtain ⟨w, hw, rfl⟩ := Option.map_eq_some_iff.mp hm
    exact List.mem_map.mpr ⟨w, List.mem_of_getElem? hw, rfl⟩
  · simp_all [Value.parts]
  · simp_all [Value.parts]
  · simp_all [Value.parts]
  · exact absurd hm (by simp)

end Hop

namespace Node

variable {P : Node → Prop}

/-- No hop leads out of the parts. -/
theorem hop?_mem_parts {n m : Node} {h : Hop} (hm : n.hop? h = some m) : m ∈ n.parts := by
  cases n with
  | element e => exact Hop.fromElement_mem hm
  | type t => exact Hop.fromType_mem hm
  | mark a => exact Hop.fromMark_mem hm
  | value v => exact Hop.fromValue_mem hm

/-- A walk stays in the tree it begins in. -/
theorem holds_of_follow? : ∀ {hs : List Hop} {n m : Node}, n.follow? hs = some m → n.Holds m
  | [], _, _, h => Option.some.inj h ▸ Relation.ReflTransGen.refl
  | _ :: _, _, _, h => by
    obtain ⟨k, hk, h⟩ := Option.bind_eq_some_iff.mp h
    exact holds_trans (holds_of_mem (hop?_mem_parts hk)) (holds_of_follow? h)

/-! ### A whole tree, kind by kind -/

theorem forall_ofElements {es : List Element} :
    (∀ m ∈ ofElements es, m.Every P) ↔ ∀ e ∈ es, (element e).Every P := by
  simp [ofElements]

theorem forall_ofTypes {ts : List Ty} :
    (∀ m ∈ ofTypes ts, m.Every P) ↔ ∀ t ∈ ts, (type t).Every P := by
  simp [ofTypes]

theorem forall_ofMarks {as : List Annotation} :
    (∀ m ∈ ofMarks as, m.Every P) ↔ ∀ a ∈ as, (mark a).Every P := by
  simp [ofMarks]

theorem forall_ofValues {vs : List Value} :
    (∀ m ∈ ofValues vs, m.Every P) ↔ ∀ v ∈ vs, (value v).Every P := by
  simp [ofValues]

/-- A stub holds nothing. -/
theorem every_stub {s : Stub} : (element (.stub s)).Every P ↔ P (element (.stub s)) := by
  rw [every_iff]
  simp [parts, Element.parts]

end Node

open Node (Every forall_ofElements forall_ofTypes forall_ofMarks forall_ofValues)

/-- A property of everything that stands in the header of an element. -/
def Header.Every (P : Node → Prop) (h : Header) : Prop :=
  (∀ e, h.enclosing = some e → (Node.element e).Every P) ∧
    (∀ e ∈ h.enclosed, (Node.element e).Every P) ∧ ∀ a ∈ h.annotations, (Node.mark a).Every P

variable {P : Node → Prop}

theorem Header.every_iff {h : Header} : (∀ m ∈ h.parts, m.Every P) ↔ h.Every P := by
  simp only [Header.parts, List.forall_mem_append, forall_ofElements, forall_ofMarks, Header.Every,
    Option.mem_toList, and_assoc]

namespace Node

/-- Everything below a class. -/
theorem forall_class_parts {c : ClassElement} (header : c.header.Every P)
    (superclass : ∀ t, c.superclass = some t → (type t).Every P)
    (interfaces : ∀ t ∈ c.interfaces, (type t).Every P)
    (typeParameters : ∀ p ∈ c.typeParameters, (element (.typeParameter p)).Every P)
    (companion : ∀ k, c.companion = some k → (element (.classLike k)).Every P) :
    ∀ m ∈ (element (.classLike c)).parts, m.Every P := by
  simp only [parts, Element.parts, List.forall_mem_append, Header.every_iff, forall_ofTypes,
    forall_ofElements, List.forall_mem_map, Option.mem_toList]
  exact ⟨⟨header, superclass, interfaces⟩, typeParameters, companion⟩

theorem every_callable {c : Callable} (self : P (element (.callable c)))
    (header : c.header.Every P) (returnType : (type c.returnType).Every P)
    (parameters : ∀ v ∈ c.parameters, (element (.variable v)).Every P)
    (typeParameters : ∀ p ∈ c.typeParameters, (element (.typeParameter p)).Every P)
    (thrownTypes : ∀ t ∈ c.thrownTypes, (type t).Every P)
    (receiverType : ∀ t, c.receiverType = some t → (type t).Every P) :
    (element (.callable c)).Every P := by
  refine every_iff.mpr ⟨self, ?_⟩
  simp only [parts, Element.parts, List.forall_mem_append, Header.every_iff, forall_ofTypes,
    forall_ofElements, List.forall_mem_map, List.forall_mem_cons, Option.mem_toList]
  exact ⟨⟨header, returnType, thrownTypes, receiverType⟩, parameters, typeParameters⟩

theorem every_variable {v : Variable} (self : P (element (.variable v)))
    (header : v.header.Every P) (ty : (type v.type).Every P)
    (constantValue : ∀ w, v.constantValue = some w → (value w).Every P) :
    (element (.variable v)).Every P := by
  refine every_iff.mpr ⟨self, ?_⟩
  simp only [parts, Element.parts, List.forall_mem_append, Header.every_iff, forall_ofTypes,
    forall_ofValues, List.forall_mem_singleton, Option.mem_toList]
  exact ⟨⟨header, ty⟩, constantValue⟩

theorem every_property {p : Property} (self : P (element (.property p)))
    (header : p.header.Every P) (ty : (type p.type).Every P)
    (constantValue : ∀ w, p.constantValue = some w → (value w).Every P)
    (getter : ∀ c, p.getter = some c → (element (.callable c)).Every P)
    (setter : ∀ c, p.setter = some c → (element (.callable c)).Every P)
    (backingField : ∀ v, p.backingField = some v → (element (.variable v)).Every P)
    (receiverType : ∀ t, p.receiverType = some t → (type t).Every P) :
    (element (.property p)).Every P := by
  refine every_iff.mpr ⟨self, ?_⟩
  simp only [parts, Element.parts, List.forall_mem_append, Header.every_iff, forall_ofTypes,
    forall_ofValues, forall_ofElements, List.forall_mem_map, List.forall_mem_cons,
    Option.mem_toList]
  exact ⟨⟨⟨header, ty, receiverType⟩, constantValue⟩, ⟨getter, setter⟩, backingField⟩

theorem every_typeParameter {p : TypeParameter} (self : P (element (.typeParameter p)))
    (header : p.header.Every P) (bounds : ∀ t ∈ p.bounds, (type t).Every P) :
    (element (.typeParameter p)).Every P := by
  refine every_iff.mpr ⟨self, ?_⟩
  simp only [parts, Element.parts, List.forall_mem_append, Header.every_iff, forall_ofTypes]
  exact ⟨header, bounds⟩

theorem every_type {t : Ty} (self : P (type t)) (arguments : ∀ s ∈ t.arguments, (type s).Every P)
    (upperBounds : ∀ s ∈ t.upperBounds, (type s).Every P)
    (lowerBounds : ∀ s ∈ t.lowerBounds, (type s).Every P)
    (declaration : ∀ e, t.declaration = some e → (element e).Every P)
    (annotations : ∀ a ∈ t.annotations, (mark a).Every P)
    (form : ∀ m ∈ t.form.parts, m.Every P) : (type t).Every P := by
  refine every_iff.mpr ⟨self, ?_⟩
  simp only [parts, Ty.parts, List.forall_mem_append, forall_ofTypes, forall_ofElements,
    forall_ofMarks, Option.mem_toList]
  exact ⟨⟨⟨⟨⟨arguments, upperBounds⟩, lowerBounds⟩, declaration⟩, annotations⟩, form⟩

theorem every_mark {a : Annotation} (self : P (mark a)) (ty : (type a.type).Every P)
    (arguments : ∀ argument ∈ a.arguments, (value argument.2).Every P) : (mark a).Every P := by
  refine every_iff.mpr ⟨self, ?_⟩
  simp only [parts, Annotation.parts, List.forall_mem_cons, forall_ofValues, List.forall_mem_map]
  exact ⟨ty, arguments⟩

end Node
end SymbolGraph
