/-
# Where a converted tree ends

A table may refer to itself in circles, and a converted tree must not follow
them. It is cut at five places (`Truncated`): what is around an element, and
what declares a type, is a stub; a class behind a type has no members, no
supertypes, no type parameters and no companion; nested classes are there
directly under the root of a full conversion only; the type around a type has
none around it; and a type that stands for a type parameter has no bounds.

Each conversion is followed once. Everything inside a type, an annotation or a
constant satisfies `InType`, by induction on the reference or the constant as it
is written, and everything else below the root satisfies `Inner`. The root alone
may hold nested classes, so what is proved of a class converted in full is about
its parts (`forall_parts_of_classWithMembers?`).

Key definitions: `ClassElement.Bare`, `Node.Cut`, `Node.InType`, `Node.Inner`,
`Truncated`.
Key theorems: `every_signatureType`, `every_boundedClass?`,
`conversion_truncated`.
-/
import SymbolGraph.Proofs.Converted
import SymbolGraph.Proofs.Parts

namespace SymbolGraph

open Node (Every every_iff below_iff every_stub every_callable every_variable every_property
  every_typeParameter every_type every_mark forall_class_parts holds_of_follow?)

/-- A class with nothing inside it. -/
def ClassElement.Bare (c : ClassElement) : Prop :=
  c.header.enclosed = [] ∧ c.superclass = none ∧ c.interfaces = [] ∧ c.typeParameters = [] ∧
    c.companion = none

/-- A type that stands for a type parameter, by its kind or by its form. -/
def Ty.OfParameter (t : Ty) : Prop := t.isVariable ∨ ∃ p, t.form = .variable p

namespace Node

/-- What one part of a tree has to do with the five cuts, if no class is nested in it. -/
def Cut : Node → Prop
  | .element e =>
    (∀ x, e.enclosing? = some x → x.isStub) ∧
      ∀ c, .classLike c ∈ e.enclosed → c.kind = .enumEntry
  | .type t =>
    (∀ x, t.declaration = some x → x.isStub) ∧
      (∀ o, t.enclosing? = some o → o.enclosing? = none) ∧ (t.OfParameter → t.upperBounds = [])
  | .mark _ | .value _ => True

/-- What holds of a part inside a type: it is cut, and if it is a class, it is bare. -/
def InType (n : Node) : Prop := n.Cut ∧ ∀ c, n = .element (.classLike c) → c.Bare

/-- What holds of a part below the root: it is cut, and if it is a type, so is all of it. -/
def Inner (n : Node) : Prop := n.Cut ∧ ∀ t, n = .type t → n.Every InType

/-- What holds inside a type holds below the root. -/
theorem inner_of_inType {n : Node} (h : n.Every InType) : n.Every Inner :=
  fun m hm => ⟨(h m hm).1, fun _ _ k hk => h k (holds_trans hm hk)⟩

theorem inType_stub (s : Stub) : InType (.element (.stub s)) :=
  ⟨⟨fun x hx => by simp [Element.enclosing?, Element.header?] at hx,
    fun c hc => by simp [Element.enclosed, Element.header?] at hc⟩, fun c hc => by simp at hc⟩

theorem every_inType_stub (s : Stub) : (Node.element (.stub s)).Every InType :=
  every_stub.mpr (inType_stub s)

theorem inType_mark (a : Annotation) : InType (.mark a) := ⟨trivial, fun c hc => by simp at hc⟩

theorem inType_value (v : Value) : InType (.value v) := ⟨trivial, fun c hc => by simp at hc⟩

end Node

open Node (Cut InType Inner inner_of_inType every_inType_stub inType_mark inType_value)

/-! ### The five cuts -/

/-- **A tree converted at a depth is cut at five places.** -/
structure Truncated (depth : Depth) (root : Element) : Prop where
  /-- What is around an element is a stub. -/
  enclosing : ∀ e x, (Node.element root).Holds (.element e) → e.enclosing? = some x → x.isStub
  /-- What declares a type is a stub. -/
  declaration : ∀ s x, (Node.element root).Holds (.type s) → s.declaration = some x → x.isStub
  /-- A class anywhere inside a type has nothing inside it. -/
  behind : ∀ s c, (Node.element root).Holds (.type s) →
    (Node.type s).Holds (.element (.classLike c)) → c.Bare
  /-- A nested class stands in the root of a full conversion, and has none nested in it;
  enum entries are no nested classes here. -/
  nested : ∀ c, .classLike c ∈ root.enclosed → c.kind ≠ .enumEntry →
    depth = .full ∧ ∀ k, .classLike k ∈ c.header.enclosed → k.kind = .enumEntry
  /-- Below the root there are no nested classes. -/
  nestedBelow : ∀ e c, (Node.element root).Below (.element e) → .classLike c ∈ e.enclosed →
    c.kind = .enumEntry
  /-- The type around a type has none around it. -/
  enclosingType : ∀ s o, (Node.element root).Holds (.type s) → s.enclosing? = some o →
    o.enclosing? = none
  /-- A type that stands for a type parameter has no bounds. -/
  unbounded : ∀ s, (Node.element root).Holds (.type s) → s.OfParameter → s.upperBounds = []

/-- A tree is cut at the five places, if all below its root is cut and the root is too, but
for the nested classes of a full conversion. -/
theorem Truncated.of_parts {depth : Depth} {root : Element}
    (henclosing : ∀ x, root.enclosing? = some x → x.isStub)
    (hparts : ∀ m ∈ (Node.element root).parts, m.Every Inner)
    (hnested : ∀ c, .classLike c ∈ root.enclosed → c.kind ≠ .enumEntry →
      depth = .full ∧ ∀ k, .classLike k ∈ c.header.enclosed → k.kind = .enumEntry) :
    Truncated depth root := by
  have hbelow : ∀ n, (Node.element root).Below n → n.Every Inner := by
    intro n hn
    obtain ⟨m, hm, hk⟩ := below_iff.mp hn
    exact (hparts m hm).every n hk
  have htype : ∀ s, (Node.element root).Holds (.type s) → (Node.type s).Every Inner := by
    intro s hs
    rcases Relation.reflTransGen_iff_eq_or_transGen.mp hs with heq | hs
    · exact absurd heq (by simp)
    · exact hbelow _ hs
  have hroot : ∀ e x, (Node.element root).Holds (.element e) → e.enclosing? = some x →
      x.isStub := by
    intro e x he hx
    rcases Relation.reflTransGen_iff_eq_or_transGen.mp he with heq | he
    · injection heq with heq
      exact henclosing x (heq ▸ hx)
    · exact (hbelow _ he).self.1.1 x hx
  have hbehind : ∀ s c, (Node.element root).Holds (.type s) →
      (Node.type s).Holds (.element (.classLike c)) → c.Bare := by
    intro s c hs hc
    have hin : (Node.type s).Every InType := (htype s hs).self.2 s rfl
    exact (hin _ hc).2 c rfl
  exact
    { enclosing := hroot
      declaration := fun s x hs => (htype s hs).self.1.1 x
      behind := hbehind
      nested := hnested
      nestedBelow := fun e c he => (hbelow _ he).self.1.2 c
      enclosingType := fun s o hs => (htype s hs).self.1.2.1 o
      unbounded := fun s hs => (htype s hs).self.1.2.2 }

theorem Truncated.of_every {depth : Depth} {root : Element}
    (h : (Node.element root).Every Inner) : Truncated depth root := by
  obtain ⟨hroot, hparts⟩ := every_iff.mp h
  refine of_parts hroot.1.1 hparts fun c hc hk => ?_
  exact absurd (hroot.1.2 c hc) hk

/-- The header holds nothing but a stub and annotations that are cut, and what is around
the element is that stub. -/
structure Header.Plain (h : Header) : Prop where
  enclosing : ∀ e, h.enclosing = some e → ∃ s, e = .stub s
  enclosed : h.enclosed = []
  annotations : ∀ a ∈ h.annotations, (Node.mark a).Every InType

theorem Header.Plain.every {h : Header} (hp : h.Plain) : h.Every InType := by
  refine ⟨fun e he => ?_, fun e he => ?_, hp.annotations⟩
  · obtain ⟨s, rfl⟩ := hp.enclosing e he
    exact every_inType_stub s
  · rw [hp.enclosed] at he
    exact absurd he (by simp)

/-- An element with such a header is cut. -/
theorem Header.Plain.cut {h : Header} (hp : h.Plain) {e : Element} (he : e.header? = some h) :
    Cut (.element e) := by
  refine ⟨fun x hx => ?_, fun c hc => ?_⟩
  · rw [Element.enclosing?, he] at hx
    obtain ⟨s, rfl⟩ := hp.enclosing x hx
    rfl
  · rw [Element.enclosed, he] at hc
    simp only [hp.enclosed] at hc
    exact absurd hc (by simp)

theorem Header.Every.mono {P Q : Node → Prop} {h : Header} (hh : h.Every P)
    (hPQ : ∀ n : Node, n.Every P → n.Every Q) : h.Every Q :=
  ⟨fun e he => hPQ _ (hh.1 e he), fun e he => hPQ _ (hh.2.1 e he), fun a ha => hPQ _ (hh.2.2 a ha)⟩

/-- Whether the types of a signature were found does not matter. -/
theorem Header.Plain.withValid {h : Header} (hp : h.Plain) (valid : Bool) :
    ({ h with valid } : Header).Plain :=
  ⟨hp.enclosing, hp.enclosed, hp.annotations⟩

theorem Header.Plain.inner {h : Header} (hp : h.Plain) {e : Element} (he : e.header? = some h) :
    Inner (.element e) :=
  ⟨hp.cut he, fun s hs => by simp at hs⟩

theorem Header.Plain.every_inner {h : Header} (hp : h.Plain) : h.Every Inner :=
  hp.every.mono fun _ => inner_of_inType

/-- A bare class with such a header may stand behind a type. -/
theorem ClassElement.Bare.every {c : ClassElement} (h : c.Bare) (hp : c.header.Plain) :
    (Node.element (.classLike c)).Every InType := by
  obtain ⟨-, hs, hi, ht, hc⟩ := id h
  refine every_iff.mpr ⟨⟨hp.cut rfl, fun k hk => ?_⟩, forall_class_parts hp.every ?_ ?_ ?_ ?_⟩
  · injection hk with hk
    injection hk with hk
    exact hk ▸ h
  · simp [hs]
  · simp [hi]
  · simp [ht]
  · simp [hc]

/-! ### Types put together -/

/-- A type without marks all of which is cut. -/
structure Ty.Core (t : Ty) : Prop where
  arguments : ∀ s ∈ t.arguments, (Node.type s).Every InType
  upperBounds : ∀ s ∈ t.upperBounds, (Node.type s).Every InType
  lowerBounds : ∀ s ∈ t.lowerBounds, (Node.type s).Every InType
  form : ∀ m ∈ t.form.parts, m.Every InType
  enclosing : ∀ o, t.enclosing? = some o → o.enclosing? = none
  unbounded : t.OfParameter → t.upperBounds = []
  unmarked : t.declaration = none ∧ t.annotations = []

theorem Ty.Core.every {t : Ty} (h : t.Core) : (Node.type t).Every InType := by
  refine every_type ⟨⟨fun x hx => ?_, h.enclosing, h.unbounded⟩, fun c hc => by simp at hc⟩
    h.arguments h.upperBounds h.lowerBounds (fun e he => ?_) (fun a ha => ?_) h.form
  · simp [h.unmarked.1] at hx
  · simp [h.unmarked.1] at he
  · simp [h.unmarked.2] at ha

/-- The marks are a text, nullability, annotations and the stub of a declaration. -/
theorem Ty.Core.every_marked {t : Ty} (h : t.Core) (canonicalName : String) (nullable : Bool)
    {annotations : List Annotation} (ha : ∀ a ∈ annotations, (Node.mark a).Every InType)
    (s : Stub) :
    (Node.type { t with
      canonicalName, nullable, annotations, declaration := some (.stub s) }).Every InType := by
  refine every_type ⟨⟨fun x hx => ?_, h.enclosing, h.unbounded⟩, fun c hc => by simp at hc⟩
    h.arguments h.upperBounds h.lowerBounds (fun e he => ?_) ha h.form
  · rw [← Option.some.inj hx]
    rfl
  · rw [← Option.some.inj he]
    exact every_inType_stub s

theorem Ty.core_unknown : Ty.unknown.Core := by
  constructor <;> simp [unknown, rendered, bare, TyForm.parts, OfParameter, isVariable, enclosing?]

theorem Ty.core_ofPrimitive (p : Primitive) : (Ty.ofPrimitive p).Core := by
  constructor <;>
    simp [ofPrimitive, rendered, bare, TyForm.parts, OfParameter, isVariable, enclosing?]

theorem Ty.core_noType (k : TypeKind) : (Ty.noType k).Core := by
  unfold noType
  split <;> constructor <;>
    simp [rendered, bare, TyForm.parts, OfParameter, isVariable, enclosing?]

theorem Ty.core_array {component : Ty} (h : (Node.type component).Every InType) :
    (Ty.array component).Core := by
  constructor <;>
    simp [array, rendered, bare, TyForm.parts, OfParameter, isVariable, enclosing?, h]

theorem Ty.core_typeVariable {p : TypeParameter} (hb : p.bounds = [])
    (h : (Node.element (.typeParameter p)).Every InType) : (Ty.typeVariable p).Core := by
  constructor <;>
    simp [typeVariable, rendered, bare, TyForm.parts, OfParameter, isVariable, enclosing?, hb, h]

theorem Ty.core_declared {c : ClassElement} {arguments : List Ty} {enclosing : Option Ty}
    (hc : (Node.element (.classLike c)).Every InType)
    (ha : ∀ s ∈ arguments, (Node.type s).Every InType)
    (ho : ∀ o, enclosing = some o → (Node.type o).Every InType ∧ o.enclosing? = none) :
    ({ Ty.declared c arguments with form := .declared c enclosing } : Ty).Core := by
  constructor <;> simp [declared, rendered, bare, OfParameter, isVariable, enclosing?]
  · exact ha
  · intro m hm
    simp only [TyForm.parts, List.mem_cons, Node.ofTypes, List.mem_map, Option.mem_toList] at hm
    rcases hm with rfl | ⟨o, h, rfl⟩
    · exact hc
    · exact (ho o h).1
  · exact fun o h => (ho o h).2

theorem Ty.every_wildcard {upper lower : Option Ty}
    (hu : ∀ t, upper = some t → (Node.type t).Every InType)
    (hl : ∀ t, lower = some t → (Node.type t).Every InType) :
    (Node.type (.wildcard upper lower)).Every InType := by
  refine Core.every ?_
  constructor <;>
    simp [wildcard, rendered, bare, TyForm.parts, OfParameter, isVariable, enclosing?]
  · exact hu
  · exact hl

namespace SymbolTable

variable (t : SymbolTable)

/-! ### Annotations and constants -/

theorem enclosingStub?_eq_stub {d : Declaration} {e : Element} (h : t.enclosingStub? d = some e) :
    ∃ s, e = .stub s := by
  obtain ⟨s, -, rfl⟩ := Option.map_eq_some_iff.mp h
  exact ⟨s, rfl⟩

theorem every_headerType (id : DeclId) : (Node.type (t.headerType id)).Every InType := by
  unfold headerType
  split
  · exact Ty.core_unknown.every
  · rename_i d _
    split
    · exact Ty.core_unknown.every
    · rename_i c _
      have hbare : (t.identityClass d c.kind).Bare := ⟨rfl, rfl, rfl, rfl, rfl⟩
      have hplain : (t.identityClass d c.kind).header.Plain :=
        ⟨fun e he => t.enclosingStub?_eq_stub he, rfl, fun a ha => absurd ha List.not_mem_nil⟩
      have hcore : (Ty.declared (t.identityClass d c.kind) []).Core :=
        Ty.core_declared (hbare.every hplain) (by simp) (by simp)
      exact hcore.every_marked _ _ (fun a ha => absurd ha List.not_mem_nil) d.stub

theorem every_annotationType (r : TypeRef) : (Node.type (t.annotationType r)).Every InType := by
  unfold annotationType
  split
  · exact t.every_headerType _
  · exact Ty.core_unknown.every

theorem every_usageHeader (shortName : String) (r : TypeRef) :
    (Node.mark (t.usageHeader shortName r)).Every InType :=
  every_mark (inType_mark _) (t.every_annotationType r) (fun a ha => by simp [usageHeader] at ha)

/-- A value with nothing in it. -/
theorem every_value_of_parts {v : Value} (h : v.parts = []) : (Node.value v).Every InType :=
  every_iff.mpr ⟨inType_value v, fun m hm => by simp [Node.parts, h] at hm⟩

theorem every_enumValue (r : TypeRef) : (Node.value (t.enumValue r)).Every InType := by
  unfold enumValue
  split
  · exact every_value_of_parts rfl
  · rename_i d _
    refine every_iff.mpr ⟨inType_value _, ?_⟩
    simp only [Node.parts, Value.parts, List.forall_mem_cons]
    refine ⟨?_, every_inType_stub _, by simp⟩
    split
    · exact t.every_headerType _
    · exact Ty.core_unknown.every

theorem every_classValue (r : TypeRef) : (Node.value (t.classValue r)).Every InType := by
  unfold classValue
  split <;> exact every_value_of_parts rfl

mutual

/-- Nothing in an annotation is deeper than an identity. -/
theorem every_convertUsage (depth : Depth) :
    ∀ u : Usage, (Node.mark (t.convertUsage depth u)).Every InType
  | ⟨shortName, type, arguments⟩ => by
    unfold convertUsage
    refine every_mark (inType_mark _) (t.every_annotationType type) ?_
    exact Keyed.forall_ofList (P := fun v => (Node.value v).Every InType)
      (every_convertArguments depth arguments)

theorem every_convertConstant (depth : Depth) :
    ∀ c : Constant, (Node.value (t.convertConstant depth c)).Every InType
  | .string _ => every_value_of_parts rfl
  | .literal _ => every_value_of_parts rfl
  | .enumEntry entry => t.every_enumValue entry
  | .classLiteral type => t.every_classValue type
  | .array values => by
    unfold convertConstant
    split
    · refine every_iff.mpr ⟨inType_value _, Node.forall_ofValues.mpr ?_⟩
      exact every_convertConstants depth.descend values
    · exact every_value_of_parts rfl
  | .nested usage => by
    unfold convertConstant
    split
    · refine every_iff.mpr ⟨inType_value _, List.forall_mem_singleton.mpr ?_⟩
      exact t.every_usageHeader _ _
    · refine every_iff.mpr ⟨inType_value _, List.forall_mem_singleton.mpr ?_⟩
      exact every_convertUsage depth.descend usage
  | .null => every_value_of_parts rfl

theorem every_convertConstants (depth : Depth) :
    ∀ cs : List Constant, ∀ v ∈ t.convertConstants depth cs, (Node.value v).Every InType
  | [], v, hv => by simp [convertConstants] at hv
  | c :: cs, v, hv => by
    unfold convertConstants at hv
    rcases List.mem_cons.mp hv with rfl | hv
    · exact every_convertConstant depth c
    · exact every_convertConstants depth cs v hv

theorem every_convertArguments (depth : Depth) :
    ∀ args : List (String × Constant), ∀ a ∈ t.convertArguments depth args,
      (Node.value a.2).Every InType
  | [], a, ha => by simp [convertArguments] at ha
  | (name, c) :: rest, a, ha => by
    unfold convertArguments at ha
    rcases List.mem_cons.mp ha with rfl | ha
    · exact every_convertConstant depth c
    · exact every_convertArguments depth rest a ha

end

/-! ### Types in a signature -/

theorem plain_header (depth : Depth) (d : Declaration) (kind : ElementKind) :
    (t.header depth d kind).Plain := by
  refine ⟨fun e he => t.enclosingStub?_eq_stub he, rfl, fun a ha => ?_⟩
  obtain ⟨u, -, rfl⟩ := List.mem_map.mp ha
  exact t.every_convertUsage depth u

variable {t}

theorem bare_of_flatClass? {id : DeclId} {c : ClassElement} (h : t.flatClass? id = some c) :
    c.Bare ∧ c.header.Plain := by
  obtain ⟨d, k, -, -, rfl⟩ := conversion_eq_some_iff.mp h
  exact ⟨⟨rfl, rfl, rfl, rfl, rfl⟩, t.plain_header .flat d _⟩

theorem every_flatClass? {id : DeclId} {c : ClassElement} (h : t.flatClass? id = some c) :
    (Node.element (.classLike c)).Every InType :=
  (bare_of_flatClass? h).1.every (bare_of_flatClass? h).2

theorem every_flatTypeParameter? {id : DeclId} {p : TypeParameter}
    (h : t.flatTypeParameter? id = some p) :
    p.bounds = [] ∧ (Node.element (.typeParameter p)).Every InType := by
  obtain ⟨d, k, -, -, rfl⟩ := conversion_eq_some_iff.mp h
  have hp := t.plain_header .flat d .typeParameter
  refine ⟨rfl, every_typeParameter ⟨hp.cut rfl, fun c hc => by simp at hc⟩ hp.every ?_⟩
  simp [boundedTypeParameter]

/-- What a nested type is nested in is flat, and ends there. -/
theorem every_enclosingType? {d : Declaration} {o : Ty} (h : t.enclosingType? d = some o) :
    (Node.type o).Every InType ∧ o.enclosing? = none := by
  obtain ⟨owner, -, h⟩ := Option.bind_eq_some_iff.mp h
  obtain ⟨c, hc, h⟩ := Option.bind_eq_some_iff.mp h
  obtain ⟨s, -, h⟩ := Option.bind_eq_some_iff.mp h
  rw [← Option.some.inj h]
  have hcore : (Ty.declared c []).Core :=
    Ty.core_declared (every_flatClass? hc) (by simp) (by simp)
  exact ⟨hcore.every_marked _ _ (fun a ha => absurd ha List.not_mem_nil) s, rfl⟩

variable (t)

theorem core_typeOfTarget {arguments : List Ty} (ha : ∀ s ∈ arguments, (Node.type s).Every InType)
    (id : DeclId) (d : Declaration) :
    (t.typeOfTarget t.flatClass? t.flatTypeParameter? arguments id d).Core := by
  unfold typeOfTarget
  split
  · exact Ty.core_ofPrimitive _
  · exact Ty.core_noType _
  · exact Ty.core_noType _
  · refine Ty.core_array ?_
    cases arguments with
    | nil => exact Ty.core_unknown.every
    | cons s _ => exact ha s List.mem_cons_self
  · split
    · rename_i p hp
      exact Ty.core_typeVariable (every_flatTypeParameter? hp).1 (every_flatTypeParameter? hp).2
    · exact Ty.core_unknown
  · split
    · rename_i c hc
      exact Ty.core_declared (every_flatClass? hc) ha fun o ho => every_enclosingType? ho
    · exact Ty.core_unknown
  · exact Ty.core_unknown
  · exact Ty.core_unknown

theorem every_assembleType {arguments : List Ty} (ha : ∀ s ∈ arguments, (Node.type s).Every InType)
    (r : TypeRef) :
    (Node.type (t.assembleType .flat t.flatClass? t.flatTypeParameter? arguments r)).Every
      InType := by
  unfold assembleType
  split
  · exact Ty.core_unknown.every
  · split
    · exact Ty.core_unknown.every
    · rename_i id _ _ d _
      have hcore := t.core_typeOfTarget ha id d
      unfold marked
      split
      · exact hcore.every
      · refine hcore.every_marked _ _ (fun a ha => ?_) d.stub
        obtain ⟨u, -, rfl⟩ := List.mem_map.mp ha
        exact t.every_convertUsage .flat u

theorem every_projected (projection : Projection) {type : Ty}
    (h : (Node.type type).Every InType) : (Node.type (projected projection type)).Every InType := by
  have hsome : ∀ s, some type = some s → (Node.type s).Every InType :=
    fun s hs => Option.some.inj hs ▸ h
  have hnone : ∀ s, none = some s → (Node.type s).Every InType := fun s hs => by simp at hs
  cases projection with
  | invariant => exact h
  | covariant => exact Ty.every_wildcard hsome hnone
  | contravariant => exact Ty.every_wildcard hnone hsome
  | star => exact Ty.every_wildcard hnone hnone

mutual

/-- A type in a signature is cut everywhere, and no class in it has anything in it. -/
theorem every_signatureType : ∀ r : TypeRef, (Node.type (t.signatureType r)).Every InType
  | ⟨_, arguments, _, _⟩ => by
    unfold signatureType
    exact t.every_assembleType (every_signatureArguments arguments) _

theorem every_signatureArguments : ∀ as : List TypeArgument,
    ∀ s ∈ t.signatureArguments as, (Node.type s).Every InType
  | [], s, hs => by simp [signatureArguments] at hs
  | a :: as, s, hs => by
    unfold signatureArguments at hs
    rcases List.mem_cons.mp hs with rfl | hs
    · exact every_signatureArgument a
    · exact every_signatureArguments as s hs

theorem every_signatureArgument : ∀ a : TypeArgument,
    (Node.type (t.signatureArgument a)).Every InType
  | ⟨_, none⟩ => by
    unfold signatureArgument
    exact Ty.every_wildcard (by simp) (by simp)
  | ⟨projection, some r⟩ => by
    unfold signatureArgument
    exact every_projected projection (every_signatureType r)

end

/-! ### Functions and properties -/

theorem every_inner_signatureType (r : TypeRef) : (Node.type (t.signatureType r)).Every Inner :=
  inner_of_inType (t.every_signatureType r)

theorem every_inner_constant {depth : Depth} {constant : Option Constant} {w : Value}
    (h : constant.map (t.convertConstant depth) = some w) : (Node.value w).Every Inner := by
  obtain ⟨c, -, rfl⟩ := Option.map_eq_some_iff.mp h
  exact inner_of_inType (t.every_convertConstant depth c)

theorem every_typeParameter? {depth : Depth} {id : DeclId} {p : TypeParameter}
    (h : t.typeParameter? depth id = some p) : (Node.element (.typeParameter p)).Every Inner := by
  obtain ⟨d, k, -, -, rfl⟩ := conversion_eq_some_iff.mp h
  have hp := t.plain_header depth d .typeParameter
  refine every_typeParameter (hp.inner rfl) hp.every_inner fun s hs => ?_
  simp only [boundedTypeParameter] at hs
  split at hs
  · obtain ⟨r, -, rfl⟩ := List.mem_map.mp hs
    exact t.every_inner_signatureType r
  · exact absurd hs List.not_mem_nil

theorem every_typeParameters (depth : Depth) (ids : List DeclId) :
    ∀ p ∈ ids.filterMap (t.typeParameter? depth), (Node.element (.typeParameter p)).Every Inner := by
  intro p hp
  obtain ⟨i, -, hi⟩ := List.mem_filterMap.mp hp
  exact t.every_typeParameter? hi

theorem every_receiver (receiver : Option TypeRef) :
    ∀ s, receiver.map t.signatureType = some s → (Node.type s).Every Inner := by
  intro s hs
  obtain ⟨r, -, rfl⟩ := Option.map_eq_some_iff.mp hs
  exact t.every_inner_signatureType r

theorem every_parameter (depth : Depth) (owner : Declaration) (p : ValueParameter) :
    (Node.element (.variable (t.parameter depth owner p))).Every Inner := by
  have hp : (t.parameter depth owner p).header.Plain := by
    refine ⟨fun e he => ⟨_, (Option.some.inj he).symm⟩, rfl, fun a ha => ?_⟩
    obtain ⟨u, -, rfl⟩ := List.mem_map.mp ha
    exact t.every_convertUsage depth u
  exact every_variable (hp.inner rfl) hp.every_inner (t.every_inner_signatureType p.type)
    fun w hw => by simp [parameter] at hw

theorem every_returnType (d : Declaration) (c : CallableShape) :
    (Node.type (t.returnType d c)).Every Inner := by
  unfold returnType
  split
  · exact t.every_inner_signatureType _
  · exact inner_of_inType Ty.core_unknown.every

theorem every_callable? {depth : Depth} {id : DeclId} {c : Callable}
    (h : t.callable? depth id = some c) : (Node.element (.callable c)).Every Inner := by
  obtain ⟨d, k, -, -, rfl⟩ := conversion_eq_some_iff.mp h
  have hp := t.plain_header depth d d.elementKind
  have hparameters : ∀ v ∈ k.parameters.map (t.parameter depth.descend d),
      (Node.element (.variable v)).Every Inner := by
    intro v hv
    obtain ⟨p, -, rfl⟩ := List.mem_map.mp hv
    exact t.every_parameter depth.descend d p
  have hthrown : ∀ s ∈ k.throws.map t.signatureType, (Node.type s).Every Inner := by
    intro s hs
    obtain ⟨r, -, rfl⟩ := List.mem_map.mp hs
    exact t.every_inner_signatureType r
  exact every_callable ((hp.withValid _).inner rfl) hp.every_inner (t.every_returnType d k)
    hparameters (t.every_typeParameters depth.descend d.typeParameters) hthrown
    (t.every_receiver k.receiver)

theorem plain_accessorHeader (depth : Depth) (d : Declaration) (name : String) (a : Accessor) :
    (t.accessorHeader depth d name a).Plain := by
  refine ⟨fun e he => ⟨_, (Option.some.inj he).symm⟩, rfl, fun a ha => ?_⟩
  obtain ⟨u, -, rfl⟩ := List.mem_map.mp ha
  exact t.every_convertUsage depth u

theorem every_accessor (d : Declaration) {header : Header} (hp : header.Plain)
    {parameters : List Variable} {returnType : Ty}
    (hv : ∀ v ∈ parameters, (Node.element (.variable v)).Every Inner)
    (hr : (Node.type returnType).Every Inner) :
    (Node.element (.callable (accessor d header parameters returnType))).Every Inner :=
  every_callable ((hp.withValid _).inner rfl) hp.every_inner
    hr hv (fun p hp => absurd hp List.not_mem_nil) (fun s hs => absurd hs List.not_mem_nil)
    (fun s hs => by simp [accessor] at hs)

theorem every_setterParameter (d : Declaration) {type : Ty} (h : (Node.type type).Every Inner) :
    (Node.element (.variable (setterParameter d type))).Every Inner := by
  have hp : (setterParameter d type).header.Plain :=
    ⟨fun e he => ⟨_, (Option.some.inj he).symm⟩, rfl, fun a ha => absurd ha List.not_mem_nil⟩
  exact every_variable (hp.inner rfl) hp.every_inner h
    fun w hw => by simp [setterParameter] at hw

theorem every_property? {depth : Depth} {id : DeclId} {p : Property}
    (h : t.property? depth id = some p) : (Node.element (.property p)).Every Inner := by
  obtain ⟨d, k, -, -, rfl⟩ := conversion_eq_some_iff.mp h
  have hp := t.plain_header depth d .property
  have htype := t.every_inner_signatureType k.type
  have hgetter : ∀ a, (Node.element (.callable
      (t.getter depth d (t.signatureType k.type) a))).Every Inner := by
    intro a
    exact every_accessor d (t.plain_accessorHeader depth d _ a)
      (fun v hv => absurd hv List.not_mem_nil) htype
  have hsetter : ∀ a, (Node.element (.callable
      (t.setter depth d (t.signatureType k.type) a))).Every Inner := by
    intro a
    refine every_accessor d (t.plain_accessorHeader depth d _ a) (fun v hv => ?_)
      (inner_of_inType (Ty.core_noType .unit).every)
    rw [List.mem_singleton.mp hv]
    exact every_setterParameter d htype
  have hfield : (Node.element (.variable
      (t.backingField depth d k (t.signatureType k.type)))).Every Inner := by
    have hf := t.plain_header depth d .field
    exact every_variable ((hf.withValid _).inner rfl) hf.every_inner htype
      fun w hw => t.every_inner_constant hw
  refine every_property ((hp.withValid _).inner rfl) hp.every_inner htype
    (fun w hw => t.every_inner_constant hw) ?_ ?_ ?_ (t.every_receiver k.receiver)
  · intro c hc
    obtain ⟨a, -, rfl⟩ := Option.map_eq_some_iff.mp hc
    exact hgetter a
  · intro c hc
    obtain ⟨a, -, rfl⟩ := Option.map_eq_some_iff.mp hc
    exact hsetter a
  · intro v hv
    split at hv
    · rw [← Option.some.inj hv]
      exact hfield
    · exact absurd hv (by simp)

/-! ### Classes -/

/-- Superclass and interfaces are types of signatures. -/
theorem exists_of_splitSupertypes : ∀ rs : List TypeRef,
    (∀ s, (t.splitSupertypes rs).1 = some s → ∃ r, s = t.signatureType r) ∧
      ∀ s ∈ (t.splitSupertypes rs).2, ∃ r, s = t.signatureType r
  | [] => ⟨fun s hs => by simp [splitSupertypes] at hs, fun s hs => by simp [splitSupertypes] at hs⟩
  | r :: rs => by
    obtain ⟨hsuper, hinterfaces⟩ := exists_of_splitSupertypes rs
    unfold splitSupertypes
    split
    · exact ⟨hsuper, hinterfaces⟩
    · split
      · refine ⟨hsuper, fun s hs => ?_⟩
        rcases List.mem_cons.mp hs with rfl | hs
        · exact ⟨r, rfl⟩
        · exact hinterfaces s hs
      · refine ⟨fun s hs => ⟨r, (Option.some.inj hs).symm⟩, fun s hs => ?_⟩
        obtain ⟨r', -, rfl⟩ := List.mem_map.mp hs
        exact ⟨r', rfl⟩

variable {t}
variable {depth : Depth} {nested? companion? : DeclId → Option ClassElement} {id : DeclId}
  {c : ClassElement}

theorem every_member?
    (hnested : ∀ i k, nested? i = some k → (Node.element (.classLike k)).Every Inner)
    {e : Element} (h : t.member? depth nested? id = some e) : (Node.element e).Every Inner := by
  rcases member?_cases h with ⟨k, hk, -, rfl⟩ | ⟨k, hk, rfl⟩ | ⟨k, hk, rfl⟩ | ⟨k, hk, rfl⟩
  · exact inner_of_inType (every_flatClass? hk)
  · exact hnested id k hk
  · exact t.every_callable? hk
  · exact t.every_property? hk

/-- What is below a class is cut, if what is below its nested classes and its companion is. -/
theorem forall_parts_of_classWithMembers?
    (hnested : ∀ i k, nested? i = some k → (Node.element (.classLike k)).Every Inner)
    (hcompanion : ∀ i k, companion? i = some k → (Node.element (.classLike k)).Every Inner)
    (h : t.classWithMembers? depth nested? companion? id = some c) :
    ∀ m ∈ (Node.element (.classLike c)).parts, m.Every Inner := by
  obtain ⟨d, k, -, -, rfl⟩ := conversion_eq_some_iff.mp h
  have hp := t.plain_header depth d k.kind.elementKind
  obtain ⟨hsuper, hinterfaces⟩ := t.exists_of_splitSupertypes k.superTypes
  have hmembers : ∀ e ∈ d.members.filterMap (t.member? depth.descend nested?),
      (Node.element e).Every Inner := by
    intro e he
    obtain ⟨i, -, hi⟩ := List.mem_filterMap.mp he
    exact every_member? hnested hi
  refine forall_class_parts ⟨hp.every_inner.1, hmembers, hp.every_inner.2.2⟩ ?_ ?_
    (t.every_typeParameters depth.descend d.typeParameters) ?_
  · intro s hs
    obtain ⟨r, rfl⟩ := hsuper s hs
    exact t.every_inner_signatureType r
  · intro s hs
    obtain ⟨r, rfl⟩ := hinterfaces s hs
    exact t.every_inner_signatureType r
  · intro k hk
    obtain ⟨i, -, hi⟩ := Option.bind_eq_some_iff.mp hk
    exact hcompanion i k hi

/-- The classes nested in a class are enum entries and converted nested classes. -/
theorem nested_of_classWithMembers? (h : t.classWithMembers? depth nested? companion? id = some c)
    {k : ClassElement} (hk : .classLike k ∈ c.header.enclosed) :
    k.kind = .enumEntry ∨ ∃ i, nested? i = some k := by
  obtain ⟨d, s, -, -, rfl⟩ := conversion_eq_some_iff.mp h
  obtain ⟨i, -, hi⟩ := List.mem_filterMap.mp hk
  rcases member?_cases hi with ⟨k', -, hentry, heq⟩ | ⟨k', hk', heq⟩ | ⟨k', -, heq⟩ | ⟨k', -, heq⟩
  · injection heq with heq
    exact Or.inl (heq ▸ hentry)
  · injection heq with heq
    exact Or.inr ⟨i, heq ▸ hk'⟩
  · exact absurd heq (by simp)
  · exact absurd heq (by simp)

theorem enclosing_of_classWithMembers? (h : t.classWithMembers? depth nested? companion? id = some c)
    {x : Element} (hx : c.header.enclosing = some x) : x.isStub := by
  obtain ⟨d, s, -, -, rfl⟩ := conversion_eq_some_iff.mp h
  obtain ⟨stub, rfl⟩ := (t.plain_header depth d s.kind.elementKind).enclosing x hx
  rfl

/-- A class without nested classes is cut everywhere. -/
theorem every_boundedClass? (h : t.boundedClass? id = some c) :
    (Node.element (.classLike c)).Every Inner := by
  refine every_iff.mpr ⟨⟨⟨fun x hx => enclosing_of_classWithMembers? h hx, fun k hk => ?_⟩,
    fun s hs => by simp at hs⟩, ?_⟩
  · rcases nested_of_classWithMembers? h hk with hentry | ⟨i, hi⟩
    · exact hentry
    · exact absurd hi (by simp)
  · exact forall_parts_of_classWithMembers? (fun i k hk => absurd hk (by simp))
      (fun i k hk => inner_of_inType (every_flatClass? hk)) h

/-! ### Every tree -/

theorem truncated_of_classElement? (h : t.classElement? depth id = some c) :
    Truncated depth (.classLike c) := by
  cases depth with
  | flat => exact Truncated.of_every (inner_of_inType (every_flatClass? h))
  | bounded => exact Truncated.of_every (every_boundedClass? h)
  | full =>
    have hbounded : ∀ i k, t.boundedClass? i = some k → (Node.element (.classLike k)).Every Inner :=
      fun _ _ hk => every_boundedClass? hk
    have hparts := forall_parts_of_classWithMembers? hbounded hbounded h
    refine Truncated.of_parts (fun x hx => enclosing_of_classWithMembers? h hx) hparts ?_
    intro k hk hentry
    obtain ⟨i, hi⟩ := (nested_of_classWithMembers? h hk).resolve_left hentry
    exact ⟨rfl, (hbounded i k hi).self.1.2⟩

theorem truncated_of_element? {e : Element} (h : t.element? depth id = some e) :
    Truncated depth e := by
  rcases element?_cases h with ⟨c, hc, rfl⟩ | ⟨c, hc, rfl⟩ | ⟨p, hp, rfl⟩ | ⟨p, hp, rfl⟩
  · exact truncated_of_classElement? hc
  · exact Truncated.of_every (t.every_callable? hc)
  · exact Truncated.of_every (t.every_property? hp)
  · exact Truncated.of_every (t.every_typeParameter? hp)

/-- **Every converted tree is cut.** Every declaration of a table, reachable or not, has an
element at every depth, and the whole tree of that element is cut at the five places. -/
theorem conversion_truncated {id : DeclId} (h : id < t.size) (depth : Depth) :
    ∃ e, t.element? depth id = some e ∧ Truncated depth e := by
  obtain ⟨d, hd⟩ := decl?_of_lt h
  obtain ⟨e, he, -⟩ := exists_element? depth hd
  exact ⟨e, he, truncated_of_element? he⟩

/-- The table `tree` with a function in the class that returns the type parameter of the class. -/
def seeded : SymbolTable :=
  tree.run [.declare (.inside 14) (Draft.function "seed" [] (some (.decl 15)))]

/-- The class `graph.Tree` in full, whose supertype is its own nested interface, is cut at each of
the places: at that interface; around its first function; at the bound of its type parameter, which
is the class again; around the type of a parameter, which is the interface; and at the type
parameter where it is returned. -/
theorem conversion_truncated_seeded : 14 < seeded.size ∧
    ∃ e, seeded.element? .full 14 = some e ∧
      (∃ k, (Node.element e).follow? [.enclosed 0] = some (.element (.classLike k)) ∧
        k.kind = .interfaceType ∧ ∀ n, .classLike n ∈ k.header.enclosed → n.kind = .enumEntry) ∧
      (∃ m x, (Node.element e).follow? [.enclosed 1] = some (.element m) ∧
        m.enclosing? = some x ∧ x.isStub) ∧
      (∃ s x c, (Node.element e).follow? [.typeParameters 0, .bounds 0] = some (.type s) ∧
        s.declaration = some x ∧ x.isStub ∧
        (Node.type s).follow? [.element] = some (.element (.classLike c)) ∧
        c.header.qualifiedName = some "graph.Tree" ∧ c.Bare) ∧
      (∃ s o, (Node.element e).follow? [.enclosed 1, .parameters 0, .type] = some (.type s) ∧
        s.enclosing? = some o ∧ o.enclosing? = none) ∧
      ∃ s, (Node.element e).follow? [.enclosed 2, .returnType] = some (.type s) ∧
        s.isVariable ∧ s.upperBounds = [] := by
  have hsize : 14 < seeded.size := by decide +kernel
  obtain ⟨e, he, htruncated⟩ := conversion_truncated hsize .full
  have hnested : ∃ k, ((seeded.element? .full 14).bind fun e =>
      (Node.element e).follow? [.enclosed 0]) = some (.element (.classLike k)) ∧
      k.kind = .interfaceType := ⟨_, rfl, rfl⟩
  have hfunction : ∃ m x, ((seeded.element? .full 14).bind fun e =>
      (Node.element e).follow? [.enclosed 1]) = some (.element m) ∧
      m.enclosing? = some x := ⟨_, _, rfl, rfl⟩
  have hbound : ∃ s x c, ((seeded.element? .full 14).bind fun e =>
      (Node.element e).follow? [.typeParameters 0, .bounds 0]) = some (.type s) ∧
      s.declaration = some x ∧
      (Node.type s).follow? [.element] = some (.element (.classLike c)) ∧
      c.header.qualifiedName = some "graph.Tree" := ⟨_, _, _, rfl, rfl, rfl, rfl⟩
  have hparameter : ∃ s o, ((seeded.element? .full 14).bind fun e =>
      (Node.element e).follow? [.enclosed 1, .parameters 0, .type]) = some (.type s) ∧
      s.enclosing? = some o := ⟨_, _, rfl, rfl⟩
  have hreturned : ∃ s, ((seeded.element? .full 14).bind fun e =>
      (Node.element e).follow? [.enclosed 2, .returnType]) = some (.type s) ∧
      s.isVariable := ⟨_, rfl, rfl⟩
  simp only [he, Option.bind_some] at hnested hfunction hbound hparameter hreturned
  obtain ⟨k, hk, hkind⟩ := hnested
  obtain ⟨m, x, hm, hx⟩ := hfunction
  obtain ⟨s, y, c, hs, hy, hc, hname⟩ := hbound
  obtain ⟨p, o, hp, ho⟩ := hparameter
  obtain ⟨v, hv, hvariable⟩ := hreturned
  refine ⟨hsize, e, he, ⟨k, hk, hkind, ?_⟩, ⟨m, x, hm, hx, ?_⟩,
    ⟨s, y, c, hs, hy, ?_, hc, hname, ?_⟩, ⟨p, o, hp, ho, ?_⟩, v, hv, hvariable, ?_⟩
  · have hmem : .classLike k ∈ e.enclosed := by
      simp only [Node.follow?, Node.hop?, Hop.fromElement, Option.bind_fun_some,
        Option.map_eq_some_iff, Node.element.injEq, exists_eq_right] at hk
      exact List.mem_of_getElem? hk
    exact (htruncated.nested k hmem (by simp [hkind])).2
  · exact htruncated.enclosing m x (holds_of_follow? hm) hx
  · exact htruncated.declaration s y (holds_of_follow? hs) hy
  · exact htruncated.behind s c (holds_of_follow? hs) (holds_of_follow? hc)
  · exact htruncated.enclosingType p o (holds_of_follow? hp) ho
  · exact htruncated.unbounded v (holds_of_follow? hv) (Or.inl hvariable)

end SymbolTable
end SymbolGraph
