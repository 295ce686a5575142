/-
# Where the parts of a converted tree come from

A converted tree is put together from a few things only. Outside annotations and
constants there are elements of declarations with the accessors, parameters and
fields that are made along with them, types of references, the types that nested
types are nested in, and stubs (`Converted`). Inside an annotation or a constant a
class is never converted: what stands there for it is its identity (`InRemark`).

What a part of one sort holds directly is of the same sort, or is an annotation or
a constant (`Converted.follows`, `InRemark.parts`). So the sort of a part is settled
by the way to it: a way that enters no annotation and no constant stays among what
is converted (`Converted.holdsOutside`), and one that enters them stays inside
(`Converted.holds_remark`).

Key definitions: `Node.IsRemark`, `Node.HoldsOutside`, `SymbolTable.InRemark`,
`SymbolTable.Converted`, `SymbolTable.Follows`.
Key theorems: `InRemark.parts`, `InRemark.identity_parts`, `Converted.follows`,
`Converted.holdsOutside`, `Converted.holds_remark`.
-/
import SymbolGraph.Proofs.Truncation

namespace SymbolGraph

open Node (ofElements ofTypes ofMarks ofValues)

namespace Node

/-- The part is an annotation or a constant. -/
def IsRemark : Node → Prop
  | .mark _ | .value _ => True
  | .element _ | .type _ => False

/-- A part holds another without an annotation or a constant on the way. -/
def HoldsOutside : Node → Node → Prop :=
  Relation.ReflTransGen fun n m => m ∈ n.parts ∧ ¬ m.IsRemark

end Node

namespace SymbolTable

variable {t : SymbolTable}

/-! ### Inside annotations and constants -/

/-- An annotation, a constant, or what stands in one. -/
inductive InRemark (t : SymbolTable) : Node → Prop
  | usage (depth : Depth) (u : Usage) : InRemark t (.mark (t.convertUsage depth u))
  | usageHeader (shortName : String) (r : TypeRef) :
    InRemark t (.mark (t.usageHeader shortName r))
  | constant (depth : Depth) (c : Constant) : InRemark t (.value (t.convertConstant depth c))
  | headerType (id : DeclId) : InRemark t (.type (t.headerType id))
  | unknown : InRemark t (.type .unknown)
  | identity {id : DeclId} {d : Declaration} {c : ClassShape} (hd : t.decl? id = some d)
      (hc : d.asClass = some c) : InRemark t (.element (.classLike (t.identityClass d c.kind)))
  | stub (s : Stub) : InRemark t (.element (.stub s))

theorem inRemark_annotationType (r : TypeRef) : t.InRemark (.type (t.annotationType r)) := by
  unfold annotationType
  split
  · exact .headerType _
  · exact .unknown

theorem convertConstants_eq_map (depth : Depth) (cs : List Constant) :
    t.convertConstants depth cs = cs.map (t.convertConstant depth) := by
  induction cs with
  | nil => rfl
  | cons c cs ih => rw [convertConstants, ih, List.map_cons]

theorem convertArguments_eq_map (depth : Depth) (arguments : List (String × Constant)) :
    t.convertArguments depth arguments =
      arguments.map fun argument => (argument.1, t.convertConstant depth argument.2) := by
  induction arguments with
  | nil => rfl
  | cons argument arguments ih =>
    obtain ⟨name, c⟩ := argument
    rw [convertArguments, ih, List.map_cons]

/-! What stands directly in an annotation or a constant, case by case. -/

theorem inRemark_usage_parts (depth : Depth) (u : Usage) :
    ∀ m ∈ (t.convertUsage depth u).parts, t.InRemark m := by
  obtain ⟨shortName, type, arguments⟩ := u
  rw [convertUsage, convertArguments_eq_map]
  have hvalues : ∀ a ∈ Keyed.ofList
      (arguments.map fun argument => (argument.1, t.convertConstant depth argument.2)),
      t.InRemark (.value a.2) := by
    refine Keyed.forall_ofList (P := fun v => t.InRemark (.value v)) ?_
    exact List.forall_mem_map.mpr fun argument _ => .constant depth argument.2
  simp only [ofValues, Annotation.parts, List.forall_mem_cons, List.forall_mem_map]
  exact ⟨inRemark_annotationType type, hvalues⟩

theorem inRemark_constant_parts (depth : Depth) : ∀ c : Constant,
    ∀ m ∈ (t.convertConstant depth c).parts, t.InRemark m
  | .string _ | .literal _ | .null => fun m hm => by simp [convertConstant, Value.parts] at hm
  | .classLiteral r => fun m hm => by
    rw [convertConstant, classValue] at hm
    split at hm <;> exact absurd hm List.not_mem_nil
  | .enumEntry entry => by
    rw [convertConstant, enumValue]
    split
    · exact fun m hm => absurd hm List.not_mem_nil
    · simp only [Value.parts, List.forall_mem_cons]
      refine ⟨?_, .stub _, fun m hm => absurd hm List.not_mem_nil⟩
      split
      · exact .headerType _
      · exact .unknown
  | .array values => by
    rw [convertConstant]
    split
    · simp only [Value.parts, ofValues, convertConstants_eq_map, List.forall_mem_map]
      exact fun c _ => .constant depth.descend c
    · exact fun m hm => absurd hm List.not_mem_nil
  | .nested u => by
    rw [convertConstant]
    split
    · exact List.forall_mem_singleton.mpr (.usageHeader _ _)
    · exact List.forall_mem_singleton.mpr (.usage _ _)

theorem inRemark_headerType_parts (id : DeclId) :
    ∀ m ∈ (t.headerType id).parts, t.InRemark m ∧ ¬ m.IsRemark := by
  unfold headerType
  split
  · exact fun m hm => absurd hm List.not_mem_nil
  · rename_i d hd
    split
    · exact fun m hm => absurd hm List.not_mem_nil
    · rename_i c hc
      intro m hm
      simp only [Ty.parts, Ty.declared, Ty.rendered, Ty.bare, TyForm.parts, ofTypes, ofElements,
        ofMarks, List.append_nil, List.map_nil, List.nil_append, Option.toList_some,
        Option.toList_none, List.map_cons, List.mem_append, List.mem_singleton] at hm
      rcases hm with rfl | rfl
      · exact ⟨.stub _, not_false⟩
      · exact ⟨.identity hd hc, not_false⟩

/-- In an identity there are no annotations and no constants: it has nothing inside it but the
stub of what is around it. -/
theorem InRemark.identity_parts {n : Node} (h : t.InRemark n) (hn : ¬ n.IsRemark) :
    ∀ m ∈ n.parts, t.InRemark m ∧ ¬ m.IsRemark := by
  cases h with
  | usage | usageHeader | constant => exact absurd trivial hn
  | headerType id => exact inRemark_headerType_parts id
  | unknown => exact fun m hm => absurd hm List.not_mem_nil
  | @identity id d c hd hc =>
    intro m hm
    have hm : m ∈ (t.identityClass d c.kind).header.parts := by
      simpa [Node.parts, Element.parts, identityClass, ClassElement.named, ofTypes, ofElements]
        using hm
    rcases Header.mem_parts.mp hm with ⟨e, he, rfl⟩ | ⟨e, he, rfl⟩ | ⟨a, ha, rfl⟩
    · obtain ⟨s, rfl⟩ := t.enclosingStub?_eq_stub he
      exact ⟨.stub s, not_false⟩
    · exact absurd he List.not_mem_nil
    · exact absurd ha List.not_mem_nil
  | stub s => exact fun m hm => absurd hm List.not_mem_nil

/-- **What stands in an annotation or a constant stays inside**: a class among it is an
identity. -/
theorem InRemark.parts {n : Node} (h : t.InRemark n) : ∀ m ∈ n.parts, t.InRemark m := by
  by_cases hn : n.IsRemark
  · cases h with
    | usage depth u => exact inRemark_usage_parts depth u
    | usageHeader shortName r =>
      exact List.forall_mem_singleton.mpr (inRemark_annotationType r)
    | constant depth c => exact inRemark_constant_parts depth c
    | headerType | unknown | identity | stub => exact hn.elim
  · exact fun m hm => (h.identity_parts hn m hm).1

theorem InRemark.holds {n m : Node} (h : t.InRemark n) (hm : n.Holds m) : t.InRemark m := by
  induction hm with
  | refl => exact h
  | tail _ hstep ih => exact ih.parts _ hstep

/-! ### Outside annotations and constants -/

/-- A converted declaration, or what is put together along with one. -/
inductive Converted (t : SymbolTable) : Node → Prop
  | element {depth : Depth} {id : DeclId} {e : Element} (h : t.element? depth id = some e) :
    Converted t (.element e)
  | parameter (depth : Depth) (owner : Declaration) (p : ValueParameter) :
    Converted t (.element (.variable (t.parameter depth owner p)))
  | getter (depth : Depth) (d : Declaration) (r : TypeRef) (a : Accessor) :
    Converted t (.element (.callable (t.getter depth d (t.signatureType r) a)))
  | setter (depth : Depth) (d : Declaration) (r : TypeRef) (a : Accessor) :
    Converted t (.element (.callable (t.setter depth d (t.signatureType r) a)))
  | setterParameter (d : Declaration) (r : TypeRef) :
    Converted t (.element (.variable (setterParameter d (t.signatureType r))))
  | backingField (depth : Depth) (d : Declaration) (p : PropertyShape) :
    Converted t (.element (.variable (t.backingField depth d p (t.signatureType p.type))))
  | stub (s : Stub) : Converted t (.element (.stub s))
  | type (depth : Depth) (r : TypeRef) : Converted t (.type (t.typeOf depth r))
  | argument (a : TypeArgument) : Converted t (.type (t.signatureArgument a))
  | enclosing {d : Declaration} {o : Ty} (h : t.enclosingType? d = some o) : Converted t (.type o)
  | unit : Converted t (.type (.noType .unit))
  | unknown : Converted t (.type .unknown)

theorem converted_signatureType (r : TypeRef) : t.Converted (.type (t.signatureType r)) :=
  .type .flat r

/-- What may stand directly in what is converted: more of it, and annotations and constants. -/
def Follows (t : SymbolTable) (m : Node) : Prop :=
  t.Converted m ∨ m.IsRemark ∧ t.InRemark m

theorem Converted.toFollows {m : Node} (h : t.Converted m) : t.Follows m := Or.inl h

theorem follows_usage (depth : Depth) (u : Usage) : t.Follows (.mark (t.convertUsage depth u)) :=
  Or.inr ⟨trivial, .usage depth u⟩

theorem follows_constant (depth : Depth) (c : Constant) :
    t.Follows (.value (t.convertConstant depth c)) :=
  Or.inr ⟨trivial, .constant depth c⟩

/-! ### What stands in a header -/

/-- What is around the element is a stub, what is inside it is converted, and its annotations
are. -/
structure HeaderConverted (t : SymbolTable) (h : Header) : Prop where
  enclosing : ∀ e, h.enclosing = some e → ∃ s, e = .stub s
  enclosed : ∀ e ∈ h.enclosed, t.Converted (.element e)
  annotations : ∀ a ∈ h.annotations, ∃ depth u, a = t.convertUsage depth u

theorem HeaderConverted.follows {h : Header} (hh : t.HeaderConverted h) :
    ∀ m ∈ h.parts, t.Follows m := by
  intro m hm
  rcases Header.mem_parts.mp hm with ⟨e, he, rfl⟩ | ⟨e, he, rfl⟩ | ⟨a, ha, rfl⟩
  · obtain ⟨s, rfl⟩ := hh.enclosing e he
    exact (Converted.stub s).toFollows
  · exact (hh.enclosed e he).toFollows
  · obtain ⟨depth, u, rfl⟩ := hh.annotations a ha
    exact follows_usage depth u

theorem exists_usage_of_mem {depth : Depth} {us : List Usage} {a : Annotation}
    (ha : a ∈ us.map (t.convertUsage depth)) : ∃ depth u, a = t.convertUsage depth u := by
  obtain ⟨u, -, rfl⟩ := List.mem_map.mp ha
  exact ⟨depth, u, rfl⟩

theorem headerConverted_header (depth : Depth) (d : Declaration) (kind : ElementKind)
    {enclosed : List Element} (h : ∀ e ∈ enclosed, t.Converted (.element e)) (valid : Bool) :
    t.HeaderConverted { t.header depth d kind with enclosed, valid } :=
  ⟨fun _ he => t.enclosingStub?_eq_stub he, h, fun _ ha => exists_usage_of_mem ha⟩

theorem headerConverted_leaf (depth : Depth) (d : Declaration) (kind : ElementKind) (valid : Bool) :
    t.HeaderConverted { t.header depth d kind with valid } :=
  headerConverted_header depth d kind (fun _ he => absurd he List.not_mem_nil) valid

theorem headerConverted_accessorHeader (depth : Depth) (d : Declaration) (name : String)
    (a : Accessor) (valid : Bool) :
    t.HeaderConverted { t.accessorHeader depth d name a with valid } :=
  ⟨fun _ he => ⟨_, (Option.some.inj he).symm⟩, fun _ he => absurd he List.not_mem_nil,
    fun _ ha => exists_usage_of_mem ha⟩

/-! ### What stands in a type -/

/-- The marks of a reference add a stub and annotations. -/
theorem follows_marked {depth : Depth} {r : TypeRef} {d : Declaration} {type : Ty}
    (h : ∀ m ∈ type.parts, t.Follows m) : ∀ m ∈ (t.marked depth r d type).parts, t.Follows m := by
  unfold marked
  split
  · exact h
  · simp only [Ty.parts, List.forall_mem_append] at h ⊢
    obtain ⟨⟨⟨htypes, -⟩, -⟩, hform⟩ := h
    refine ⟨⟨⟨htypes, ?_⟩, ?_⟩, hform⟩
    · exact List.forall_mem_singleton.mpr (Converted.stub d.stub).toFollows
    · simp only [ofMarks, List.forall_mem_map]
      exact fun u _ => follows_usage depth u

/-- Conversions of classes and type parameters that answer with what is converted. -/
structure AnswersConverted (t : SymbolTable) (class? : DeclId → Option ClassElement)
    (parameter? : DeclId → Option TypeParameter) : Prop where
  classes : ∀ id c, class? id = some c → t.Converted (.element (.classLike c))
  parameters : ∀ id p, parameter? id = some p →
    t.Converted (.element (.typeParameter p)) ∧ ∀ s ∈ p.bounds, t.Converted (.type s)

theorem parts_array (component : Ty) :
    (Ty.array component).parts = [.type component, .type component] := rfl

theorem parts_typeVariable (p : TypeParameter) :
    (Ty.typeVariable p).parts = ofTypes p.bounds ++ [.element (.typeParameter p)] := by
  simp [Ty.parts, Ty.typeVariable, Ty.rendered, Ty.bare, TyForm.parts, ofTypes, ofElements, ofMarks]

theorem parts_nestedType (d : Declaration) (c : ClassElement) (arguments : List Ty) :
    (t.nestedType d c arguments).parts =
      ofTypes arguments ++ .element (.classLike c) :: ofTypes (t.enclosingType? d).toList := by
  simp [Ty.parts, nestedType, Ty.declared, Ty.rendered, Ty.bare, TyForm.parts, ofTypes, ofElements,
    ofMarks]

variable {class? : DeclId → Option ClassElement} {parameter? : DeclId → Option TypeParameter}
  {arguments : List Ty}

theorem follows_typeOfTarget (h : t.AnswersConverted class? parameter?)
    (harguments : ∀ s ∈ arguments, t.Converted (.type s)) (id : DeclId) (d : Declaration) :
    ∀ m ∈ (t.typeOfTarget class? parameter? arguments id d).parts, t.Follows m := by
  have hunknown : ∀ m ∈ Ty.unknown.parts, t.Follows m := fun m hm => absurd hm List.not_mem_nil
  unfold typeOfTarget
  cases d.typeKind with
  | primitive p => exact fun m hm => absurd hm List.not_mem_nil
  | unit | nothing => exact fun m hm => absurd hm List.not_mem_nil
  | wildcard | other => exact hunknown
  | array =>
    have hcomponent : t.Converted (.type (arguments.head?.getD .unknown)) := by
      cases arguments with
      | nil => exact .unknown
      | cons s _ => exact harguments s List.mem_cons_self
    rw [parts_array]
    intro m hm
    obtain rfl : m = .type (arguments.head?.getD .unknown) := by simpa using hm
    exact hcomponent.toFollows
  | «variable» =>
    cases hp : parameter? id with
    | none => exact hunknown
    | some p =>
      obtain ⟨hparameter, hbounds⟩ := h.parameters id p hp
      rw [parts_typeVariable, List.forall_mem_append, List.forall_mem_singleton]
      exact ⟨List.forall_mem_map.mpr fun s hs => (hbounds s hs).toFollows, hparameter.toFollows⟩
  | declared =>
    cases hc : class? id with
    | none => exact hunknown
    | some c =>
      rw [parts_nestedType, List.forall_mem_append, List.forall_mem_cons]
      refine ⟨List.forall_mem_map.mpr fun s hs => (harguments s hs).toFollows,
        (h.classes id c hc).toFollows, List.forall_mem_map.mpr fun o ho => ?_⟩
      exact (Converted.enclosing (Option.mem_toList.mp ho)).toFollows

theorem follows_assembleType (h : t.AnswersConverted class? parameter?)
    (harguments : ∀ s ∈ arguments, t.Converted (.type s)) (depth : Depth) (r : TypeRef) :
    ∀ m ∈ (t.assembleType depth class? parameter? arguments r).parts, t.Follows m := by
  unfold assembleType
  split
  · exact fun m hm => absurd hm List.not_mem_nil
  · split
    · exact fun m hm => absurd hm List.not_mem_nil
    · exact follows_marked (follows_typeOfTarget h harguments _ _)

theorem converted_of_classElement? (depth : Depth) {id : DeclId} {c : ClassElement}
    (h : t.classElement? depth id = some c) : t.Converted (.element (.classLike c)) :=
  .element (element?_of_classElement? h)

/-- Bounds are types in a signature. -/
theorem converted_bounds {depth : Depth} {id : DeclId} {p : TypeParameter}
    (h : t.typeParameter? depth id = some p) : ∀ s ∈ p.bounds, t.Converted (.type s) := by
  obtain ⟨d, k, -, -, rfl⟩ := conversion_eq_some_iff.mp h
  simp only [boundedTypeParameter]
  split
  · exact List.forall_mem_map.mpr fun r _ => converted_signatureType r
  · exact fun s hs => absurd hs List.not_mem_nil

theorem answersConverted_typeParameter? (depth : Depth) {class? : DeclId → Option ClassElement}
    (h : ∀ id c, class? id = some c → t.Converted (.element (.classLike c))) :
    t.AnswersConverted class? (t.typeParameter? depth) where
  classes := h
  parameters _ _ hp := ⟨.element (element?_of_typeParameter? hp), converted_bounds hp⟩

theorem converted_signatureArguments (as : List TypeArgument) :
    ∀ s ∈ t.signatureArguments as, t.Converted (.type s) := by
  rw [signatureArguments_eq_map]
  exact List.forall_mem_map.mpr fun a _ => .argument a

theorem follows_typeOf (depth : Depth) (r : TypeRef) :
    ∀ m ∈ (t.typeOf depth r).parts, t.Follows m := by
  have hsignature : ∀ m ∈ (t.signatureType r).parts, t.Follows m := by
    obtain ⟨target, arguments, nullable, annotations⟩ := r
    rw [signatureType]
    exact follows_assembleType (answersConverted_typeParameter? .flat
      fun id c hc => converted_of_classElement? .flat hc)
      (converted_signatureArguments arguments) .flat _
  cases depth with
  | full =>
    exact follows_assembleType (answersConverted_typeParameter? .bounded
      fun id c hc => converted_of_classElement? .bounded hc)
      (converted_signatureArguments r.arguments) .bounded r
  | bounded | flat => exact hsignature

theorem follows_signatureArgument (a : TypeArgument) :
    ∀ m ∈ (t.signatureArgument a).parts, t.Follows m := by
  obtain ⟨projection, type⟩ := a
  cases type with
  | none =>
    rw [signatureArgument]
    exact fun m hm => absurd hm List.not_mem_nil
  | some r =>
    rw [signatureArgument]
    have hbound : t.Follows (.type (t.signatureType r)) := (converted_signatureType r).toFollows
    cases projection with
    | invariant => exact follows_typeOf .flat r
    | covariant | contravariant => exact List.forall_mem_singleton.mpr hbound
    | star => exact fun m hm => absurd hm List.not_mem_nil

theorem follows_enclosingType? {d : Declaration} {o : Ty} (h : t.enclosingType? d = some o) :
    ∀ m ∈ o.parts, t.Follows m := by
  obtain ⟨owner, -, h⟩ := Option.bind_eq_some_iff.mp h
  obtain ⟨c, hc, h⟩ := Option.bind_eq_some_iff.mp h
  obtain ⟨s, -, h⟩ := Option.bind_eq_some_iff.mp h
  rw [← Option.some.inj h]
  have hclass : t.Converted (.element (.classLike c)) := converted_of_classElement? .flat hc
  have hparts : { Ty.declared c [] with declaration := some (.stub s) }.parts =
      [.element (.stub s), .element (.classLike c)] := rfl
  rw [hparts, List.forall_mem_cons, List.forall_mem_singleton]
  exact ⟨(Converted.stub s).toFollows, hclass.toFollows⟩

/-! ### What stands in an element -/

theorem follows_receiver (receiver : Option TypeRef) :
    ∀ s, receiver.map t.signatureType = some s → t.Follows (.type s) := by
  intro s hs
  obtain ⟨r, -, rfl⟩ := Option.map_eq_some_iff.mp hs
  exact (converted_signatureType r).toFollows

theorem follows_typeParameters (depth : Depth) (ids : List DeclId) :
    ∀ p ∈ ids.filterMap (t.typeParameter? depth), t.Follows (.element (.typeParameter p)) := by
  intro p hp
  obtain ⟨i, -, hi⟩ := List.mem_filterMap.mp hp
  exact (Converted.element (element?_of_typeParameter? hi)).toFollows

theorem follows_constantValue {depth : Depth} {constant : Option Constant} :
    ∀ w, constant.map (t.convertConstant depth) = some w → t.Follows (.value w) := by
  intro w hw
  obtain ⟨c, -, rfl⟩ := Option.map_eq_some_iff.mp hw
  exact follows_constant depth c

theorem follows_typeParameter {depth : Depth} {id : DeclId} {p : TypeParameter}
    (h : t.typeParameter? depth id = some p) :
    ∀ m ∈ (Element.typeParameter p).parts, t.Follows m := by
  have hbounds := converted_bounds h
  obtain ⟨d, k, -, -, rfl⟩ := conversion_eq_some_iff.mp h
  simp only [Element.parts, ofTypes, List.forall_mem_append, List.forall_mem_map]
  exact ⟨(headerConverted_leaf depth d _ _).follows, fun s hs => (hbounds s hs).toFollows⟩

theorem follows_callable {depth : Depth} {id : DeclId} {c : Callable}
    (h : t.callable? depth id = some c) : ∀ m ∈ (Element.callable c).parts, t.Follows m := by
  obtain ⟨d, k, -, -, rfl⟩ := conversion_eq_some_iff.mp h
  have hreturn : t.Converted (.type (t.returnType d k)) := by
    unfold returnType
    split
    · exact converted_signatureType _
    · exact .unknown
  simp only [Element.parts, ofTypes, ofElements, List.forall_mem_append, List.forall_mem_map,
    List.forall_mem_cons, Option.mem_toList]
  exact ⟨⟨(headerConverted_leaf depth d _ _).follows, hreturn.toFollows,
    fun r _ => (converted_signatureType r).toFollows, follows_receiver k.receiver⟩,
    fun p _ => (Converted.parameter depth.descend d p).toFollows,
    follows_typeParameters depth.descend d.typeParameters⟩

theorem follows_property {depth : Depth} {id : DeclId} {p : Property}
    (h : t.property? depth id = some p) : ∀ m ∈ (Element.property p).parts, t.Follows m := by
  obtain ⟨d, k, -, -, rfl⟩ := conversion_eq_some_iff.mp h
  simp only [Element.parts, ofTypes, ofElements, ofValues, List.forall_mem_append,
    List.forall_mem_map, List.forall_mem_cons, Option.mem_toList]
  refine ⟨⟨⟨(headerConverted_leaf depth d _ _).follows, (converted_signatureType k.type).toFollows,
    follows_receiver k.receiver⟩, follows_constantValue⟩, ⟨?_, ?_⟩, ?_⟩
  · intro c hc
    obtain ⟨a, -, rfl⟩ := Option.map_eq_some_iff.mp hc
    exact (Converted.getter depth d k.type a).toFollows
  · intro c hc
    obtain ⟨a, -, rfl⟩ := Option.map_eq_some_iff.mp hc
    exact (Converted.setter depth d k.type a).toFollows
  · intro v hv
    split at hv
    · rw [← Option.some.inj hv]
      exact (Converted.backingField depth d k).toFollows
    · exact absurd hv (by simp)

/-! An accessor, a parameter and a field hold what their declaration gives them. -/

theorem follows_variable {v : Variable} (header : t.HeaderConverted v.header)
    (type : t.Follows (.type v.type))
    (constantValue : ∀ w, v.constantValue = some w → t.Follows (.value w)) :
    ∀ m ∈ (Element.variable v).parts, t.Follows m := by
  simp only [Element.parts, ofTypes, ofValues, List.forall_mem_append, List.forall_mem_map,
    List.forall_mem_singleton, Option.mem_toList]
  exact ⟨⟨header.follows, type⟩, constantValue⟩

theorem follows_parameter (depth : Depth) (owner : Declaration) (p : ValueParameter) :
    ∀ m ∈ (Element.variable (t.parameter depth owner p)).parts, t.Follows m :=
  follows_variable
    ⟨fun _ he => ⟨_, (Option.some.inj he).symm⟩, fun _ he => absurd he List.not_mem_nil,
      fun _ ha => exists_usage_of_mem ha⟩
    (converted_signatureType p.type).toFollows fun w hw => by simp [parameter] at hw

theorem follows_setterParameter (d : Declaration) (r : TypeRef) :
    ∀ m ∈ (Element.variable (setterParameter d (t.signatureType r))).parts, t.Follows m :=
  follows_variable
    ⟨fun _ he => ⟨_, (Option.some.inj he).symm⟩, fun _ he => absurd he List.not_mem_nil,
      fun _ ha => absurd ha List.not_mem_nil⟩
    (converted_signatureType r).toFollows fun w hw => by simp [setterParameter] at hw

theorem follows_backingField (depth : Depth) (d : Declaration) (p : PropertyShape) :
    ∀ m ∈ (Element.variable (t.backingField depth d p (t.signatureType p.type))).parts,
      t.Follows m :=
  follows_variable (headerConverted_leaf depth d .field _) (converted_signatureType p.type).toFollows
    follows_constantValue

theorem follows_accessor (d : Declaration) {header : Header} {parameters : List Variable}
    {returnType : Ty}
    (hheader : t.HeaderConverted (accessor d header parameters returnType).header)
    (hparameters : ∀ v ∈ parameters, t.Follows (.element (.variable v)))
    (hreturn : t.Follows (.type returnType)) :
    ∀ m ∈ (Element.callable (accessor d header parameters returnType)).parts, t.Follows m := by
  intro m hm
  have hm : m ∈ (accessor d header parameters returnType).header.parts ∨ m = .type returnType ∨
      ∃ v ∈ parameters, .element (.variable v) = m := by
    simpa [Element.parts, accessor, ofTypes, ofElements, or_assoc] using hm
  rcases hm with hm | rfl | ⟨v, hv, rfl⟩
  · exact hheader.follows m hm
  · exact hreturn
  · exact hparameters v hv

theorem follows_flatClass? {id : DeclId} {c : ClassElement} (h : t.flatClass? id = some c) :
    ∀ m ∈ (Element.classLike c).parts, t.Follows m := by
  obtain ⟨d, k, -, -, rfl⟩ := conversion_eq_some_iff.mp h
  have hheader : t.HeaderConverted (t.header .flat d k.kind.elementKind) :=
    headerConverted_leaf .flat d _ true
  intro m hm
  exact hheader.follows m (by simpa [Element.parts, memberlessClass, ofTypes, ofElements] using hm)

theorem follows_classWithMembers? {depth : Depth} {nested? companion? : DeclId → Option ClassElement}
    {id : DeclId} {c : ClassElement}
    (hnested : ∀ i k, nested? i = some k → ∃ depth, t.classElement? depth i = some k)
    (hcompanion : ∀ i k, companion? i = some k → ∃ depth, t.classElement? depth i = some k)
    (h : t.classWithMembers? depth nested? companion? id = some c) :
    ∀ m ∈ (Element.classLike c).parts, t.Follows m := by
  obtain ⟨d, k, -, -, rfl⟩ := conversion_eq_some_iff.mp h
  obtain ⟨hsuper, hinterfaces⟩ := t.exists_of_splitSupertypes k.superTypes
  have hmembers : ∀ e ∈ d.members.filterMap (t.member? depth.descend nested?),
      t.Converted (.element e) := by
    intro e he
    obtain ⟨i, -, hi⟩ := List.mem_filterMap.mp he
    obtain ⟨depth', he⟩ := exists_element?_of_member? hi hnested
    exact .element he
  simp only [Element.parts, ofTypes, ofElements, List.forall_mem_append, List.forall_mem_map,
    Option.mem_toList]
  refine ⟨⟨(headerConverted_header depth d _ hmembers _).follows, fun s hs => ?_, fun s hs => ?_⟩,
    follows_typeParameters depth.descend d.typeParameters, fun x hx => ?_⟩
  · obtain ⟨r, rfl⟩ := hsuper s hs
    exact (converted_signatureType r).toFollows
  · obtain ⟨r, rfl⟩ := hinterfaces s hs
    exact (converted_signatureType r).toFollows
  · obtain ⟨i, -, hi⟩ := Option.bind_eq_some_iff.mp hx
    obtain ⟨depth', hi⟩ := hcompanion i x hi
    exact (converted_of_classElement? depth' hi).toFollows

theorem follows_classElement? {depth : Depth} {id : DeclId} {c : ClassElement}
    (h : t.classElement? depth id = some c) : ∀ m ∈ (Element.classLike c).parts, t.Follows m := by
  cases depth with
  | full =>
    exact follows_classWithMembers? (fun i k hk => ⟨.bounded, hk⟩) (fun i k hk => ⟨.bounded, hk⟩) h
  | bounded =>
    exact follows_classWithMembers? (fun i k hk => absurd hk (by simp)) (fun i k hk => ⟨.flat, hk⟩) h
  | flat => exact follows_flatClass? h

theorem follows_element? {depth : Depth} {id : DeclId} {e : Element}
    (h : t.element? depth id = some e) : ∀ m ∈ e.parts, t.Follows m := by
  rcases element?_cases h with ⟨c, hc, rfl⟩ | ⟨c, hc, rfl⟩ | ⟨p, hp, rfl⟩ | ⟨p, hp, rfl⟩
  · exact follows_classElement? hc
  · exact follows_callable hc
  · exact follows_property hp
  · exact follows_typeParameter hp

/-! ### Every part -/

/-- **What stands directly in what is converted is converted too**, or is an annotation or a
constant. -/
theorem Converted.follows {n : Node} (h : t.Converted n) : ∀ m ∈ n.parts, t.Follows m := by
  cases h with
  | element h => exact follows_element? h
  | parameter depth owner p => exact follows_parameter depth owner p
  | getter depth d r a =>
    exact follows_accessor d (headerConverted_accessorHeader depth d _ a _)
      (fun v hv => absurd hv List.not_mem_nil) (converted_signatureType r).toFollows
  | setter depth d r a =>
    refine follows_accessor d (headerConverted_accessorHeader depth d _ a _) ?_
      Converted.unit.toFollows
    exact List.forall_mem_singleton.mpr (Converted.setterParameter d r).toFollows
  | setterParameter d r => exact follows_setterParameter d r
  | backingField depth d p => exact follows_backingField depth d p
  | stub s => exact fun m hm => absurd hm List.not_mem_nil
  | type depth r => exact follows_typeOf depth r
  | argument a => exact follows_signatureArgument a
  | enclosing h => exact follows_enclosingType? h
  | unit => exact fun m hm => absurd hm List.not_mem_nil
  | unknown => exact fun m hm => absurd hm List.not_mem_nil

/-- What is converted is no annotation and no constant. -/
theorem Converted.not_isRemark {n : Node} (h : t.Converted n) : ¬ n.IsRemark := by
  cases h <;> exact id

/-- **A way that enters no annotation and no constant stays among what is converted.** -/
theorem Converted.holdsOutside {n m : Node} (h : t.Converted n) (hm : n.HoldsOutside m) :
    t.Converted m := by
  induction hm with
  | refl => exact h
  | tail _ hstep ih =>
    obtain ⟨hpart, hremark⟩ := hstep
    exact (ih.follows _ hpart).resolve_right fun hm => hremark hm.1

theorem Converted.holds {n m : Node} (h : t.Converted n) (hm : n.Holds m) :
    t.Converted m ∨ t.InRemark m := by
  induction hm with
  | refl => exact Or.inl h
  | tail _ hpart ih =>
    rcases ih with hc | hr
    · exact (hc.follows _ hpart).imp_right And.right
    · exact Or.inr (hr.parts _ hpart)

/-- **A way that enters an annotation or a constant stays inside.** -/
theorem Converted.holds_remark {n m k : Node} (h : t.Converted n) (hm : n.Holds m)
    (hremark : m.IsRemark) (hk : m.Holds k) : t.InRemark k :=
  ((h.holds hm).resolve_left fun hc => hc.not_isRemark hremark).holds hk

end SymbolTable
end SymbolGraph
