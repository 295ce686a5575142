/-
# A class and its own supertypes

A converted class reports the supertypes that it declares, and whether it can be stored
where one of them is expected is decided by names that are collected apart from them.
The two agree for every supertype that has a name to be collected under: a class with a
qualified name, be it a primitive, an array or the like, and a type parameter, which
admits everything. They part in two places (`isAssignableTo_ownSupertypes`). A name that
belongs to a function or a property is found, so the supertype is not dropped, but it has
no type, so it is reported as unknown. And a class without a qualified name, as every
class in a function is, leaves no name among those above; it goes by the text of its
type, and that is no name of the class below but by chance. Both happen to small
programs (`lost_supertypes`).

Key definitions: `ClassElement.supertypes`, `SymbolTable.AnswersTo`.
Key theorems: `SymbolTable.mem_splitSupertypes_iff`, `SymbolTable.erasedName_of_class`,
`SymbolTable.isAssignableTo_ownSupertypes`, `SymbolTable.lost_supertypes`.
-/
import SymbolGraph.Proofs.Assignability

namespace SymbolGraph

open Primitive (unwrap)

/-- The supertypes that a class reports: its superclass and its interfaces. -/
def ClassElement.supertypes (c : ClassElement) : List Ty := c.superclass.toList ++ c.interfaces

/-- Nothing can be stored where a type that was not found is expected. -/
theorem Ty.isAssignableTo_of_isUnknown {s o : Ty} (h : o.isUnknown = true) :
    s.isAssignableTo o = false := by
  rw [isAssignableTo, isAssignableFrom, h]
  simp

/-- A type parameter is no class. -/
theorem Draft.asClass_of_asTypeParameter {d : Draft} {p : TypeParameterShape}
    (h : d.asTypeParameter = some p) : d.asClass = none := by
  rw [asClass, asTypeParameter_eq_some_iff.mp h]

/-- The name of the class that alone is a type of a sort; many classes are declared types. -/
def TypeKind.uniqueName? : TypeKind → Option String
  | .primitive p => some p.name
  | .unit => some Builtin.unit
  | .nothing => some Builtin.nothing
  | .array => some Builtin.array
  | .declared | .variable | .wildcard | .other => none

theorem Declaration.eq_of_uniqueName? {name : Option String} {only : String}
    (h : (typeKindOfClass name).uniqueName? = some only) : name = some only := by
  cases name with
  | none => simp [typeKindOfClass, TypeKind.uniqueName?] at h
  | some n =>
    have hprimitive : ∀ p, Primitive.ofName? n = some p → p.name = n := by
      intro p hp
      simpa using List.find?_some hp
    unfold typeKindOfClass at h
    grind [TypeKind.uniqueName?]

namespace SymbolTable

variable {t : SymbolTable}

/-! ### What is reported -/

/-- The supertypes that point at something are reported, be it a type or not. -/
theorem mem_splitSupertypes_iff {s : Ty} : ∀ rs : List TypeRef,
    s ∈ (t.splitSupertypes rs).1.toList ++ (t.splitSupertypes rs).2 ↔
      ∃ r ∈ rs, (t.resolve? r).isSome ∧ t.signatureType r = s
  | [] => by simp [splitSupertypes]
  | r :: rs => by
    have ih := mem_splitSupertypes_iff (s := s) rs
    rw [List.exists_mem_cons_iff, splitSupertypes]
    cases hr : t.resolve? r with
    | none => simpa using ih
    | some i =>
      rw [if_neg (by simp)]
      by_cases hi : t.isInterface r
      · rw [if_pos hi]
        simp only [List.mem_append, List.mem_cons] at ih ⊢
        rw [or_left_comm, ih, eq_comm, and_iff_right Option.isSome_some]
      · -- behind the superclass everything counts as an interface
        rw [if_neg hi, and_iff_right Option.isSome_some, eq_comm]
        simp [and_assoc]

/-- A class that is not converted flat reports the supertypes it declares that point at a
declaration. -/
theorem exists_supertypes (h : Closed t) {id : DeclId} {d : Declaration} {c : ClassShape}
    (hd : t.decl? id = some d) (hc : d.asClass = some c) {depth : Depth} (hdepth : depth ≠ .flat) :
    ∃ e, t.element? depth id = some (.classLike e) ∧
      ∀ s, s ∈ e.supertypes ↔ ∃ r ∈ c.superTypes, (t.target? r).isSome ∧ t.signatureType r = s := by
  have hpoints : ∀ r, (t.resolve? r).isSome ↔ (t.target? r).isSome := by
    intro r
    unfold target?
    cases hr : t.resolve? r with
    | none => simp
    | some i =>
      obtain ⟨o, ho⟩ := decl?_of_lt (h.resolved r i hr)
      simp [ho]
  have hconverted : ∃ e, t.classElement? depth id = some e ∧
      (e.superclass, e.interfaces) = t.splitSupertypes c.superTypes := by
    cases depth with
    | full => exact ⟨_, conversion_eq_some_iff.mpr ⟨d, c, hd, hc, rfl⟩, rfl⟩
    | bounded => exact ⟨_, conversion_eq_some_iff.mpr ⟨d, c, hd, hc, rfl⟩, rfl⟩
    | flat => exact absurd rfl hdepth
  obtain ⟨e, he, hsplit⟩ := hconverted
  refine ⟨e, element?_of_classElement? he, fun s => ?_⟩
  have hmem := mem_splitSupertypes_iff (t := t) (s := s) c.superTypes
  rw [← hsplit] at hmem
  simp only [hpoints] at hmem
  exact hmem

/-! ### The name that is left of a supertype -/

/-- **A class goes by its qualified name behind its type**, whatever sort of type it is; a
class without one goes by the text of the type. -/
theorem erasedName_of_class {r : TypeRef} {o : Declaration} {c : ClassShape}
    (ho : t.target? r = some o) (hc : o.asClass = some c) :
    (t.signatureType r).erasedName = o.qualifiedName.getD (t.signatureType r).canonicalName := by
  have hkind : o.typeKind = Declaration.typeKindOfClass o.qualifiedName := by
    rw [Declaration.typeKind, Draft.asClass_eq_some_iff.mp hc]
  have honly : ∀ only, o.typeKind.uniqueName? = some only → o.qualifiedName = some only :=
    fun only h => Declaration.eq_of_uniqueName? (hkind ▸ h)
  obtain ⟨target, arguments, nullable, annotations⟩ := r
  unfold signatureType
  obtain ⟨id, hid, heq⟩ := assembleType_of_target? ho .flat
  rw [heq]
  unfold typeOfTarget
  cases hk : o.typeKind with
  | primitive p =>
    rw [honly p.name (by rw [hk]; rfl)]
    rfl
  | unit =>
    rw [honly Builtin.unit (by rw [hk]; rfl)]
    rfl
  | nothing =>
    rw [honly Builtin.nothing (by rw [hk]; rfl)]
    rfl
  | array =>
    rw [honly Builtin.array (by rw [hk]; rfl)]
    rfl
  | declared =>
    have hflat : t.flatClass? id = some (t.memberlessClass .flat id o c) :=
      conversion_eq_some_iff.mpr ⟨o, c, hid, hc, rfl⟩
    simp only [hflat]
    rfl
  | «variable» => exact absurd (hkind.symm.trans hk) (Declaration.typeKindOfClass_ne _).2.2
  | wildcard => exact absurd hk o.typeKind_ne_wildcard
  | other => exact absurd (hkind.symm.trans hk) (Declaration.typeKindOfClass_ne _).1

/-- A type parameter is without bounds in a signature, so that everything goes there. -/
theorem erasedName_of_typeParameter {r : TypeRef} {o : Declaration} {p : TypeParameterShape}
    (ho : t.target? r = some o) (hp : o.asTypeParameter = some p) :
    (t.signatureType r).erasedName = Builtin.any := by
  have hkind : o.typeKind = .variable := by
    rw [Declaration.typeKind, Draft.asTypeParameter_eq_some_iff.mp hp]
  obtain ⟨target, arguments, nullable, annotations⟩ := r
  unfold signatureType
  obtain ⟨id, hid, heq⟩ := assembleType_of_target? ho .flat
  have hflat : t.flatTypeParameter? id = some (t.boundedTypeParameter .flat o p []) :=
    conversion_eq_some_iff.mpr ⟨o, p, hid, hp, rfl⟩
  rw [heq]
  unfold typeOfTarget
  rw [hkind]
  simp only [hflat]
  rfl

/-! ### What a class can be stored as -/

/-- The type of a class that is referred to by its handle, whatever stands behind it. Without
arguments and a mark for null the text of a type is a name, so a class without a qualified
name goes by its simple name. -/
theorem assembleType_decl_ofClass {id : DeclId} {d : Declaration} (hd : t.decl? id = some d)
    (hkind : d.typeKind = .declared) {class? : DeclId → Option ClassElement}
    {element : ClassElement} (helement : class? id = some element)
    (hname : element.header.qualifiedName = d.qualifiedName)
    (hsimple : element.header.simpleName = d.name)
    (habove : element.allSupertypes = t.supertypeClosure id) (depth : Depth)
    (parameter? : DeclId → Option TypeParameter) :
    (t.assembleType depth class? parameter? [] (.decl id)).OfClass
      (d.qualifiedName.getD d.name) (t.supertypeClosure id) false := by
  have hr : t.resolve? (.decl id) = some id := if_pos (lt_size_of_decl? hd)
  have hclass := assembleType_ofDeclared hr hd hkind helement habove depth parameter? []
  have htext : (t.assembleType depth class? parameter? [] (.decl id)).canonicalName =
      d.qualifiedName.getD d.name := by
    simp only [assembleType, hr, hd, typeOfTarget, hkind, helement]
    show element.header.qualifiedName.getD element.header.simpleName ++ "" ++ "" = _
    rw [hname, hsimple, String.append_empty, String.append_empty]
  have hself : d.qualifiedName.getD (d.qualifiedName.getD d.name) = d.qualifiedName.getD d.name := by
    cases d.qualifiedName <;> rfl
  rwa [hname, htext, hself] at hclass

theorem typeOf_decl_ofClass {id : DeclId} {d : Declaration} (hd : t.decl? id = some d)
    (hkind : d.typeKind = .declared) (depth : Depth) :
    (t.typeOf depth (.decl id)).OfClass (d.qualifiedName.getD d.name) (t.supertypeClosure id)
      false := by
  obtain ⟨c, hc⟩ := Declaration.exists_asClass_of_typeKind hkind
  have hflat : t.flatClass? id = some _ := conversion_eq_some_iff.mpr ⟨d, c, hd, hc, rfl⟩
  have hbounded : t.boundedClass? id = some _ := conversion_eq_some_iff.mpr ⟨d, c, hd, hc, rfl⟩
  have hsignature : (t.signatureType (.decl id)).OfClass (d.qualifiedName.getD d.name)
      (t.supertypeClosure id) false :=
    assembleType_decl_ofClass hd hkind hflat rfl rfl rfl .flat t.flatTypeParameter?
  cases depth with
  | full =>
    exact assembleType_decl_ofClass hd hkind hbounded rfl rfl rfl .bounded
      (t.typeParameter? .bounded)
  | bounded => exact hsignature
  | flat => exact hsignature

/-- A text is, up to wrappers, a name that the class `id` answers to: the one of the top
type, its own, or one above it. -/
def AnswersTo (t : SymbolTable) (id : DeclId) (d : Declaration) (text : String) : Prop :=
  unwrap text = Builtin.any ∨ unwrap (d.qualifiedName.getD d.name) = unwrap text ∨
    ∃ n ∈ t.supertypeClosure id, unwrap n = unwrap text

/-- A class can be stored where a type that was found is expected exactly if it answers to
the name that is left of the type. -/
theorem isAssignableTo_known_iff {id : DeclId} {d : Declaration} (hd : t.decl? id = some d)
    (hkind : d.typeKind = .declared) (depth : Depth) {o : Ty} (ho : o.isUnknown = false) :
    (t.typeOf depth (.decl id)).isAssignableTo o = true ↔ t.AnswersTo id d o.erasedName := by
  rw [(typeOf_decl_ofClass hd hkind depth).isAssignableTo_known_iff ho,
    and_iff_right (Or.inl rfl)]
  rfl

/-- A class answers to the qualified names of its own supertypes. -/
theorem answersTo_ownSupertype (h : Closed t) {id : DeclId} {d o : Declaration} {c : ClassShape}
    (hd : t.decl? id = some d) (hc : d.asClass = some c) {r : TypeRef} (hr : r ∈ c.superTypes)
    (ho : t.target? r = some o) {n : String} (hn : o.qualifiedName = some n) :
    t.AnswersTo id d n := by
  obtain ⟨j, hj, hjo⟩ := Option.bind_eq_some_iff.mp ho
  by_cases hself : j = id
  · -- a class that is its own supertype answers to its own name
    subst hself
    have hdo : d = o := Option.some.inj (hd.symm.trans hjo)
    subst hdo
    exact Or.inr (Or.inl (by rw [hn, Option.getD_some]))
  · have hstep : t.Above id j := .single ⟨d, c, hd, hc, r, hr, hj⟩
    have hname : t.qualifiedName? j = some n := by
      rw [qualifiedName?, hjo, Option.bind_some, hn]
    have hmem : n ∈ t.supertypeClosure id :=
      (mem_supertypeClosure_iff h (lt_size_of_decl? hd) n).mpr ⟨j, hself, hstep, hname⟩
    exact Or.inr (Or.inr ⟨n, hmem, rfl⟩)

/-! ### A class and the supertypes it reports -/

/-- **A class can be stored where one of its own supertypes is expected exactly if that is
a type, and, if it is a class without a qualified name, the class happens to answer to its
text.** What is reported of a supertype is unknown exactly if it is no type. -/
theorem isAssignableTo_ownSupertypes (h : Reachable t) {id : DeclId} {d : Declaration}
    (hd : t.decl? id = some d) (hkind : d.typeKind = .declared) {depth : Depth}
    (hdepth : depth ≠ .flat) :
    ∃ c e, d.asClass = some c ∧ t.element? depth id = some (.classLike e) ∧
      (∀ s, s ∈ e.supertypes ↔
        ∃ r ∈ c.superTypes, (t.target? r).isSome ∧ t.signatureType r = s) ∧
      ∀ r ∈ c.superTypes, ∀ o, t.target? r = some o →
        ((t.signatureType r).isUnknown = true ↔ ¬ o.IsType) ∧
        ∀ depth', (t.typeOf depth' (.decl id)).isAssignableTo (t.signatureType r) = true ↔
          o.IsType ∧ (o.asClass.isSome → o.qualifiedName = none →
            t.AnswersTo id d (t.signatureType r).canonicalName) := by
  obtain ⟨c, hc⟩ := Declaration.exists_asClass_of_typeKind hkind
  obtain ⟨e, he, hreported⟩ := exists_supertypes h.closed hd hc hdepth
  refine ⟨c, e, hc, he, hreported, fun r hr o ho => ?_⟩
  have hknown : (t.signatureType r).isUnknown = false ↔ o.IsType := by
    rw [isUnknown_signatureType_iff, PointsAtType, ho]
    simp
  refine ⟨by rw [← hknown, Bool.not_eq_false], fun depth' => ?_⟩
  by_cases htype : o.IsType
  · rw [isAssignableTo_known_iff hd hkind depth' (hknown.mpr htype), and_iff_right htype]
    -- what is left of a class is its name or its text, and of a type parameter the top type
    rcases o.typeKind_cases with ⟨k, hk, -⟩ | ⟨p, hp, -⟩ | ⟨hnone, -⟩
    · rw [erasedName_of_class ho hk, hk]
      cases hn : o.qualifiedName with
      | none => simp
      | some n => simp [answersTo_ownSupertype h.closed hd hc hr ho hn]
    · have htop : t.AnswersTo id d Builtin.any := Or.inl (by decide)
      rw [erasedName_of_typeParameter ho hp, Draft.asClass_of_asTypeParameter hp]
      simp [htop]
    · exact absurd htype hnone
  · have hunknown : (t.signatureType r).isUnknown = true := by
      rw [← Bool.not_eq_false, hknown]
      exact htype
    rw [Ty.isAssignableTo_of_isUnknown hunknown]
    simp [htype]

/-- In the table `tree` the supertype that `graph.Tree` reports is the type of its nested
interface, and `graph.Tree` can be stored there. -/
theorem isAssignableTo_ownSupertypes_tree :
    ∃ e, tree.element? .full 14 = some (.classLike e) ∧ e.supertypes ≠ [] ∧
      ∀ s ∈ e.supertypes, s.isUnknown = false ∧
        ∀ depth, (tree.typeOf depth (.decl 14)).isAssignableTo s = true := by
  have htree : ∃ d ∈ tree.decl? 14, d.typeKind = .declared ∧ ∀ c ∈ d.asClass,
      (∃ r ∈ c.superTypes, (tree.target? r).isSome) ∧
        ∀ r ∈ c.superTypes, ∀ o ∈ tree.target? r, o.IsType ∧ o.qualifiedName ≠ none := by
    decide +kernel
  obtain ⟨d, hd, hkind, hnamed⟩ := htree
  obtain ⟨c, e, hc, he, hreported, hassignable⟩ :=
    isAssignableTo_ownSupertypes reachable_tree hd hkind (by decide : Depth.full ≠ .flat)
  obtain ⟨⟨r, hr, hpoints⟩, hnames⟩ := hnamed c hc
  refine ⟨e, he, List.ne_nil_of_mem ((hreported _).mpr ⟨r, hr, hpoints, rfl⟩), fun s hs => ?_⟩
  obtain ⟨r, hr, hpoints, rfl⟩ := (hreported s).mp hs
  obtain ⟨o, ho⟩ := Option.isSome_iff_exists.mp hpoints
  obtain ⟨htype, hname⟩ := hnames r hr o ho
  obtain ⟨hknown, hstored⟩ := hassignable r hr o ho
  refine ⟨?_, fun depth => (hstored depth).mpr ⟨htype, fun _ hnone => absurd hnone hname⟩⟩
  rw [← Bool.not_eq_true, hknown, not_not]
  exact htype

/-! ### Supertypes that get lost -/

/-- The changes that make the table `shapes`. -/
def shapesChanges : List Change :=
  [.addFile "src/Shapes.kt" "shop",
   .declare (.file 0) (.function "base" [] none),
   .declare (.file 0) ((Draft.classLike "Derived" .classType).withSuperType (.named "shop.base")),
   .declare (.inside 14) (Draft.classLike "Base" .classType),
   .declare (.inside 14) ((Draft.classLike "Local" .classType).withSuperType (.decl 16))]

/-- A class whose supertype is the name of a function, and two classes in the function, one
above the other. -/
def shapes : SymbolTable := builtin.run shapesChanges

theorem reachable_shapes : Reachable shapes := ⟨shapesChanges, rfl⟩

/-- **A class can report a supertype that it cannot be stored as**: one is unknown, and the
other is a class in the same function, which has a type but no name. -/
theorem lost_supertypes : Reachable shapes ∧
    ((shapes.classElement? .full 15).bind (·.superclass)).map Ty.isUnknown = some true ∧
    ((shapes.classElement? .full 17).bind (·.superclass)).map Ty.canonicalName = some "Base" ∧
    ∀ id ∈ [15, 17], (shapes.decl? id).map Declaration.typeKind = some .declared ∧
      ((shapes.classElement? .full id).bind (·.superclass)).map
        (fun s => (shapes.typeOf .full (.decl id)).isAssignableTo s) = some false := by
  refine ⟨reachable_shapes, ?_, ?_, ?_⟩ <;> decide +kernel

end SymbolTable
end SymbolGraph
