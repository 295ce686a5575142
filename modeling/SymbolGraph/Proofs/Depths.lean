/-
# One declaration at several depths

A declaration can be converted at three depths, and the three elements show one thing.
They agree in everything that is settled by the declaration and by the references it
writes (`Element.Agrees`): a type in a signature is flat at every depth, so its text and
whether it was found are the same, and an annotation keeps its name when its arguments
are cut. What a depth takes away stands in the lists: a class with bounds has the members
of the full one, its nested classes apart, and a flat class has none (`ClassTiers`).

The members are compared one declaration at a time. A member is converted one step
further down than its class, so what is related is the member of a full class at one
depth and the member of a bounded class at the next.

Key definitions: `Header.Agrees`, `Element.Agrees`, `Element.isNestedType`, `ClassTiers`.
Key theorems: `SymbolTable.agrees_of_element?`, `SymbolTable.rel_member?`,
`SymbolTable.conversions_agree`.
-/
import Mathlib.Data.List.Forall2
import SymbolGraph.Proofs.Resolution

namespace SymbolGraph

/-! ### What depths have in common -/

/-- The names that an annotation goes by. -/
def Annotation.names (a : Annotation) : String × Option String := (a.simpleName, a.qualifiedName)

/-- Two headers that differ at most in their members and in the arguments of their
annotations. -/
structure Header.Agrees (a b : Header) : Prop where
  simpleName : a.simpleName = b.simpleName
  qualifiedName : a.qualifiedName = b.qualifiedName
  kind : a.kind = b.kind
  packageName : a.packageName = b.packageName
  enclosing : a.enclosing = b.enclosing
  annotations : a.annotations.map Annotation.names = b.annotations.map Annotation.names
  modifiers : a.modifiers = b.modifiers
  documentation : a.documentation = b.documentation
  sourceFile : a.sourceFile = b.sourceFile
  valid : a.valid = b.valid

/-- Two elements of one sort that agree in their headers and in the texts of their types. -/
def Element.Agrees : Element → Element → Prop
  | .classLike a, .classLike b => a.header.Agrees b.header ∧ a.allSupertypes = b.allSupertypes
  | .callable a, .callable b =>
    a.header.Agrees b.header ∧ a.signature = b.signature ∧
      a.parameters.length = b.parameters.length ∧
      a.thrownTypes.map Ty.canonicalName = b.thrownTypes.map Ty.canonicalName
  | .property a, .property b =>
    a.header.Agrees b.header ∧ a.type.canonicalName = b.type.canonicalName ∧
      a.getter.isSome = b.getter.isSome ∧ a.setter.isSome = b.setter.isSome ∧
      a.backingField.isSome = b.backingField.isSome
  | .typeParameter a, .typeParameter b => a.header.Agrees b.header
  | _, _ => False

/-- The element is a class, and no entry of an enum. -/
def Element.isNestedType : Element → Bool
  | .classLike c => c.kind != .enumEntry
  | _ => false

/-- What a class has at each of the three depths. -/
structure ClassTiers (full bounded flat : ClassElement) : Prop where
  /-- With bounds it has the members of the full class, the nested types apart. -/
  members : List.Forall₂ Element.Agrees
    (full.header.enclosed.filter fun e => !e.isNestedType) bounded.header.enclosed
  superclass : full.superclass.map Ty.canonicalName = bounded.superclass.map Ty.canonicalName
  interfaces : full.interfaces.map Ty.canonicalName = bounded.interfaces.map Ty.canonicalName
  /-- A flat class has none of these. -/
  bare : flat.header.enclosed = [] ∧ flat.superclass = none ∧ flat.interfaces = []

namespace SymbolTable

variable {t : SymbolTable}

/-! ### Headers -/

/-- An annotation has the same names at every depth. -/
theorem names_convertUsage (depth depth' : Depth) (us : List Usage) :
    (us.map (t.convertUsage depth)).map Annotation.names =
      (us.map (t.convertUsage depth')).map Annotation.names := by
  rw [List.map_map, List.map_map]
  exact List.map_congr_left fun ⟨_, _, _⟩ _ => rfl

/-- The header of a declaration at two depths, whatever the members. -/
theorem header_agrees (depth depth' : Depth) (d : Declaration) (kind : ElementKind)
    (enclosed enclosed' : List Element) (valid : Bool) :
    ({ t.header depth d kind with enclosed, valid } : Header).Agrees
      { t.header depth' d kind with enclosed := enclosed', valid } :=
  ⟨rfl, rfl, rfl, rfl, rfl, names_convertUsage depth depth' d.annotations, rfl, rfl, rfl, rfl⟩

/-! ### Elements -/

/-- A class is headed by its declaration and carries the names above it, at every depth. -/
theorem exists_of_classElement? {depth : Depth} {id : DeclId} {d : Declaration} {c : ClassShape}
    {e : ClassElement} (hd : t.decl? id = some d) (hc : d.asClass = some c)
    (he : t.classElement? depth id = some e) :
    ∃ enclosed, e.header = { t.header depth d c.kind.elementKind with enclosed } ∧
      e.kind = c.kind ∧ e.allSupertypes = t.supertypeClosure id := by
  cases depth <;>
  · obtain ⟨c', hc', rfl⟩ := exists_of_conversion hd he
    obtain rfl : c = c' := Option.some.inj (hc.symm.trans hc')
    exact ⟨_, rfl, rfl, rfl⟩

theorem isNestedType_of_classElement? {depth : Depth} {id : DeclId} {d : Declaration}
    {c : ClassShape} {e : ClassElement} (hd : t.decl? id = some d) (hc : d.asClass = some c)
    (he : t.classElement? depth id = some e) :
    (Element.classLike e).isNestedType = true ↔ c.kind ≠ .enumEntry := by
  obtain ⟨-, -, hkind, -⟩ := exists_of_classElement? hd hc he
  simp [Element.isNestedType, hkind]

theorem classElement?_agrees {depth depth' : Depth} {id : DeclId} {d : Declaration}
    {c : ClassShape} {a b : ClassElement} (hd : t.decl? id = some d) (hc : d.asClass = some c)
    (ha : t.classElement? depth id = some a) (hb : t.classElement? depth' id = some b) :
    (Element.classLike a).Agrees (.classLike b) := by
  obtain ⟨enclosed, hheader, -, hnames⟩ := exists_of_classElement? hd hc ha
  obtain ⟨enclosed', hheader', -, hnames'⟩ := exists_of_classElement? hd hc hb
  refine ⟨?_, hnames.trans hnames'.symm⟩
  rw [hheader, hheader']
  exact header_agrees depth depth' d c.kind.elementKind enclosed enclosed' true

theorem callable?_agrees {depth depth' : Depth} {id : DeclId} {a b : Callable}
    (ha : t.callable? depth id = some a) (hb : t.callable? depth' id = some b) :
    (Element.callable a).Agrees (.callable b) := by
  obtain ⟨d, k, hd, hk, rfl⟩ := conversion_eq_some_iff.mp ha
  obtain ⟨k', hk', rfl⟩ := exists_of_conversion hd hb
  obtain rfl : k = k' := Option.some.inj (hk.symm.trans hk')
  refine ⟨?_, ?_, ?_, rfl⟩
  · have hvalid : ∀ depth : Depth, ((k.parameters.map (t.parameter depth d)).all
        fun p => p.header.valid) = k.parameters.all fun p => !(t.signatureType p.type).isUnknown :=
      fun depth => List.all_map
    rw [hvalid, hvalid]
    exact header_agrees depth depth' d d.elementKind [] [] _
  · simp only [Callable.signature, List.map_map]
    rfl
  · simp only [List.length_map]

theorem property?_agrees {depth depth' : Depth} {id : DeclId} {a b : Property}
    (ha : t.property? depth id = some a) (hb : t.property? depth' id = some b) :
    (Element.property a).Agrees (.property b) := by
  obtain ⟨d, k, hd, hk, rfl⟩ := conversion_eq_some_iff.mp ha
  obtain ⟨k', hk', rfl⟩ := exists_of_conversion hd hb
  obtain rfl : k = k' := Option.some.inj (hk.symm.trans hk')
  refine ⟨header_agrees depth depth' d .property [] [] _, rfl, ?_, ?_, ?_⟩
  · simp only [Option.isSome_map]
  · simp only [Option.isSome_map]
  · split <;> rfl

theorem typeParameter?_agrees {depth depth' : Depth} {id : DeclId} {a b : TypeParameter}
    (ha : t.typeParameter? depth id = some a) (hb : t.typeParameter? depth' id = some b) :
    (Element.typeParameter a).Agrees (.typeParameter b) := by
  obtain ⟨d, _, hd, -, rfl⟩ := conversion_eq_some_iff.mp ha
  obtain ⟨_, -, rfl⟩ := exists_of_conversion hd hb
  exact header_agrees depth depth' d .typeParameter [] [] true

/-- **Two conversions of one declaration agree**, whatever their depths. -/
theorem agrees_of_element? {depth depth' : Depth} {id : DeclId} {a b : Element}
    (ha : t.element? depth id = some a) (hb : t.element? depth' id = some b) : a.Agrees b := by
  obtain ⟨d, hd, -⟩ := Option.bind_eq_some_iff.mp ha
  rw [element?_of_decl? depth hd] at ha
  rw [element?_of_decl? depth' hd] at hb
  cases hs : d.shape with
  | classLike c =>
    simp only [hs] at ha hb
    obtain ⟨x, hx, rfl⟩ := Option.map_eq_some_iff.mp ha
    obtain ⟨y, hy, rfl⟩ := Option.map_eq_some_iff.mp hb
    exact classElement?_agrees hd (Draft.asClass_eq_some_iff.mpr hs) hx hy
  | callable c =>
    simp only [hs] at ha hb
    obtain ⟨x, hx, rfl⟩ := Option.map_eq_some_iff.mp ha
    obtain ⟨y, hy, rfl⟩ := Option.map_eq_some_iff.mp hb
    exact callable?_agrees hx hy
  | property p =>
    simp only [hs] at ha hb
    obtain ⟨x, hx, rfl⟩ := Option.map_eq_some_iff.mp ha
    obtain ⟨y, hy, rfl⟩ := Option.map_eq_some_iff.mp hb
    exact property?_agrees hx hy
  | typeParameter p =>
    simp only [hs] at ha hb
    obtain ⟨x, hx, rfl⟩ := Option.map_eq_some_iff.mp ha
    obtain ⟨y, hy, rfl⟩ := Option.map_eq_some_iff.mp hb
    exact typeParameter?_agrees hx hy

/-! ### Members -/

/-- A member of a class in full, unless it is a nested type, and the same member of the class
with bounds: both are there and agree, or neither is. -/
theorem rel_member? (i : DeclId) :
    Option.Rel Element.Agrees
      ((t.member? .bounded t.boundedClass? i).filter fun e => !e.isNestedType)
      (t.member? .flat (fun _ => none) i) := by
  cases hd : t.decl? i with
  | none =>
    have hnone : ∀ depth nested?, t.member? depth nested? i = none := by
      intro depth nested?
      rw [member?, hd]
      rfl
    rw [hnone, hnone]
    exact .none
  | some d =>
    rw [member?_of_decl? _ _ hd, member?_of_decl? _ _ hd]
    cases hs : d.shape with
    | classLike c =>
      have hc : d.asClass = some c := Draft.asClass_eq_some_iff.mpr hs
      dsimp only
      by_cases hcompanion : c.isCompanion
      · rw [if_pos hcompanion, if_pos hcompanion]
        exact .none
      · rw [if_neg hcompanion, if_neg hcompanion]
        by_cases hentry : c.kind = .enumEntry
        · -- the entries of an enum are flat in both classes
          rw [if_pos hentry, if_pos hentry]
          obtain ⟨e, he⟩ := exists_classElement? .flat hd hc
          have hflat : t.flatClass? i = some e := he
          have hkept : (!(Element.classLike e).isNestedType) = true := by
            simp [← Bool.not_eq_true, isNestedType_of_classElement? hd hc he, hentry]
          rw [hflat, Option.map_some, Option.filter_some, if_pos hkept]
          exact .some (classElement?_agrees hd hc he he)
        · rw [if_neg hentry, if_neg hentry]
          obtain ⟨e, he⟩ := exists_classElement? .bounded hd hc
          have hbounded : t.boundedClass? i = some e := he
          have hleft : ¬ (!(Element.classLike e).isNestedType) = true := by
            simp [isNestedType_of_classElement? hd hc he, hentry]
          rw [hbounded, Option.map_some, Option.filter_some, if_neg hleft]
          exact .none
    | callable c =>
      dsimp only
      obtain ⟨a, ha⟩ : ∃ a, t.callable? .bounded i = some a :=
        ⟨_, conversion_eq_some_iff.mpr ⟨d, c, hd, Draft.asCallable_eq_some_iff.mpr hs, rfl⟩⟩
      obtain ⟨b, hb⟩ : ∃ b, t.callable? .flat i = some b :=
        ⟨_, conversion_eq_some_iff.mpr ⟨d, c, hd, Draft.asCallable_eq_some_iff.mpr hs, rfl⟩⟩
      rw [ha, hb]
      exact .some (callable?_agrees ha hb)
    | property p =>
      dsimp only
      obtain ⟨a, ha⟩ : ∃ a, t.property? .bounded i = some a :=
        ⟨_, conversion_eq_some_iff.mpr ⟨d, p, hd, Draft.asProperty_eq_some_iff.mpr hs, rfl⟩⟩
      obtain ⟨b, hb⟩ : ∃ b, t.property? .flat i = some b :=
        ⟨_, conversion_eq_some_iff.mpr ⟨d, p, hd, Draft.asProperty_eq_some_iff.mpr hs, rfl⟩⟩
      rw [ha, hb]
      exact .some (property?_agrees ha hb)
    | typeParameter p => exact .none

/-- **A class has less at each depth**: with bounds the members of the full class but the
nested types, flat none, and the same supertypes as long as it has any. -/
theorem classTiers {id : DeclId} {full bounded flat : ClassElement}
    (hfull : t.classElement? .full id = some full)
    (hbounded : t.classElement? .bounded id = some bounded)
    (hflat : t.classElement? .flat id = some flat) : ClassTiers full bounded flat := by
  obtain ⟨d, c, hd, hc, rfl⟩ := conversion_eq_some_iff.mp hfull
  obtain ⟨c', hc', rfl⟩ := exists_of_conversion hd hbounded
  obtain ⟨_, -, rfl⟩ := exists_of_conversion hd hflat
  obtain rfl : c = c' := Option.some.inj (hc.symm.trans hc')
  refine ⟨?_, rfl, rfl, rfl, rfl, rfl⟩
  have hmembers : List.Forall₂ Element.Agrees
      ((d.members.filterMap (t.member? .bounded t.boundedClass?)).filter fun e => !e.isNestedType)
      (d.members.filterMap (t.member? .flat fun _ => none)) := by
    rw [List.filter_filterMap]
    refine List.rel_filterMap (R := Eq) ?_ (List.forall₂_refl d.members)
    rintro i _ rfl
    exact rel_member? i
  exact hmembers

/-! ### All depths together -/

/-- **The conversions of a declaration at all depths agree**, and for a class what each depth
holds is settled by the one above it. -/
theorem conversions_agree {id : DeclId} (hid : id < t.size) :
    ∃ converted : Depth → Element, (∀ depth, t.element? depth id = some (converted depth)) ∧
      (∀ depth depth', (converted depth).Agrees (converted depth')) ∧
      ∀ full bounded flat, converted .full = .classLike full →
        converted .bounded = .classLike bounded → converted .flat = .classLike flat →
        ClassTiers full bounded flat := by
  obtain ⟨d, hd⟩ := decl?_of_lt hid
  have hconverted : ∀ depth, ∃ e, t.element? depth id = some e := fun depth =>
    (exists_element? depth hd).imp fun _ he => he.1
  choose converted hconverted using hconverted
  refine ⟨converted, hconverted, fun _ _ => agrees_of_element? (hconverted _) (hconverted _), ?_⟩
  intro full bounded flat hfull hbounded hflat
  have hclass : ∀ depth c, converted depth = .classLike c →
      t.classElement? depth id = some c := fun depth c hc =>
    classElement?_of_element? ((hconverted depth).trans (congrArg some hc))
  exact classTiers (hclass _ _ hfull) (hclass _ _ hbounded) (hclass _ _ hflat)

/-- In the table `tree` the class `graph.Tree` has two members in full and one with bounds,
the method `walk`, whose two conversions agree. -/
theorem conversions_agree_tree : 14 < tree.size ∧ ∃ full bounded flat : ClassElement,
    tree.element? .full 14 = some (.classLike full) ∧
      tree.element? .bounded 14 = some (.classLike bounded) ∧
      tree.element? .flat 14 = some (.classLike flat) ∧ full.header.enclosed.length = 2 ∧
      bounded.header.enclosed.map Element.simpleName = ["walk"] ∧
      (Element.classLike full).Agrees (.classLike flat) ∧ ClassTiers full bounded flat := by
  have hsize : 14 < tree.size := by decide +kernel
  obtain ⟨converted, hconverted, hagree, htiers⟩ := conversions_agree hsize
  have hclass : ∀ depth, ∃ c, converted depth = .classLike c := by
    intro depth
    have hshape : ∃ c, tree.classElement? depth 14 = some c := by
      rw [← Option.isSome_iff_exists]
      cases depth <;> decide +kernel
    obtain ⟨c, hc⟩ := hshape
    have he : tree.element? depth 14 = some (.classLike c) := element?_of_classElement? hc
    exact ⟨c, Option.some.inj ((hconverted depth).symm.trans he)⟩
  obtain ⟨full, hfull⟩ := hclass .full
  obtain ⟨bounded, hbounded⟩ := hclass .bounded
  obtain ⟨flat, hflat⟩ := hclass .flat
  have hmembers : ((tree.element? .full 14).map fun e => e.enclosed.length) = some 2 := by
    decide +kernel
  have hwalk : ((tree.element? .bounded 14).map fun e => e.enclosed.map Element.simpleName) =
      some ["walk"] := by
    decide +kernel
  rw [hconverted, hfull] at hmembers
  rw [hconverted, hbounded] at hwalk
  refine ⟨hsize, full, bounded, flat, hfull ▸ hconverted .full, hbounded ▸ hconverted .bounded,
    hflat ▸ hconverted .flat, Option.some.inj hmembers, Option.some.inj hwalk, ?_,
    htiers full bounded flat hfull hbounded hflat⟩
  rw [← hfull, ← hflat]
  exact hagree .full .flat

end SymbolTable
end SymbolGraph
