/-
# Assigning a class to a class

Whether a value of one type can be stored where another is expected is decided by
names: the erased names of the two types, and the names that the given type carries
of what stands above it. For two classes with qualified names this comes to a
question about the table. A reference to such a class has, at every depth and with
whatever arguments, a type that carries the class's own name and the names above the
class (`typeOf_ofClass`); those names are the names of what stands above
(`mem_supertypeClosure_iff`). So one class can be stored where another is expected
exactly if the names agree, or the expected name stands above, or it is the top
type's, and null does not stand against it; a wrapper's name counts as its
primitive's. Circles among the supertypes make no difference.

Key definitions: `Ty.GoesBy`, `Ty.OfClass`, `SymbolTable.PointsAtClass`.
Key theorems: `Ty.isAssignableTo_iff`, `Ty.isAssignableTo_iff_null`,
`Ty.OfClass.isAssignableTo_known_iff`, `Ty.OfClass.isAssignableTo_iff`,
`SymbolTable.typeOf_ofClass`, `SymbolTable.isAssignableTo_iff_above`.
-/
import SymbolGraph.Proofs.Resolution
import SymbolGraph.Proofs.Supertypes
import SymbolGraph.Ty.Operations

namespace SymbolGraph

open Primitive (unwrap)

/-! ### What assignability looks at -/

namespace Ty

/-- A type goes by a name: it is its own after erasure or one above it, up to wrappers. -/
def GoesBy (s : Ty) (name : String) : Prop :=
  unwrap s.erasedName = unwrap name ∨ ∃ n ∈ s.supertypeNames, unwrap n = unwrap name

/-- What assignability asks: both types were found, null is not in the way, and the given type
is the bottom type or goes by the name that is left of the expected one, which may be the top
type's. -/
theorem isAssignableTo_iff {s o : Ty} :
    s.isAssignableTo o = true ↔
      (s.isUnknown = false ∧ o.isUnknown = false) ∧ (s.nullable = false ∨ o.nullable = true) ∧
        (s.kind = .nothing ∨ unwrap o.erasedName = Builtin.any ∨ s.GoesBy o.erasedName) := by
  have hnames : (unwrap o.erasedName == Builtin.any ||
        unwrap s.erasedName == unwrap o.erasedName ||
        s.supertypeNames.any fun n => unwrap n == unwrap o.erasedName) = true ↔
      unwrap o.erasedName = Builtin.any ∨ s.GoesBy o.erasedName := by
    rw [Bool.or_eq_true, Bool.or_eq_true, beq_iff_eq, beq_iff_eq, List.any_eq_true, or_assoc]
    simp only [beq_iff_eq, GoesBy]
  have hnull : (s.nullable && !o.nullable) = true ↔ ¬ (s.nullable = false ∨ o.nullable = true) := by
    cases s.nullable <;> cases o.nullable <;> simp
  have hfound : (o.isUnknown || s.isUnknown) = true ↔
      ¬ (s.isUnknown = false ∧ o.isUnknown = false) := by
    cases s.isUnknown <;> cases o.isUnknown <;> simp
  rw [isAssignableTo, isAssignableFrom]
  by_cases hf : s.isUnknown = false ∧ o.isUnknown = false
  · rw [if_neg fun h => hfound.mp h hf, and_iff_right hf]
    by_cases hn : s.nullable = false ∨ o.nullable = true
    · rw [if_neg fun h => hnull.mp h hn, and_iff_right hn]
      by_cases hk : s.kind = .nothing
      · rw [if_pos hk]
        exact iff_of_true rfl (Or.inl hk)
      · rw [if_neg hk, or_iff_right hk]
        exact hnames
    · rw [if_pos (hnull.mpr hn)]
      exact iff_of_false Bool.false_ne_true fun h => hn h.1
  · rw [if_pos (hfound.mpr hf)]
    exact iff_of_false Bool.false_ne_true fun h => hf h.1

/-- Of two types that go by one name, up to wrappers, the one can be stored where the other is
expected unless null is in the way. -/
theorem isAssignableTo_iff_null {s o : Ty} (hs : s.isUnknown = false) (ho : o.isUnknown = false)
    (hname : unwrap s.erasedName = unwrap o.erasedName) :
    s.isAssignableTo o = true ↔ s.nullable = false ∨ o.nullable = true := by
  have hgoes : s.GoesBy o.erasedName := Or.inl hname
  rw [isAssignableTo_iff, and_iff_right ⟨hs, ho⟩]
  exact and_iff_left (Or.inr (Or.inr hgoes))

/-- A type with a class behind it, as far as assignability looks at it. -/
structure OfClass (type : Ty) (name : String) (above : List String) (nullable : Bool) : Prop where
  known : type.isUnknown = false
  kind : type.kind = .declared
  erasedName : type.erasedName = name
  supertypeNames : type.supertypeNames = above
  nullable : type.nullable = nullable

/-- A class is compared with a type by names: its own, those above it and the one that is
left of the type after erasure. -/
theorem OfClass.isAssignableTo_known_iff {s o : Ty} {name : String} {above : List String}
    {null : Bool} (hs : s.OfClass name above null) (ho : o.isUnknown = false) :
    s.isAssignableTo o = true ↔
      (null = false ∨ o.nullable = true) ∧
      (unwrap o.erasedName = Builtin.any ∨ unwrap name = unwrap o.erasedName ∨
        ∃ n ∈ above, unwrap n = unwrap o.erasedName) := by
  have hbottom : s.kind ≠ .nothing := by
    rw [hs.kind]
    simp
  rw [Ty.isAssignableTo_iff, and_iff_right ⟨hs.known, ho⟩, or_iff_right hbottom, GoesBy,
    hs.nullable, hs.erasedName, hs.supertypeNames]

/-- Two classes are compared by their names, the names above the given one and null. -/
theorem OfClass.isAssignableTo_iff {s o : Ty} {name target : String} {above above' : List String}
    {null null' : Bool} (hs : s.OfClass name above null) (ho : o.OfClass target above' null') :
    s.isAssignableTo o = true ↔
      (null = false ∨ null' = true) ∧
      (unwrap target = Builtin.any ∨ unwrap name = unwrap target ∨
        ∃ n ∈ above, unwrap n = unwrap target) := by
  rw [hs.isAssignableTo_known_iff ho.known, ho.nullable, ho.erasedName]

end Ty

namespace SymbolTable

variable {t : SymbolTable}

/-! ### The type of a class -/

/-- A reference points at the class `id`, which goes by a qualified name and is neither
an array nor one of the types that have a sort of their own. No declaration but a class
has such a type. -/
structure PointsAtClass (t : SymbolTable) (r : TypeRef) (id : DeclId) (name : String) : Prop where
  resolved : t.resolve? r = some id
  declared : ∃ d, t.decl? id = some d ∧ d.typeKind = .declared ∧ d.qualifiedName = some name

/-- Whatever a class is converted to behind its type, the names above it are the ones of
the table, and so is its own, if it has one; the type of another goes by its text. -/
theorem assembleType_ofDeclared {r : TypeRef} {id : DeclId} {d : Declaration}
    (hr : t.resolve? r = some id) (hd : t.decl? id = some d) (hkind : d.typeKind = .declared)
    {class? : DeclId → Option ClassElement} {element : ClassElement}
    (helement : class? id = some element)
    (habove : element.allSupertypes = t.supertypeClosure id) (depth : Depth)
    (parameter? : DeclId → Option TypeParameter) (arguments : List Ty) :
    (t.assembleType depth class? parameter? arguments r).OfClass
      (element.header.qualifiedName.getD
        (t.assembleType depth class? parameter? arguments r).canonicalName)
      (t.supertypeClosure id) r.nullable := by
  have htarget : t.typeOfTarget class? parameter? arguments id d =
      t.nestedType d element arguments := by
    rw [typeOfTarget, hkind]
    simp only [helement]
  have hassembled : t.assembleType depth class? parameter? arguments r =
      t.marked depth r d (t.nestedType d element arguments) := by
    rw [assembleType, hr]
    simp only [hd, htarget]
  rw [hassembled]
  exact ⟨rfl, rfl, rfl, habove, rfl⟩

/-- A class with a qualified name goes by it behind its type. -/
theorem assembleType_ofClass {r : TypeRef} {id : DeclId} {name : String}
    (h : t.PointsAtClass r id name) {class? : DeclId → Option ClassElement}
    {element : ClassElement} (helement : class? id = some element)
    (hname : element.header.qualifiedName = some name)
    (habove : element.allSupertypes = t.supertypeClosure id) (depth : Depth)
    (parameter? : DeclId → Option TypeParameter) (arguments : List Ty) :
    (t.assembleType depth class? parameter? arguments r).OfClass name (t.supertypeClosure id)
      r.nullable := by
  obtain ⟨d, hd, hkind, -⟩ := h.declared
  have hclass := assembleType_ofDeclared h.resolved hd hkind helement habove depth parameter?
    arguments
  rwa [hname, Option.getD_some] at hclass

/-- **The type of a reference to a class** carries the name of the class and the names
above it, at every depth. -/
theorem typeOf_ofClass {r : TypeRef} {id : DeclId} {name : String}
    (h : t.PointsAtClass r id name) (depth : Depth) :
    (t.typeOf depth r).OfClass name (t.supertypeClosure id) r.nullable := by
  obtain ⟨d, hd, hkind, hname⟩ := h.declared
  obtain ⟨c, hc⟩ := Declaration.exists_asClass_of_typeKind hkind
  have hflat : ∃ element, t.flatClass? id = some element ∧
      element.header.qualifiedName = some name ∧ element.allSupertypes = t.supertypeClosure id :=
    ⟨_, conversion_eq_some_iff.mpr ⟨d, c, hd, hc, rfl⟩, hname, rfl⟩
  have hbounded : ∃ element, t.boundedClass? id = some element ∧
      element.header.qualifiedName = some name ∧ element.allSupertypes = t.supertypeClosure id :=
    ⟨_, conversion_eq_some_iff.mpr ⟨d, c, hd, hc, rfl⟩, hname, rfl⟩
  have hsignature : (t.signatureType r).OfClass name (t.supertypeClosure id) r.nullable := by
    obtain ⟨element, helement, hn, ha⟩ := hflat
    obtain ⟨target, arguments, nullable, annotations⟩ := r
    unfold signatureType
    exact assembleType_ofClass h helement hn ha .flat _ _
  cases depth with
  | full =>
    obtain ⟨element, helement, hn, ha⟩ := hbounded
    exact assembleType_ofClass h helement hn ha .bounded _ _
  | bounded => exact hsignature
  | flat => exact hsignature

/-! ### Assignability is reachability -/

/-- **A class can be stored where another is expected exactly if the other stands above it**,
up to wrappers, or bears its name, or is the top type, and null is not in the way. -/
theorem isAssignableTo_iff_above (h : Reachable t) {a b : DeclId} {na nb : String}
    {ra rb : TypeRef} (ha : t.PointsAtClass ra a na) (hb : t.PointsAtClass rb b nb)
    (depth depth' : Depth) :
    (t.typeOf depth ra).isAssignableTo (t.typeOf depth' rb) = true ↔
      (ra.nullable = false ∨ rb.nullable = true) ∧
      (unwrap nb = Builtin.any ∨ unwrap na = unwrap nb ∨
        ∃ s n, t.Above a s ∧ t.qualifiedName? s = some n ∧ unwrap n = unwrap nb) := by
  obtain ⟨d, hd, -, hname⟩ := ha.declared
  have hlt : a < t.size := lt_size_of_decl? hd
  have hself : t.qualifiedName? a = some na := by
    rw [qualifiedName?, hd, Option.bind_some, hname]
  have hclosure := mem_supertypeClosure_iff h.closed hlt
  rw [(typeOf_ofClass ha depth).isAssignableTo_iff (typeOf_ofClass hb depth')]
  refine and_congr_right fun _ => or_congr_right ?_
  constructor
  · rintro (heq | ⟨n, hn, heq⟩)
    · exact Or.inl heq
    · obtain ⟨s, -, hup, hs⟩ := (hclosure n).mp hn
      exact Or.inr ⟨s, n, hup, hs, heq⟩
  · rintro (heq | ⟨s, n, hup, hs, heq⟩)
    · exact Or.inl heq
    · by_cases hsa : s = a
      · -- a class in a circle stands above itself, under its own name
        subst hsa
        have hn : na = n := Option.some.inj (hself.symm.trans hs)
        exact Or.inl (hn ▸ heq)
      · exact Or.inr ⟨n, (hclosure n).mpr ⟨s, hsa, hup, hs⟩, heq⟩

/-- In the table `tree` the class `graph.Tree` and its nested interface stand above each
other, so `graph.Tree<*>?` can be stored where the interface or null is expected. -/
theorem isAssignableTo_iff_above_tree :
    let given : TypeRef := ⟨.named "graph.Tree", [⟨.star, none⟩], true, []⟩
    let expected : TypeRef := ⟨.decl 16, [], true, []⟩
    Reachable tree ∧ tree.PointsAtClass given 14 "graph.Tree" ∧
      tree.PointsAtClass expected 16 "graph.Tree.Node" ∧ tree.Above 14 16 ∧ tree.Above 16 14 ∧
      (tree.typeOf .full given).isAssignableTo (tree.typeOf .flat expected) = true := by
  intro given expected
  have hgiven : tree.PointsAtClass given 14 "graph.Tree" := by
    refine ⟨by decide +kernel, ?_⟩
    show ∃ d ∈ tree.decl? 14, d.typeKind = .declared ∧ d.qualifiedName = some "graph.Tree"
    decide +kernel
  have hexpected : tree.PointsAtClass expected 16 "graph.Tree.Node" := by
    refine ⟨by decide +kernel, ?_⟩
    show ∃ d ∈ tree.decl? 16, d.typeKind = .declared ∧ d.qualifiedName = some "graph.Tree.Node"
    decide +kernel
  have hup : tree.Above 14 16 := .single (mem_superDecls_iff.mp (by decide +kernel))
  have hdown : tree.Above 16 14 := .single (mem_superDecls_iff.mp (by decide +kernel))
  have hname : tree.qualifiedName? 16 = some "graph.Tree.Node" := by decide +kernel
  refine ⟨reachable_tree, hgiven, hexpected, hup, hdown, ?_⟩
  rw [isAssignableTo_iff_above reachable_tree hgiven hexpected]
  exact ⟨Or.inr rfl, Or.inr (Or.inr ⟨16, _, hup, hname, rfl⟩)⟩

end SymbolTable
end SymbolGraph
