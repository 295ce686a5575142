/-
# Which classes carry the names above them

A class that is converted carries the names of all types above it, whatever the
depth and wherever in a tree it stands: at the root, among the members, as the
companion, behind a type, behind a type argument or a bound, or behind the type
that a nested type is nested in (`CarriesNames`). So it answers the same about
what it is a subtype of wherever it is met.

A class behind the type of an annotation, or behind the type of an enum entry in a
constant, is not converted. It has the identity of its declaration and carries no
names (`IdentityOnly`), so it is a subtype of itself only, even if other types
stand above the class. In `palette` the enum of an annotation's argument is no
subtype of the interface it implements.

Key definitions: `SymbolTable.CarriesNames`, `SymbolTable.IdentityOnly`.
Key theorems: `names_carried`, `names_left_out_palette`.
-/
import SymbolGraph.Element.Members
import SymbolGraph.Proofs.Origins

namespace SymbolGraph
namespace SymbolTable

open Node (hop?_mem_parts holds_of_follow?)

variable {t : SymbolTable}

/-- A conversion of the class `id` that carries the names above it. -/
structure CarriesNames (t : SymbolTable) (id : DeclId) (c : ClassElement) : Prop where
  converted : ∃ depth, t.classElement? depth id = some c
  above : c.allSupertypes = t.supertypeClosure id
  subtype : ∀ name, c.isSubtypeOf name = true ↔
    t.qualifiedName? id = some name ∨ name ∈ t.supertypeClosure id

/-- The identity of the class `id`, without the names above it. -/
structure IdentityOnly (t : SymbolTable) (id : DeclId) (c : ClassElement) : Prop where
  identity : ∃ d shape, t.decl? id = some d ∧ d.asClass = some shape ∧
    c = t.identityClass d shape.kind
  above : c.allSupertypes = []
  subtype : ∀ name, c.isSubtypeOf name = true ↔ t.qualifiedName? id = some name

/-- A class is a subtype of what bears its own name or one it carries. -/
theorem isSubtypeOf_iff {c : ClassElement} {name : String} : c.isSubtypeOf name = true ↔
    c.header.qualifiedName = some name ∨ name ∈ c.allSupertypes := by
  rw [ClassElement.isSubtypeOf, Bool.or_eq_true, beq_iff_eq, decide_eq_true_eq]

theorem carriesNames_of_classElement? {depth : Depth} {id : DeclId} {c : ClassElement}
    (h : t.classElement? depth id = some c) : t.CarriesNames id c := by
  obtain ⟨d, hd, hname, habove⟩ : ∃ d, t.decl? id = some d ∧
      c.header.qualifiedName = d.qualifiedName ∧ c.allSupertypes = t.supertypeClosure id := by
    cases depth <;>
    · obtain ⟨d, k, hd, -, rfl⟩ := conversion_eq_some_iff.mp h
      exact ⟨d, hd, rfl, rfl⟩
  refine ⟨⟨depth, h⟩, habove, fun name => ?_⟩
  rw [isSubtypeOf_iff, hname, habove, qualifiedName?, hd, Option.bind_some]

theorem identityOnly_identityClass {id : DeclId} {d : Declaration} {shape : ClassShape}
    (hd : t.decl? id = some d) (hc : d.asClass = some shape) :
    t.IdentityOnly id (t.identityClass d shape.kind) := by
  refine ⟨⟨d, shape, hd, hc, rfl⟩, rfl, fun name => ?_⟩
  rw [isSubtypeOf_iff, qualifiedName?, hd, Option.bind_some]
  exact or_iff_left List.not_mem_nil

theorem Converted.carriesNames {c : ClassElement} (h : t.Converted (.element (.classLike c))) :
    ∃ id, t.CarriesNames id c := by
  cases h with
  | element h => exact ⟨_, carriesNames_of_classElement? (classElement?_of_element? h)⟩

theorem InRemark.identityOnly {c : ClassElement} (h : t.InRemark (.element (.classLike c))) :
    ∃ id, t.IdentityOnly id c := by
  cases h with
  | identity hd hc => exact ⟨_, identityOnly_identityClass hd hc⟩

/-- **Every class of a converted tree carries the names above it, outside annotations and
constants.** Inside them a class is an identity and carries none. -/
theorem names_carried {id : DeclId} (hid : id < t.size) (depth : Depth) :
    ∃ e, t.element? depth id = some e ∧
      (∀ c, (Node.element e).HoldsOutside (.element (.classLike c)) → ∃ k, t.CarriesNames k c) ∧
      ∀ n c, (Node.element e).Holds n → n.IsRemark → n.Holds (.element (.classLike c)) →
        ∃ k, t.IdentityOnly k c := by
  obtain ⟨d, hd⟩ := decl?_of_lt hid
  obtain ⟨e, he, -⟩ := exists_element? depth hd
  have hroot : t.Converted (.element e) := .element he
  exact ⟨e, he, fun c hc => (hroot.holdsOutside hc).carriesNames,
    fun n c hn hremark hc => (hroot.holds_remark hn hremark hc).identityOnly⟩

/-! ### A class met through an annotation -/

/-- The changes that make the table `palette`. -/
def paletteChanges : List Change :=
  [.addFile "src/Palette.kt" "paint",
   .declare (.file 0) (Draft.classLike "Shade" .interfaceType),
   .declare (.file 0)
     ((Draft.classLike "Color" .enumType).withSuperType (.named "paint.Shade")),
   .declare (.inside 15) (Draft.classLike "RED" .enumEntry),
   .declare (.file 0) (Draft.classLike "Tint" .annotationType),
   .declare (.file 0) ((Draft.classLike "Wall" .classType).annotated
     ((Usage.named "paint.Tint").withArgument "shade" (.enumEntry (.named "paint.Color.RED"))))]

/-- A class annotated with an entry of an enum, which implements an interface. -/
def palette : SymbolTable := builtin.run paletteChanges

theorem reachable_palette : Reachable palette := ⟨paletteChanges, rfl⟩

/-- The table `palette` with a property in the annotated class, of the type of the enum. -/
def painted : SymbolTable :=
  palette.run [.declare (.inside 18) (Draft.property "color" (.named "paint.Color"))]

/-- In the table `painted` the annotated class holds the enum twice: behind the type of its
property the enum carries the name of its interface, and behind the argument of the annotation it
does not. -/
theorem names_carried_painted : 18 < painted.size ∧ ∃ e, painted.element? .full 18 = some e ∧
    (∃ c, (Node.element e).follow? [.enclosed 0, .type, .element] = some (.element (.classLike c)) ∧
      c.header.qualifiedName = some "paint.Color" ∧ c.isSubtypeOf "paint.Shade" = true ∧
      ∃ k, painted.CarriesNames k c ∧ painted.supertypeClosure k = ["paint.Shade"]) ∧
    ∃ a c, (Node.element e).follow? [.annotations 0] = some (.mark a) ∧
      (Node.mark a).follow? [.argument "shade", .enumType, .element] =
        some (.element (.classLike c)) ∧
      c.header.qualifiedName = some "paint.Color" ∧ c.isSubtypeOf "paint.Shade" = false ∧
      ∃ k, painted.IdentityOnly k c := by
  have hsize : 18 < painted.size := by decide +kernel
  obtain ⟨e, he, houtside, hinside⟩ := names_carried hsize .full
  have hproperty : ∃ p s c,
      ((painted.element? .full 18).bind fun e => (Node.element e).hop? (.enclosed 0)) =
        some (.element p) ∧
      (Node.element p).hop? .type = some (.type s) ∧
      (Node.type s).hop? .element = some (.element (.classLike c)) ∧
      c.header.qualifiedName = some "paint.Color" ∧ c.allSupertypes = ["paint.Shade"] :=
    ⟨_, _, _, rfl, rfl, rfl, rfl, by decide +kernel⟩
  have hannotation : ∃ a c,
      ((painted.element? .full 18).bind fun e => (Node.element e).follow? [.annotations 0]) =
        some (.mark a) ∧
      (Node.mark a).follow? [.argument "shade", .enumType, .element] =
        some (.element (.classLike c)) ∧
      c.header.qualifiedName = some "paint.Color" ∧ c.isSubtypeOf "paint.Shade" = false :=
    ⟨_, _, rfl, rfl, rfl, by decide +kernel⟩
  obtain ⟨p, s, c, hp, hs, hc, hname, habove⟩ := hproperty
  obtain ⟨a, c', ha, hc', hname', hsub'⟩ := hannotation
  rw [he, Option.bind_some] at hp ha
  refine ⟨hsize, e, he, ⟨c, ?_, hname, ?_, ?_⟩, a, c', ha, hc', hname', hsub', ?_⟩
  · simp [Node.follow?, hp, hs, hc]
  · rw [isSubtypeOf_iff, habove]
    exact Or.inr List.mem_cons_self
  · have hreached : (Node.element e).HoldsOutside (.element (.classLike c)) :=
      ((Relation.ReflTransGen.single ⟨hop?_mem_parts hp, id⟩).tail ⟨hop?_mem_parts hs, id⟩).tail
        ⟨hop?_mem_parts hc, id⟩
    obtain ⟨k, hk⟩ := houtside c hreached
    exact ⟨k, hk, hk.above.symm.trans habove⟩
  · exact hinside (.mark a) c' (holds_of_follow? ha) trivial (holds_of_follow? hc')

/-- The way from an annotated class to the enum behind the argument of its annotation. -/
def tintPath : List Hop := [.annotations 0, .argument "shade", .enumType, .element]

/-- **The names above a class are left out where an annotation refers to it**: the enum of the
annotation's argument has no type above it and is no subtype of its interface, which stands above
the enum itself. -/
theorem names_left_out_palette : Reachable palette ∧
    palette.supertypeClosure 15 = ["paint.Shade"] ∧
    ∀ depth, ∃ c, ((palette.element? depth 18).bind fun e => (Node.element e).follow? tintPath) =
        some (.element (.classLike c)) ∧
      c.header.qualifiedName = some "paint.Color" ∧ c.allSupertypes = [] ∧
      c.isSubtypeOf "paint.Shade" = false ∧
      (palette.classElement? depth 15).map (fun e => e.isSubtypeOf "paint.Shade") = some true := by
  refine ⟨reachable_palette, by decide +kernel, fun depth => ?_⟩
  cases depth <;> exact ⟨_, rfl, rfl, rfl, by decide +kernel, by decide +kernel⟩

end SymbolTable
end SymbolGraph
