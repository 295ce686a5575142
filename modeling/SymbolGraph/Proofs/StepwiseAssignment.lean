/-
# Assigning in two steps

If a value of one type can be stored as a second, and of the second as a third, one
would store it as the third at once. Assignability compares names, and there it can
fail in two places, both at the class in the middle. Where two files declare a class
under one name, the first type may go by the name of the one while the third stands
above the other only. And a primitive can be stored as its wrapper, but carries no
names from above the wrapper, as the type of a primitive has no class behind it; the
same goes for a class whose supertype is the primitive. In `numbers` both happen.

Nothing else is in the way (`isAssignableTo_trans`). What the second step can lose is a
step up. If the class in the middle is the only declaration of its name, and the first
type goes by that name without boxing, then the class is the one of the first type or
stands above it, and so does all that stands above the middle.

Key definitions: `Ty.Named`, `SymbolTable.PointsAtNamed`, `SymbolTable.carriedNames`,
`SymbolTable.Bears`.
Key theorems: `SymbolTable.typeOf_named`, `SymbolTable.Reachable.nothing_above_top`,
`SymbolTable.isAssignableTo_trans`, `SymbolTable.no_shortcut_numbers`.
-/
import SymbolGraph.Proofs.UnrelatedClasses

namespace SymbolGraph

open Primitive (unwrap)

/-! ### Names up to wrappers -/

theorem Primitive.wrapper_of_ofWrapper? {name : String} {p : Primitive}
    (h : ofWrapper? name = some p) : p.wrapper = name := by
  simpa using List.find?_some h

theorem Primitive.name_injective : Function.Injective name := by
  intro p q h
  have hsome : some p = some q := by rw [← ofName?_name p, h, ofName?_name q]
  exact Option.some.inj hsome

/-- A name that counts as another, which is no primitive's, is that name, or is the primitive's
that the other wraps. -/
theorem Primitive.eq_or_primitive_of_unwrap {m n : String} (hprimitive : ofName? n = none)
    (h : unwrap m = unwrap n) : m = n ∨ ∃ p, ofWrapper? n = some p ∧ m = p.name := by
  cases hn : ofWrapper? n with
  | none =>
    have hself : unwrap n = n := (unwrap_eq_iff hn hprimitive).mpr rfl
    rw [hself, unwrap_eq_iff hn hprimitive] at h
    exact Or.inl h
  | some p =>
    have hname : unwrap n = p.name := by rw [unwrap, hn]
    rw [hname] at h
    cases hm : ofWrapper? m with
    | none =>
      rw [unwrap, hm] at h
      exact Or.inr ⟨p, rfl, h⟩
    | some q =>
      -- wrappers of one primitive are one wrapper
      have hname' : unwrap m = q.name := by rw [unwrap, hm]
      obtain rfl : q = p := name_injective (hname'.symm.trans h)
      rw [← wrapper_of_ofWrapper? hm, ← wrapper_of_ofWrapper? hn]
      exact Or.inl rfl

/-! ### The type of a class with a name -/

namespace Ty

/-- A type of a class with a qualified name, as far as assignability looks at it. -/
structure Named (type : Ty) (name : String) (above : List String) (nullable : Bool) : Prop where
  known : type.isUnknown = false
  /-- Only the class of that name has the bottom type. -/
  bottom : type.kind = .nothing → name = Builtin.nothing
  erasedName : type.erasedName = name
  supertypeNames : type.supertypeNames = above
  nullable : type.nullable = nullable

theorem OfClass.named {s : Ty} {name : String} {above : List String} {null : Bool}
    (h : s.OfClass name above null) : s.Named name above null where
  known := h.known
  bottom hk := absurd (h.kind.symm.trans hk) (by simp)
  erasedName := h.erasedName
  supertypeNames := h.supertypeNames
  nullable := h.nullable

/-- Types of classes with names are compared by their names, the names above the given one
and null. -/
theorem Named.isAssignableTo_iff {s o : Ty} {name target : String} {above above' : List String}
    {null null' : Bool} (hs : s.Named name above null) (ho : o.Named target above' null') :
    s.isAssignableTo o = true ↔
      (null = false ∨ null' = true) ∧
      (s.kind = .nothing ∨ unwrap target = Builtin.any ∨ unwrap name = unwrap target ∨
        ∃ n ∈ above, unwrap n = unwrap target) := by
  rw [Ty.isAssignableTo_iff, and_iff_right ⟨hs.known, ho.known⟩, GoesBy, hs.nullable,
    hs.erasedName, hs.supertypeNames, ho.nullable, ho.erasedName]

end Ty

namespace SymbolTable

variable {t : SymbolTable}

/-- A reference points at the class `id`, which goes by a qualified name; it may be a primitive,
an array or the like. -/
structure PointsAtNamed (t : SymbolTable) (r : TypeRef) (id : DeclId) (name : String) : Prop where
  resolved : t.resolve? r = some id
  declared : ∃ d, t.decl? id = some d ∧ d.asClass.isSome ∧ d.qualifiedName = some name

/-- The names that the type of a class carries: those above it, or none if the class is a
primitive, an array or the like. -/
def carriedNames (t : SymbolTable) (id : DeclId) (name : String) : List String :=
  if Declaration.typeKindOfClass (some name) = .declared then t.supertypeClosure id else []

theorem PointsAtNamed.qualifiedName? {r : TypeRef} {id : DeclId} {name : String}
    (h : t.PointsAtNamed r id name) : t.qualifiedName? id = some name := by
  obtain ⟨d, hd, -, hname⟩ := h.declared
  rw [SymbolTable.qualifiedName?, hd, Option.bind_some, hname]

theorem PointsAtNamed.lt_size {r : TypeRef} {id : DeclId} {name : String}
    (h : t.PointsAtNamed r id name) : id < t.size :=
  lt_size_of_qualifiedName? h.qualifiedName?

/-- A class with a sort of type of its own goes by its name, and carries no others. -/
theorem assembleType_named {r : TypeRef} {o : Declaration} {c : ClassShape} {name : String}
    (ho : t.target? r = some o) (hc : o.asClass = some c) (hname : o.qualifiedName = some name)
    (hkind : Declaration.typeKindOfClass (some name) ≠ .declared) (depth : Depth)
    (class? : DeclId → Option ClassElement) (parameter? : DeclId → Option TypeParameter)
    (arguments : List Ty) :
    (t.assembleType depth class? parameter? arguments r).Named name [] r.nullable := by
  have hclass : o.typeKind = Declaration.typeKindOfClass o.qualifiedName := by
    rw [Declaration.typeKind, Draft.asClass_eq_some_iff.mp hc]
  have honly : ∀ only, o.typeKind.uniqueName? = some only → only = name := by
    intro only h
    have heq := Declaration.eq_of_uniqueName? (hclass ▸ h)
    exact Option.some.inj (heq.symm.trans hname)
  obtain ⟨id, -, heq⟩ : ∃ id, t.decl? id = some o ∧
      t.assembleType depth class? parameter? arguments r =
        t.marked depth r o (t.typeOfTarget class? parameter? arguments id o) :=
    assembleType_of_target? ho depth
  rw [heq]
  unfold typeOfTarget
  cases hk : o.typeKind with
  | primitive p => exact ⟨rfl, fun h => (by cases h), honly p.name (by rw [hk]; rfl), rfl, rfl⟩
  | unit => exact ⟨rfl, fun h => (by cases h), honly Builtin.unit (by rw [hk]; rfl), rfl, rfl⟩
  | nothing =>
    have hbottom : Builtin.nothing = name := honly Builtin.nothing (by rw [hk]; rfl)
    exact ⟨rfl, fun _ => hbottom.symm, hbottom, rfl, rfl⟩
  | array => exact ⟨rfl, fun h => (by cases h), honly Builtin.array (by rw [hk]; rfl), rfl, rfl⟩
  | declared => exact absurd (hname ▸ hclass.symm.trans hk) hkind
  | «variable» => exact absurd (hclass.symm.trans hk) (Declaration.typeKindOfClass_ne _).2.2
  | wildcard => exact absurd hk o.typeKind_ne_wildcard
  | other => exact absurd (hclass.symm.trans hk) (Declaration.typeKindOfClass_ne _).1

/-- **The type of a reference to a class with a name** goes by the name, at every depth. -/
theorem typeOf_named {r : TypeRef} {id : DeclId} {name : String} (h : t.PointsAtNamed r id name)
    (depth : Depth) :
    (t.typeOf depth r).Named name (t.carriedNames id name) r.nullable := by
  obtain ⟨d, hd, hclass, hname⟩ := h.declared
  obtain ⟨c, hc⟩ := Option.isSome_iff_exists.mp hclass
  have htarget : t.target? r = some d := by rw [target?, h.resolved, Option.bind_some, hd]
  by_cases hkind : Declaration.typeKindOfClass (some name) = .declared
  · rw [carriedNames, if_pos hkind]
    have hdeclared : d.typeKind = .declared := by
      rw [Declaration.typeKind, Draft.asClass_eq_some_iff.mp hc, hname]
      exact hkind
    exact (typeOf_ofClass ⟨h.resolved, d, hd, hdeclared, hname⟩ depth).named
  · rw [carriedNames, if_neg hkind]
    have hsignature : (t.signatureType r).Named name [] r.nullable := by
      obtain ⟨target, arguments, nullable, annotations⟩ := r
      unfold signatureType
      exact assembleType_named htarget hc hname hkind .flat _ _ _
    cases depth with
    | full => exact assembleType_named htarget hc hname hkind .bounded _ _ _
    | bounded => exact hsignature
    | flat => exact hsignature

/-! ### Nothing stands above the top type -/

/-- Every table has the class of the top type in its first place, without supertypes. -/
theorem Reachable.nothing_above_top (h : Reachable t) :
    ∃ d, t.decl? 0 = some d ∧ d.qualifiedName = some Builtin.any ∧
      ∀ c, d.asClass = some c → c.superTypes = [] := by
  obtain ⟨cs, rfl⟩ := h
  refine run_induction (P := fun t => ∃ d, t.decl? 0 = some d ∧
    d.qualifiedName = some Builtin.any ∧ ∀ c, d.asClass = some c → c.superTypes = [])
    (fun _ _ _ ht => ht) ?_ cs ?_
  · rintro t t' place draft ⟨d, hd, hname, hsupers⟩ hdeclare
    obtain ⟨new, hadds⟩ := adds_of_declare? hdeclare
    obtain ⟨e, he, hsame⟩ := hadds.kept 0 d hd
    exact ⟨e, he, hsame.qualifiedName ▸ hname, hsame.draft ▸ hsupers⟩
  · have htop : ∃ d ∈ builtin.decl? 0, d.qualifiedName = some Builtin.any ∧
        ∀ c ∈ d.asClass, c.superTypes = [] := by decide +kernel
    exact htop

/-- If the name of the top type was not taken again, its class carries no names. -/
theorem carriedNames_top (h : Reachable t) {id : DeclId}
    (honly : ∀ j, t.qualifiedName? j = some Builtin.any → j = id) :
    t.carriedNames id Builtin.any = [] := by
  obtain ⟨d, hd, hname, hsupers⟩ := h.nothing_above_top
  obtain rfl : 0 = id := honly 0 (by rw [qualifiedName?, hd, Option.bind_some, hname])
  have hnone : t.superDecls 0 = [] := by
    rw [superDecls, hd, Option.bind_some]
    cases hc : d.asClass with
    | none => rfl
    | some c => simp [hsupers c hc]
  have hclosure : t.supertypeClosure 0 = [] := by
    rw [List.eq_nil_iff_forall_not_mem]
    intro n hn
    obtain ⟨j, -, habove, -⟩ := (mem_supertypeClosure_iff h.closed (lt_size_of_decl? hd) n).mp hn
    obtain ⟨k, hstep, -⟩ := Relation.TransGen.head'_iff.mp habove
    exact absurd (mem_superDecls_iff.mpr hstep) (by simp [hnone])
  rw [carriedNames, hclosure, ite_self]

/-! ### From the first class to the one in the middle -/

/-- The type of a class goes by a name as it is written: its own, or one that it carries. -/
def Bears (t : SymbolTable) (id : DeclId) (name n : String) : Prop :=
  name = n ∨ n ∈ t.carriedNames id name

/-- What a type carries is the name of something that stands above its class. -/
theorem above_of_mem_carriedNames (h : Closed t) {id : DeclId} {name n : String}
    (hid : id < t.size) (hn : n ∈ t.carriedNames id name) :
    Declaration.typeKindOfClass (some name) = .declared ∧
      ∃ j, t.Above id j ∧ t.qualifiedName? j = some n := by
  unfold carriedNames at hn
  split at hn
  · rename_i hkind
    obtain ⟨j, -, habove, hname⟩ := (mem_supertypeClosure_iff h hid n).mp hn
    exact ⟨hkind, j, habove, hname⟩
  · exact absurd hn List.not_mem_nil

/-- A type that goes by a name up to wrappers goes by it as it is written, unless it comes to it
by boxing. -/
theorem bears_of_goesBy {id : DeclId} {name target : String}
    (hprimitive : Primitive.ofName? target = none)
    (hboxed : ∀ p, Primitive.ofWrapper? target = some p →
      t.Bears id name p.name → t.Bears id name target)
    (h : unwrap name = unwrap target ∨
      ∃ n ∈ t.carriedNames id name, unwrap n = unwrap target) :
    t.Bears id name target := by
  have hwritten : ∀ n, t.Bears id name n → unwrap n = unwrap target → t.Bears id name target := by
    intro n hn heq
    rcases Primitive.eq_or_primitive_of_unwrap hprimitive heq with rfl | ⟨p, hp, rfl⟩
    · exact hn
    · exact hboxed p hp hn
  rcases h with heq | ⟨n, hn, heq⟩
  · exact hwritten name (Or.inl rfl) heq
  · exact hwritten n (Or.inr hn) heq

/-- If a name has one declaration, what goes by it is that class or stands below it, and so goes
by all that stands above it. -/
theorem Bears.trans (h : Closed t) {a b : DeclId} {na nb n : String}
    (ha : t.qualifiedName? a = some na) (hb : t.qualifiedName? b = some nb)
    (honly : ∀ j, t.qualifiedName? j = some nb → j = b) (hab : t.Bears a na nb)
    (hn : n ∈ t.carriedNames b nb) : t.Bears a na n := by
  rcases hab with rfl | hab
  · exact Or.inr (honly a ha ▸ hn)
  · obtain ⟨hkind, i, habove, hi⟩ := above_of_mem_carriedNames h (lt_size_of_qualifiedName? ha) hab
    obtain rfl := honly i hi
    obtain ⟨-, j, hup, hj⟩ := above_of_mem_carriedNames h (lt_size_of_qualifiedName? hb) hn
    by_cases hself : j = a
    · -- in a circle what stands above the middle is the first class again
      subst hself
      exact Or.inl (Option.some.inj (ha.symm.trans hj))
    · rw [Bears, carriedNames, if_pos hkind,
        mem_supertypeClosure_iff h (lt_size_of_qualifiedName? ha)]
      exact Or.inr ⟨j, hself, habove.trans hup, hj⟩

/-- **What can be stored in two steps can be stored in one**, unless the second step goes up from
the class in the middle and that class is met under a name that is not its own alone: there is a
second declaration of the name, or the class is a wrapper and the first type comes to it from its
primitive only. The bottom type is excluded in the middle, as it can be stored as everything. -/
theorem isAssignableTo_trans (h : Reachable t) {a b c : DeclId} {na nb nc : String}
    {ra rb rc : TypeRef} (ha : t.PointsAtNamed ra a na) (hb : t.PointsAtNamed rb b nb)
    (hc : t.PointsAtNamed rc c nc) (hbottom : nb ≠ Builtin.nothing)
    (hup : unwrap nc ≠ Builtin.any → unwrap nc ≠ unwrap nb →
      (∀ j, t.qualifiedName? j = some nb → j = b) ∧
        ∀ p, Primitive.ofWrapper? nb = some p → t.Bears a na p.name → t.Bears a na nb)
    (da db dc : Depth)
    (hab : (t.typeOf da ra).isAssignableTo (t.typeOf db rb) = true)
    (hbc : (t.typeOf db rb).isAssignableTo (t.typeOf dc rc) = true) :
    (t.typeOf da ra).isAssignableTo (t.typeOf dc rc) = true := by
  have hfirst := typeOf_named ha da
  have hmiddle := typeOf_named hb db
  have hlast := typeOf_named hc dc
  obtain ⟨hnull, hstep⟩ := (hfirst.isAssignableTo_iff hmiddle).mp hab
  obtain ⟨hnull', hstep'⟩ := (hmiddle.isAssignableTo_iff hlast).mp hbc
  have hgoes' := hstep'.resolve_left fun hbot => hbottom (hmiddle.bottom hbot)
  rw [hfirst.isAssignableTo_iff hlast]
  have hadmitted : ra.nullable = false ∨ rc.nullable = true := by
    rcases hnull with hnull | hnull
    · exact Or.inl hnull
    · exact Or.inr (hnull'.resolve_left (by simp [hnull]))
  refine ⟨hadmitted, ?_⟩
  by_cases htop : unwrap nc = Builtin.any
  · exact Or.inr (Or.inl htop)
  by_cases hsame : unwrap nc = unwrap nb
  · rwa [hsame]
  obtain ⟨n, hn, heq⟩ := (hgoes'.resolve_left htop).resolve_left (Ne.symm hsame)
  obtain ⟨honly, hboxed⟩ := hup htop hsame
  rcases hstep with hbot | htop' | hgoes
  · exact Or.inl hbot
  · have hname : nb = Builtin.any := (Primitive.unwrap_eq_iff (by decide) (by decide)).mp htop'
    rw [hname, carriedNames_top h (hname ▸ honly)] at hn
    exact absurd hn List.not_mem_nil
  · have hkind := (above_of_mem_carriedNames h.closed hb.lt_size hn).1
    have hbears : t.Bears a na nb :=
      bears_of_goesBy (Declaration.ofName?_of_declared hkind) hboxed hgoes
    refine Or.inr (Or.inr ?_)
    rcases hbears.trans h.closed ha.qualifiedName? hb.qualifiedName? honly hn with rfl | hcarried
    · exact Or.inl heq
    · exact Or.inr ⟨n, hcarried, heq⟩

/-- The changes that make the table `figures`. -/
def figuresChanges : List Change :=
  [.addFile "src/Figures.kt" "plane",
   .declare (.file 0) (Draft.classLike "Figure" .interfaceType),
   .declare (.file 0)
     ((Draft.classLike "Rectangle" .classType).withSuperType (.named "plane.Figure")),
   .declare (.file 0)
     ((Draft.classLike "Square" .classType).withSuperType (.named "plane.Rectangle"))]

/-- A class with a class above it, and an interface above that. -/
def figures : SymbolTable := builtin.run figuresChanges

theorem reachable_figures : Reachable figures := ⟨figuresChanges, rfl⟩

/-- In the table `figures` a square can be stored as a rectangle that may be null, and that as a
figure that may be null. The square has no supertype of its own but the rectangle, and can be
stored as the figure. -/
theorem isAssignableTo_trans_figures :
    let given : TypeRef := ⟨.named "plane.Square", [], false, []⟩
    let between : TypeRef := ⟨.decl 15, [], true, []⟩
    let expected : TypeRef := ⟨.named "plane.Figure", [], true, []⟩
    figures.PointsAtNamed given 16 "plane.Square" ∧
      figures.PointsAtNamed between 15 "plane.Rectangle" ∧
      figures.PointsAtNamed expected 14 "plane.Figure" ∧
      (∀ j, figures.qualifiedName? j = some "plane.Rectangle" → j = 15) ∧
      figures.superDecls 16 = [15] ∧ figures.superDecls 15 = [14] ∧
      (figures.typeOf .full given).isAssignableTo (figures.typeOf .flat between) = true ∧
      (figures.typeOf .flat between).isAssignableTo (figures.typeOf .full expected) = true ∧
      (figures.typeOf .full given).isAssignableTo (figures.typeOf .full expected) = true := by
  intro given between expected
  have hclasses : ∀ p ∈ [(16, "plane.Square"), (15, "plane.Rectangle"), (14, "plane.Figure")],
      ∃ d ∈ figures.decl? p.1, d.asClass.isSome ∧ d.qualifiedName = some p.2 := by
    decide +kernel
  have ha : figures.PointsAtNamed given 16 "plane.Square" :=
    ⟨by decide +kernel, hclasses (16, "plane.Square") (by simp)⟩
  have hb : figures.PointsAtNamed between 15 "plane.Rectangle" :=
    ⟨by decide +kernel, hclasses (15, "plane.Rectangle") (by simp)⟩
  have hc : figures.PointsAtNamed expected 14 "plane.Figure" :=
    ⟨by decide +kernel, hclasses (14, "plane.Figure") (by simp)⟩
  have honly : ∀ j, figures.qualifiedName? j = some "plane.Rectangle" → j = 15 := by
    decide +kernel
  have hunboxed : Primitive.ofWrapper? "plane.Rectangle" = none := by decide
  have hstep : (figures.typeOf .full given).isAssignableTo (figures.typeOf .flat between) =
      true := by
    decide +kernel
  have hstep' : (figures.typeOf .flat between).isAssignableTo (figures.typeOf .full expected) =
      true := by
    decide +kernel
  exact ⟨ha, hb, hc, honly, by decide +kernel, by decide +kernel, hstep, hstep',
    isAssignableTo_trans reachable_figures ha hb hc (by decide)
      (fun _ _ => ⟨honly, fun p hp => absurd (hunboxed.symm.trans hp) (by simp)⟩)
      .full .flat .full hstep hstep'⟩

/-! ### Two steps without a shortcut -/

/-- The changes that make the table `numbers`. -/
def numbersChanges : List Change :=
  [.addFile "src/Numbers.kt" "java.lang",
   .addFile "lib/Numbers.kt" "java.lang",
   .declare (.file 0) (Draft.classLike "Number" .classType),
   .declare (.file 0)
     ((Draft.classLike "Integer" .classType).withSuperType (.named "java.lang.Number")),
   .declare (.file 1) (Draft.classLike "Comparable" .interfaceType),
   .declare (.file 1)
     ((Draft.classLike "Number" .classType).withSuperType (.named "java.lang.Comparable"))]

/-- A wrapper of a primitive with a class above it, and a second class of that name with another
supertype. -/
def numbers : SymbolTable := builtin.run numbersChanges

theorem reachable_numbers : Reachable numbers := ⟨numbersChanges, rfl⟩

/-- **Two steps need not make one**: a primitive can be stored as its wrapper, and the wrapper as
the class above it, but not the primitive as that class; and the wrapper can be stored as the
second class of that name, which can be stored as its interface, but not the wrapper as the
interface. -/
theorem no_shortcut_numbers : Reachable numbers ∧ ∀ d,
    ((numbers.typeOf d (.named "kotlin.Int")).isAssignableTo
        (numbers.typeOf d (.named "java.lang.Integer")) = true ∧
      (numbers.typeOf d (.named "java.lang.Integer")).isAssignableTo
        (numbers.typeOf d (.named "java.lang.Number")) = true ∧
      (numbers.typeOf d (.named "kotlin.Int")).isAssignableTo
        (numbers.typeOf d (.named "java.lang.Number")) = false) ∧
    numbers.qualifiedName? 17 = some "java.lang.Number" ∧
      (numbers.typeOf d (.named "java.lang.Integer")).isAssignableTo
        (numbers.typeOf d (.decl 17)) = true ∧
      (numbers.typeOf d (.decl 17)).isAssignableTo
        (numbers.typeOf d (.named "java.lang.Comparable")) = true ∧
      (numbers.typeOf d (.named "java.lang.Integer")).isAssignableTo
        (numbers.typeOf d (.named "java.lang.Comparable")) = false := by
  refine ⟨reachable_numbers, fun d => ?_⟩
  cases d <;> decide +kernel

end SymbolTable
end SymbolGraph
