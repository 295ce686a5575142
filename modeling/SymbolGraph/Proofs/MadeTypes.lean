/-
# Types that were put together

A type is made by the functions that put types together, or it is the type of a
reference (`Ty.Made`). What each of these functions gives, and the marks of a reference
keep, holds at every place of such a type (`Ty.KeptInMaking.made`). For the types of
references this is read off where they come from: what stands in one is the type of a
reference again, of an argument, or the type that a class is nested in.

So at every place the text is the one that the parts render to, and the kind, the
qualified name, the arguments and the bounds are those that go with what the type consists
of (`Ty.Fits`), with no arguments or bounds besides (`Ty.Tidy`).

Key definitions: `Ty.Made`, `Ty.Suits`, `Ty.Fits`, `Ty.WellFormed`, `Ty.Tidy`,
`Ty.KeptInMaking`.
Key theorems: `Ty.KeptInMaking.converted`, `Ty.KeptInMaking.made`, `Ty.Made.wellFormed`,
`Ty.Made.tidy`.
-/
import SymbolGraph.Proofs.Origins
import SymbolGraph.Proofs.Resolution

namespace SymbolGraph
namespace Ty

/-- A type that was put together, or that a reference has in some table. -/
inductive Made : Ty → Prop
  | unknown : Made .unknown
  | noType (kind : TypeKind) : Made (.noType kind)
  | primitive (kind : TypeKind) : Made (.primitive kind)
  | declared (element : ClassElement) {arguments : List Ty} (h : ∀ s ∈ arguments, Made s) :
    Made (.declared element arguments)
  | array {component : Ty} (h : Made component) : Made (.array component)
  | typeVariable {parameter : TypeParameter} (h : ∀ s ∈ parameter.bounds, Made s) :
    Made (.typeVariable parameter)
  | wildcard {upper lower : Option Ty} (hupper : ∀ s ∈ upper, Made s)
      (hlower : ∀ s ∈ lower, Made s) : Made (.wildcard upper lower)
  | withNullable {type : Ty} (h : Made type) (nullable : Bool) : Made (type.withNullable nullable)
  | typeOf (t : SymbolTable) (depth : Depth) (r : TypeRef) : Made (t.typeOf depth r)

/-! ### What goes with what a type consists of -/

/-- The kind, the name, the arguments and the bounds are those of what the type consists of. -/
def Suits (type : Ty) : Prop :=
  match type.form with
  | .primitive => ∃ p, type.kind = .primitive p ∧ type.qualifiedName = some p.name
  | .array component =>
    type.kind = .array ∧ type.qualifiedName = some Builtin.array ∧ type.arguments = [component]
  | .declared element _ =>
    type.kind = .declared ∧ type.qualifiedName = element.header.qualifiedName
  | .variable parameter =>
    type.kind = .variable ∧ type.qualifiedName = none ∧ type.upperBounds = parameter.bounds
  | .wildcard =>
    type.kind = .wildcard ∧ type.qualifiedName = none ∧
      type.upperBounds.length ≤ 1 ∧ type.lowerBounds.length ≤ 1
  | .noType =>
    type.kind = .unit ∧ type.qualifiedName = some Builtin.unit ∨
      type.kind = .nothing ∧ type.qualifiedName = some Builtin.nothing
  | .unknown => ∃ nullable, type = unknown.withNullable nullable

/-- The type has the text that its parts render to, and suits what it consists of. -/
structure Fits (type : Ty) : Prop where
  text : type.canonicalName = type.render
  suits : type.Suits

/-- The type fits, and so do all the types that it contains. -/
def WellFormed (type : Ty) : Prop := ∀ s, type.Contains s → s.Fits

theorem wellFormed_iff {type : Ty} :
    type.WellFormed ↔ type.Fits ∧ ∀ part ∈ type.constituents, part.WellFormed :=
  forall_contains_iff

theorem WellFormed.fits {type : Ty} (h : type.WellFormed) : type.Fits := h type .refl

theorem WellFormed.upperBound {type bound : Ty} (h : type.WellFormed)
    (hb : bound ∈ type.upperBounds) : bound.WellFormed :=
  (wellFormed_iff.mp h).2 bound (by simp [constituents, hb])

/-- Whether null is admitted is no matter of what the type consists of. -/
theorem Fits.withNullable {type : Ty} (h : type.Fits) (nullable : Bool) :
    (type.withNullable nullable).Fits := by
  refine ⟨rfl, ?_⟩
  have hsuits := h.suits
  obtain ⟨kind, canonicalName, qualifiedName, null, arguments, upper, lower, declaration,
    annotations, form⟩ := type
  cases form with
  | unknown =>
    obtain ⟨null', heq⟩ := hsuits
    rw [heq]
    exact ⟨nullable, rfl⟩
  | _ => exact hsuits

/-- The type has no arguments and no bounds but those that what it consists of has. -/
def Tidy (type : Ty) : Prop :=
  match type.form with
  | .primitive | .noType | .unknown =>
    type.arguments = [] ∧ type.upperBounds = [] ∧ type.lowerBounds = []
  | .array component =>
    type.arguments = [component] ∧ type.upperBounds = [] ∧ type.lowerBounds = []
  | .declared _ _ => type.upperBounds = [] ∧ type.lowerBounds = []
  | .variable parameter =>
    type.arguments = [] ∧ type.upperBounds = parameter.bounds ∧ type.lowerBounds = []
  | .wildcard => type.arguments = []

/-! ### What is kept in making -/

/-- What each function that puts a type together gives, and the marks of a reference keep. A type
that was not found has no marks but the one for null. -/
structure KeptInMaking (Q : Ty → Prop) : Prop where
  unknown : Q .unknown
  noType : ∀ kind, Q (.noType kind)
  ofPrimitive : ∀ p, Q (.ofPrimitive p)
  declared : ∀ (element : ClassElement) (arguments : List Ty) (enclosing : Option Ty),
    Q { Ty.declared element arguments with form := .declared element enclosing }
  array : ∀ component, Q (.array component)
  typeVariable : ∀ parameter, Q (.typeVariable parameter)
  wildcard : ∀ upper lower, Q (.wildcard upper lower)
  withNullable : ∀ (type : Ty) (nullable : Bool), Q type → Q (type.withNullable nullable)
  marks : ∀ (type : Ty) (declaration : Option Element) (annotations : List Annotation),
    type.isUnknown = false → Q type → Q { type with declaration, annotations }

theorem keptInMaking_fits : KeptInMaking Fits where
  unknown := ⟨rfl, false, rfl⟩
  noType kind := by
    cases kind with
    | nothing => exact ⟨rfl, Or.inr ⟨rfl, rfl⟩⟩
    | _ => exact ⟨rfl, Or.inl ⟨rfl, rfl⟩⟩
  ofPrimitive p := ⟨rfl, p, rfl, rfl⟩
  declared _ _ _ := ⟨rfl, rfl, rfl⟩
  array _ := ⟨rfl, rfl, rfl, rfl⟩
  typeVariable _ := ⟨rfl, rfl, rfl, rfl⟩
  wildcard upper lower := by
    refine ⟨rfl, rfl, rfl, ?_, ?_⟩
    · cases upper <;> simp [Ty.wildcard, rendered]
    · cases lower <;> simp [Ty.wildcard, rendered]
  withNullable _ nullable h := h.withNullable nullable
  marks type _ _ hfound h := by
    refine ⟨h.text, ?_⟩
    have hsuits := h.suits
    obtain ⟨kind, canonicalName, qualifiedName, null, arguments, upper, lower, declaration,
      annotations, form⟩ := type
    cases form with
    | unknown => exact absurd hfound (by simp [isUnknown])
    | _ => exact hsuits

theorem keptInMaking_tidy : KeptInMaking Tidy where
  unknown := ⟨rfl, rfl, rfl⟩
  noType kind := by cases kind <;> exact ⟨rfl, rfl, rfl⟩
  ofPrimitive _ := ⟨rfl, rfl, rfl⟩
  declared _ _ _ := ⟨rfl, rfl⟩
  array _ := ⟨rfl, rfl, rfl⟩
  typeVariable _ := ⟨rfl, rfl, rfl⟩
  wildcard _ _ := rfl
  withNullable _ _ h := h
  marks _ _ _ _ h := h

end Ty

/-! ### Types of references -/

namespace SymbolTable

variable {t : SymbolTable}

theorem mem_parts_of_mem_constituents {type part : Ty} (h : part ∈ type.constituents) :
    Node.type part ∈ type.parts := by
  rw [Ty.constituents, List.mem_append, Option.mem_toList] at h
  rcases h with hargument | hcomponent
  · exact List.mem_append_left _ (List.mem_append_left _ (List.mem_append_left _
      (List.mem_map.mpr ⟨part, hargument, rfl⟩)))
  · have hform : type.form = .array part := by
      unfold Ty.component? at hcomponent
      split at hcomponent
      · rename_i heq
        rw [heq, Option.some.inj hcomponent]
      · exact absurd hcomponent (by simp)
    refine List.mem_append_right _ ?_
    rw [hform]
    exact List.mem_singleton_self _

theorem holds_of_contains {type s : Ty} (h : type.Contains s) :
    (Node.type type).Holds (.type s) :=
  Relation.ReflTransGen.lift Node.type (fun _ _ hpart => mem_parts_of_mem_constituents hpart)
    type s h

/-- What a converted type contains is converted: no annotation and no constant is on the way. -/
theorem Converted.contains {type s : Ty} (h : t.Converted (.type type)) (hs : type.Contains s) :
    t.Converted (.type s) := by
  induction hs with
  | refl => exact h
  | tail _ hpart ih =>
    exact (ih.follows _ (mem_parts_of_mem_constituents hpart)).resolve_right fun hm => hm.1

end SymbolTable

namespace Ty

open SymbolTable (Converted projected)

variable {t : SymbolTable} {class? : DeclId → Option ClassElement}
  {parameter? : DeclId → Option TypeParameter} {arguments : List Ty} {Q : Ty → Prop}

namespace KeptInMaking

theorem typeOfTarget (h : KeptInMaking Q) (id : DeclId) (d : Declaration) :
    Q (t.typeOfTarget class? parameter? arguments id d) := by
  unfold SymbolTable.typeOfTarget
  cases d.typeKind with
  | primitive p => exact h.ofPrimitive p
  | unit | nothing => exact h.noType _
  | array => exact h.array _
  | wildcard | other => exact h.unknown
  | «variable» =>
    cases parameter? id with
    | none => exact h.unknown
    | some p => exact h.typeVariable p
  | declared =>
    cases class? id with
    | none => exact h.unknown
    | some element => exact h.declared element _ _

theorem assembleType (h : KeptInMaking Q) (depth : Depth) (r : TypeRef) :
    Q (t.assembleType depth class? parameter? arguments r) := by
  unfold SymbolTable.assembleType
  split
  · exact h.unknown
  · split
    · exact h.unknown
    · rename_i id _ _ d _
      have htarget : Q (t.typeOfTarget class? parameter? arguments id d) := h.typeOfTarget id d
      unfold SymbolTable.marked
      split
      · exact htarget
      · rename_i hfound
        exact h.marks _ _ _ (eq_false_of_ne_true hfound) (h.withNullable _ r.nullable htarget)

theorem signatureType (h : KeptInMaking Q) (r : TypeRef) : Q (t.signatureType r) := by
  obtain ⟨target, arguments, nullable, annotations⟩ := r
  rw [SymbolTable.signatureType]
  exact h.assembleType .flat _

theorem signatureArgument (h : KeptInMaking Q) (a : TypeArgument) : Q (t.signatureArgument a) := by
  obtain ⟨projection, type⟩ := a
  cases type with
  | none =>
    rw [SymbolTable.signatureArgument]
    exact h.wildcard none none
  | some r =>
    rw [SymbolTable.signatureArgument]
    cases projection with
    | invariant => exact h.signatureType r
    | covariant | contravariant | star => exact h.wildcard _ _

theorem enclosingType? (h : KeptInMaking Q) {d : Declaration} {o : Ty}
    (ho : t.enclosingType? d = some o) : Q o := by
  obtain ⟨owner, -, ho⟩ := Option.bind_eq_some_iff.mp ho
  obtain ⟨c, -, ho⟩ := Option.bind_eq_some_iff.mp ho
  obtain ⟨s, -, ho⟩ := Option.bind_eq_some_iff.mp ho
  rw [← Option.some.inj ho]
  exact h.marks _ _ _ rfl (h.declared c [] none)

/-- **What is kept in making holds of every type among what is converted.** -/
theorem converted (h : KeptInMaking Q) {type : Ty} (htype : t.Converted (.type type)) :
    Q type := by
  cases htype with
  | type depth r =>
    cases depth with
    | full => exact h.assembleType .bounded r
    | bounded | flat => exact h.signatureType r
  | argument a => exact h.signatureArgument a
  | enclosing ho => exact h.enclosingType? ho
  | unit => exact h.noType .unit
  | unknown => exact h.unknown

/-- In annotations and constants stand the types of classes and types that were not found. -/
theorem inRemark (h : KeptInMaking Q) {type : Ty} (htype : t.InRemark (.type type)) : Q type := by
  cases htype with
  | headerType id =>
    unfold SymbolTable.headerType
    split
    · exact h.unknown
    · split
      · exact h.unknown
      · exact h.marks _ _ _ rfl (h.declared _ [] none)
  | unknown => exact h.unknown

/-- **What is kept in making holds at every place of a type that was put together.** -/
theorem made (h : KeptInMaking Q) {type : Ty} (htype : type.Made) :
    ∀ s, type.Contains s → Q s := by
  induction htype with
  | unknown => exact forall_contains_iff.mpr ⟨h.unknown, by simp⟩
  | noType kind => exact forall_contains_iff.mpr ⟨h.noType kind, by simp⟩
  | primitive kind =>
    unfold Ty.primitive
    split
    · exact forall_contains_iff.mpr ⟨h.ofPrimitive _, by simp⟩
    · exact forall_contains_iff.mpr ⟨h.unknown, by simp⟩
  | @declared element arguments _ ih =>
    have hself : Q (.declared element arguments) := h.declared element arguments none
    exact forall_contains_iff.mpr ⟨hself, by simpa using ih⟩
  | array _ ih => exact forall_contains_iff.mpr ⟨h.array _, by simpa using ih⟩
  | typeVariable _ ih => exact forall_contains_iff.mpr ⟨h.typeVariable _, by simpa using ih⟩
  | wildcard _ _ ihupper ihlower =>
    refine forall_contains_iff.mpr ⟨h.wildcard _ _, ?_⟩
    rw [constituents_wildcard, List.forall_mem_append]
    exact ⟨fun s hs => ihupper s (Option.mem_toList.mp hs),
      fun s hs => ihlower s (Option.mem_toList.mp hs)⟩
  | withNullable _ nullable ih =>
    obtain ⟨hself, hparts⟩ := forall_contains_iff.mp ih
    exact forall_contains_iff.mpr ⟨h.withNullable _ nullable hself, hparts⟩
  | typeOf t depth r => exact fun s hs => h.converted ((Converted.type depth r).contains hs)

end KeptInMaking

end Ty

theorem SymbolTable.Converted.wellFormed {t : SymbolTable} {type : Ty}
    (h : t.Converted (.type type)) : type.WellFormed :=
  fun _ hs => Ty.keptInMaking_fits.converted (h.contains hs)

namespace Ty

/-- **A type that was put together fits at every place of it.** -/
theorem Made.wellFormed {type : Ty} (h : type.Made) : type.WellFormed := keptInMaking_fits.made h

/-- A type that was put together has no arguments and bounds to spare, at every place of it. -/
theorem Made.tidy {type : Ty} (h : type.Made) : ∀ s, type.Contains s → s.Tidy :=
  keptInMaking_tidy.made h

/-- The type of an argument is put together too. -/
theorem Made.typeOfArgument (t : SymbolTable) (depth : Depth) (a : TypeArgument) :
    (t.typeOfArgument depth a).Made := by
  have hstar : (Ty.wildcard none none).Made :=
    .wildcard (fun s hs => absurd hs (by simp)) fun s hs => absurd hs (by simp)
  have hone : ∀ r, ∀ s ∈ some (t.typeOf depth r), s.Made := fun r s hs =>
    Option.some.inj hs ▸ .typeOf t depth r
  unfold SymbolTable.typeOfArgument
  split
  · exact hstar
  · rename_i r _
    cases a.projection with
    | invariant => exact .typeOf t depth r
    | covariant => exact .wildcard (hone r) fun s hs => absurd hs (by simp)
    | contravariant => exact .wildcard (fun s hs => absurd hs (by simp)) (hone r)
    | star => exact hstar

end Ty
end SymbolGraph
