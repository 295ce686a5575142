/-
# What a conversion looks up

A declaration mentions what the references written in it point at: in its annotations,
its supertypes, its signature, its bounds, and inside the arguments, annotations and
constants of those. A conversion looks nothing else up. It also reads declarations by
their handles, and the names of their files, and the handles it comes to belong to the
table. So a table that has these declarations as they are and finds the same behind
every mentioned target converts each of them to the same element, whatever else it holds
(`ReadsAlike.element?_eq`).

The proof follows the conversion. What is written comes first, by induction on
annotations and on references; then the walk along supertypes, which is given more fuel
by a larger table and does not use it; then the conversions of the four kinds, one
depth after the other.

Key definitions: `TypeRef.targets`, `Draft.targets`, `SymbolTable.mentioned`,
`SymbolTable.AnswersAlike`, `SymbolTable.ReadsAlike`.
Key theorems: `SymbolTable.convertUsage_alike`, `SymbolTable.signatureType_alike`,
`SymbolTable.ReadsAlike.supertypeClosure_eq`, `SymbolTable.ReadsAlike.element?_eq`.
-/
import SymbolGraph.Proofs.Converted
import SymbolGraph.Proofs.Supertypes

namespace SymbolGraph

/-! ### The targets of what is written -/

mutual

/-- What a reference points at, and what its arguments and annotations point at. -/
def TypeRef.targets : TypeRef → List Target
  | ⟨target, arguments, _, annotations⟩ =>
    target :: (TypeArgument.allTargets arguments ++ Usage.allTargets annotations)

/-- The targets of the arguments of a list. -/
def TypeArgument.allTargets : List TypeArgument → List Target
  | [] => []
  | a :: as => a.targets ++ TypeArgument.allTargets as

/-- The targets of an argument; a star has none. -/
def TypeArgument.targets : TypeArgument → List Target
  | ⟨_, none⟩ => []
  | ⟨_, some r⟩ => r.targets

/-- The targets of an annotation: of its class and of its arguments. -/
def Usage.targets : Usage → List Target
  | ⟨_, type, arguments⟩ => type.targets ++ Constant.namedTargets arguments

/-- The targets of the annotations of a list. -/
def Usage.allTargets : List Usage → List Target
  | [] => []
  | u :: us => u.targets ++ Usage.allTargets us

/-- The targets of a constant. -/
def Constant.targets : Constant → List Target
  | .enumEntry r | .classLiteral r => r.targets
  | .array values => Constant.allTargets values
  | .nested u => u.targets
  | .string _ | .literal _ | .null => []

/-- The targets of the constants of a list. -/
def Constant.allTargets : List Constant → List Target
  | [] => []
  | c :: cs => c.targets ++ Constant.allTargets cs

/-- The targets of named constants. -/
def Constant.namedTargets : List (String × Constant) → List Target
  | [] => []
  | (_, c) :: rest => c.targets ++ Constant.namedTargets rest

end

def ValueParameter.targets (p : ValueParameter) : List Target :=
  p.type.targets ++ Usage.allTargets p.annotations

def Accessor.targets (a : Accessor) : List Target := Usage.allTargets a.annotations

/-- The targets of what a declaration's kind adds. -/
def Shape.targets : Shape → List Target
  | .classLike c => c.superTypes.flatMap TypeRef.targets
  | .callable c =>
    c.parameters.flatMap ValueParameter.targets ++ (c.returnType.toList.flatMap TypeRef.targets ++
      (c.receiver.toList.flatMap TypeRef.targets ++ c.throws.flatMap TypeRef.targets))
  | .property p =>
    p.type.targets ++ (p.getter.toList.flatMap Accessor.targets ++
      (p.setter.toList.flatMap Accessor.targets ++ (p.receiver.toList.flatMap TypeRef.targets ++
        p.constant.toList.flatMap Constant.targets)))
  | .typeParameter p => p.bounds.flatMap TypeRef.targets

/-- The targets of all references written in a declaration. -/
def Draft.targets (d : Draft) : List Target := Usage.allTargets d.annotations ++ d.shape.targets

theorem TypeRef.target_mem_targets (r : TypeRef) : r.target ∈ r.targets := by
  cases r with
  | mk target arguments nullable annotations =>
    rw [TypeRef.targets]
    exact List.mem_cons_self

theorem Usage.mem_allTargets {us : List Usage} {u : Usage} (hu : u ∈ us) {x : Target}
    (hx : x ∈ u.targets) : x ∈ Usage.allTargets us := by
  induction us with
  | nil => exact absurd hu List.not_mem_nil
  | cons v us ih =>
    rw [Usage.allTargets, List.mem_append]
    rcases List.mem_cons.mp hu with rfl | hu
    · exact Or.inl hx
    · exact Or.inr (ih hu)

/-! ### A walk with more fuel than it needs -/

namespace Walk

variable {α : Type} [DecidableEq α] {next next' : α → List α} {nodes : List α}

/-- Two walks that follow the same steps meet the same nodes in the same order, if both
have fuel for every node. -/
theorem breadthFirst_congr (hnodes : ∀ y ∈ nodes, ∀ z ∈ next y, z ∈ nodes)
    (hnext : ∀ y ∈ nodes, next' y = next y) :
    ∀ (fuel fuel' : Nat) (visited waiting : List α), Underway next nodes visited waiting →
      nodes.length ≤ fuel + visited.length → fuel ≤ fuel' →
      breadthFirst next' fuel' visited waiting = breadthFirst next fuel visited waiting
  | 0, fuel', visited, waiting, h, hlength, _ => by
    have hempty : waiting = [] := h.waiting_eq_nil (by omega)
    subst hempty
    cases fuel' <;> simp [breadthFirst]
  | fuel + 1, fuel' + 1, visited, [], _, _, _ => rfl
  | fuel + 1, fuel' + 1, visited, x :: waiting, h, hlength, hle => by
    have hx : next' x = next x := hnext x (h.inside x (by simp))
    have hvisited : (visited ++ [x]).length = visited.length + 1 := by simp
    rw [breadthFirst, breadthFirst, hx]
    exact breadthFirst_congr hnodes hnext fuel fuel' _ _ (h.visit hnodes) (by omega) (by omega)

end Walk

namespace SymbolTable

/-- The targets of all references written in the declarations of a table. -/
def mentioned (t : SymbolTable) : List Target := t.decls.toList.flatMap fun d => d.targets

/-- The same stands behind each of the targets in both tables, or behind it in neither. -/
def AnswersAlike (t t' : SymbolTable) (targets : List Target) : Prop :=
  ∀ x ∈ targets, t'.resolve? (.plain x) = t.resolve? (.plain x)

/-- The table `t'` has what a conversion reads about the declarations of `t`, as `t` has it. -/
structure ReadsAlike (t t' : SymbolTable) : Prop where
  closed : Closed t
  decl : ∀ i < t.size, t'.decl? i = t.decl? i
  fileRef : ∀ i d, t.decl? i = some d → t'.fileRef? d = t.fileRef? d
  answers : AnswersAlike t t' t.mentioned

variable {t t' : SymbolTable}

theorem mem_mentioned {i : DeclId} {d : Declaration} (hd : t.decl? i = some d) {x : Target}
    (hx : x ∈ d.targets) : x ∈ t.mentioned := by
  have hmem : d ∈ t.decls.toList := Array.mem_toList_iff.mpr (Array.mem_of_getElem? hd)
  exact List.mem_flatMap.mpr ⟨d, hmem, hx⟩

namespace AnswersAlike

variable {xs ys : List Target}

theorem append (h : AnswersAlike t t' (xs ++ ys)) : AnswersAlike t t' xs ∧ AnswersAlike t t' ys :=
  List.forall_mem_append.mp h

/-- What holds of the targets of a list holds of those of its members. -/
theorem flatMap {α : Type} {f : α → List Target} {as : List α}
    (h : AnswersAlike t t' (as.flatMap f)) {a : α} (ha : a ∈ as) : AnswersAlike t t' (f a) :=
  fun x hx => h x (List.mem_flatMap.mpr ⟨a, ha, hx⟩)

theorem toList {α : Type} {f : α → List Target} {o : Option α}
    (h : AnswersAlike t t' (o.toList.flatMap f)) {a : α} (ha : o = some a) :
    AnswersAlike t t' (f a) :=
  h.flatMap (Option.mem_toList.mpr ha)

theorem usage {us : List Usage} (h : AnswersAlike t t' (Usage.allTargets us)) {u : Usage}
    (hu : u ∈ us) : AnswersAlike t t' u.targets :=
  fun x hx => h x (Usage.mem_allTargets hu hx)

/-- Only the target of a reference is looked up. -/
theorem resolve?_eq {r : TypeRef} (h : AnswersAlike t t' r.targets) :
    t'.resolve? r = t.resolve? r :=
  h r.target r.target_mem_targets

end AnswersAlike

/-! ### Declarations, by their handles -/

namespace ReadsAlike

variable (h : ReadsAlike t t') {i : DeclId} {d : Declaration}
include h

theorem decl?_some (hd : t.decl? i = some d) : t'.decl? i = some d :=
  (h.decl i (lt_size_of_decl? hd)).trans hd

/-- The table has room for the declarations of the other. -/
theorem size_le : t.size ≤ t'.size := by
  by_contra hlt
  obtain ⟨d, hd⟩ := decl?_of_lt (Nat.lt_of_not_le hlt)
  exact Nat.lt_irrefl _ (lt_size_of_decl? (h.decl?_some hd))

/-- Handles of the table lead to the same declaration. -/
theorem answersAlike_decl (hi : i < t.size) : AnswersAlike t t' (TypeRef.decl i).targets := by
  intro x hx
  rw [TypeRef.decl, TypeRef.plain, TypeRef.targets, TypeArgument.allTargets, Usage.allTargets,
    List.append_nil, List.mem_singleton] at hx
  subst hx
  simp only [resolve?, TypeRef.plain]
  rw [if_pos hi, if_pos (Nat.lt_of_lt_of_le hi h.size_le)]

/-- What a declaration of the table mentions is found alike. -/
theorem answersAlike_targets (hd : t.decl? i = some d) : AnswersAlike t t' d.targets :=
  fun x hx => h.answers x (mem_mentioned hd hx)

theorem answersAlike_annotations (hd : t.decl? i = some d) :
    AnswersAlike t t' (Usage.allTargets d.annotations) :=
  (h.answersAlike_targets hd).append.1

theorem answersAlike_shape (hd : t.decl? i = some d) {s : Shape} (hs : d.shape = s) :
    AnswersAlike t t' s.targets :=
  hs ▸ (h.answersAlike_targets hd).append.2

theorem stub?_eq (hi : i < t.size) : t'.stub? i = t.stub? i := by
  rw [stub?, h.decl i hi, stub?]

/-- What surrounds a declaration is a declaration of the table. -/
theorem enclosingStub?_eq (hd : t.decl? i = some d) : t'.enclosingStub? d = t.enclosingStub? d := by
  unfold enclosingStub?
  cases hp : d.parent with
  | none => rfl
  | some p => rw [Option.bind_some, Option.bind_some, h.stub?_eq (h.closed.parent i d p hd hp)]

theorem identityClass_eq (hd : t.decl? i = some d) (kind : ClassKind) :
    t'.identityClass d kind = t.identityClass d kind := by
  simp only [identityClass, h.enclosingStub?_eq hd, h.fileRef i d hd]

theorem headerType_eq (hi : i < t.size) : t'.headerType i = t.headerType i := by
  obtain ⟨d, hd⟩ := decl?_of_lt hi
  simp only [headerType, h.decl?_some hd, hd, h.identityClass_eq hd]

/-- A conversion gives the same in both tables if what it makes of the declaration is the
same. -/
theorem conversion_eq {α β : Type} {kind? : Declaration → Option α}
    {convert convert' : Declaration → α → β} (hd : t.decl? i = some d)
    (hconvert : ∀ c, kind? d = some c → convert' d c = convert d c) :
    ((t'.decl? i).bind fun d => (kind? d).bind fun c => some (convert' d c)) =
      (t.decl? i).bind fun d => (kind? d).bind fun c => some (convert d c) := by
  rw [conversion_eq_map (h.decl?_some hd), conversion_eq_map hd]
  cases hc : kind? d with
  | none => rfl
  | some c => rw [Option.map_some, Option.map_some, hconvert c hc]

/-! ### Annotations and constants -/

variable {r : TypeRef}

theorem annotationType_eq (hr : AnswersAlike t t' r.targets) :
    t'.annotationType r = t.annotationType r := by
  unfold annotationType
  rw [hr.resolve?_eq]
  cases hid : t.resolve? r with
  | none => rfl
  | some id => exact h.headerType_eq (h.closed.resolved r id hid)

theorem annotationName?_eq (hr : AnswersAlike t t' r.targets) :
    t'.annotationName? r = t.annotationName? r := by
  unfold annotationName?
  rw [hr.resolve?_eq]
  cases hid : t.resolve? r with
  | none => rfl
  | some id => simp only [h.decl id (h.closed.resolved r id hid)]

theorem target?_eq (hr : AnswersAlike t t' r.targets) : t'.target? r = t.target? r := by
  unfold target?
  rw [hr.resolve?_eq]
  cases hid : t.resolve? r with
  | none => rfl
  | some id => exact h.decl id (h.closed.resolved r id hid)

theorem usageHeader_eq (shortName : String) (hr : AnswersAlike t t' r.targets) :
    t'.usageHeader shortName r = t.usageHeader shortName r := by
  rw [usageHeader, usageHeader, h.annotationType_eq hr, h.annotationName?_eq hr]

theorem classValue_eq (hr : AnswersAlike t t' r.targets) : t'.classValue r = t.classValue r := by
  rw [classValue, classValue, h.annotationName?_eq hr]

theorem enumValue_eq (hr : AnswersAlike t t' r.targets) : t'.enumValue r = t.enumValue r := by
  unfold enumValue
  rw [h.target?_eq hr]
  cases hd : t.target? r with
  | none => rfl
  | some d =>
    obtain ⟨id, -, hid⟩ := Option.bind_eq_some_iff.mp hd
    cases hp : d.parent with
    | none => simp only [hp]
    | some owner => simp only [hp, h.headerType_eq (h.closed.parent id d owner hid hp)]

end ReadsAlike

mutual

/-- An annotation is converted alike, by induction on how it is written. -/
theorem convertUsage_alike (h : ReadsAlike t t') (depth : Depth) :
    ∀ u : Usage, AnswersAlike t t' u.targets → t'.convertUsage depth u = t.convertUsage depth u
  | ⟨shortName, type, arguments⟩, hu => by
    rw [Usage.targets] at hu
    obtain ⟨htype, harguments⟩ := hu.append
    rw [convertUsage, convertUsage, h.usageHeader_eq shortName htype,
      convertArguments_alike h depth arguments harguments]

theorem convertConstant_alike (h : ReadsAlike t t') (depth : Depth) : ∀ c : Constant,
    AnswersAlike t t' c.targets → t'.convertConstant depth c = t.convertConstant depth c
  | .string _, _ => by rw [convertConstant, convertConstant]
  | .literal _, _ => by rw [convertConstant, convertConstant]
  | .enumEntry entry, hc => by
    rw [Constant.targets] at hc
    rw [convertConstant, convertConstant, h.enumValue_eq hc]
  | .classLiteral type, hc => by
    rw [Constant.targets] at hc
    rw [convertConstant, convertConstant, h.classValue_eq hc]
  | .array values, hc => by
    rw [Constant.targets] at hc
    rw [convertConstant, convertConstant, convertConstants_alike h depth.descend values hc]
  | .nested u, hc => by
    rw [Constant.targets] at hc
    have hheader : t'.usageHeader u.shortName u.type = t.usageHeader u.shortName u.type := by
      obtain ⟨shortName, type, arguments⟩ := u
      rw [Usage.targets] at hc
      exact h.usageHeader_eq shortName hc.append.1
    rw [convertConstant, convertConstant, hheader, convertUsage_alike h depth.descend u hc]
  | .null, _ => by rw [convertConstant, convertConstant]

theorem convertConstants_alike (h : ReadsAlike t t') (depth : Depth) : ∀ cs : List Constant,
    AnswersAlike t t' (Constant.allTargets cs) →
      t'.convertConstants depth cs = t.convertConstants depth cs
  | [], _ => by rw [convertConstants, convertConstants]
  | c :: cs, hcs => by
    rw [Constant.allTargets] at hcs
    rw [convertConstants, convertConstants, convertConstant_alike h depth c hcs.append.1,
      convertConstants_alike h depth cs hcs.append.2]

theorem convertArguments_alike (h : ReadsAlike t t') (depth : Depth) :
    ∀ arguments : List (String × Constant), AnswersAlike t t' (Constant.namedTargets arguments) →
      t'.convertArguments depth arguments = t.convertArguments depth arguments
  | [], _ => by rw [convertArguments, convertArguments]
  | (name, c) :: rest, hcs => by
    rw [Constant.namedTargets] at hcs
    rw [convertArguments, convertArguments, convertConstant_alike h depth c hcs.append.1,
      convertArguments_alike h depth rest hcs.append.2]

end

namespace ReadsAlike

variable (h : ReadsAlike t t') {i : DeclId} {d : Declaration}
include h

theorem convertUsages_eq (depth : Depth) {us : List Usage}
    (hus : AnswersAlike t t' (Usage.allTargets us)) :
    us.map (t'.convertUsage depth) = us.map (t.convertUsage depth) :=
  List.map_congr_left fun u hu => convertUsage_alike h depth u (hus.usage hu)

theorem header_eq (hd : t.decl? i = some d) (depth : Depth) (kind : ElementKind) :
    t'.header depth d kind = t.header depth d kind := by
  simp only [header, h.enclosingStub?_eq hd, h.fileRef i d hd,
    h.convertUsages_eq depth (h.answersAlike_annotations hd)]

/-! ### The walk along supertypes -/

theorem superDecls_eq (hi : i < t.size) : t'.superDecls i = t.superDecls i := by
  obtain ⟨d, hd⟩ := decl?_of_lt hi
  unfold superDecls
  rw [h.decl?_some hd, hd, Option.bind_some]
  cases hc : d.asClass with
  | none => rfl
  | some c =>
    have hsuper : AnswersAlike t t' (c.superTypes.flatMap TypeRef.targets) :=
      h.answersAlike_shape hd (Draft.asClass_eq_some_iff.mp hc)
    exact List.filterMap_congr fun r hr => (hsuper.flatMap hr).resolve?_eq

/-- The larger table gives the walk more fuel, and the walk ends where it did. -/
theorem supertypeOrder_eq (hi : i < t.size) : t'.supertypeOrder i = t.supertypeOrder i := by
  have hstart : Walk.Underway t.superDecls (List.range t.size) [] [i] :=
    Walk.Underway.start (List.mem_range.mpr hi)
  refine Walk.breadthFirst_congr (superDecls_inside h.closed) (fun j hj => ?_) t.size t'.size []
    [i] hstart ?_ h.size_le
  · exact h.superDecls_eq (List.mem_range.mp hj)
  · rw [List.length_range, List.length_nil, Nat.add_zero]

theorem supertypeClosure_eq (hi : i < t.size) : t'.supertypeClosure i = t.supertypeClosure i := by
  rw [supertypeClosure, supertypeClosure, h.supertypeOrder_eq hi]
  refine List.filterMap_congr fun j hj => ?_
  have hj' : j < t.size := by
    rcases (mem_supertypeOrder_iff h.closed hi j).mp (List.mem_of_mem_tail hj) with rfl | habove
    · exact hi
    · obtain ⟨k, -, hstep⟩ := Relation.TransGen.tail'_iff.mp habove
      exact Checked.superDecls_lt h.closed (mem_superDecls_iff.mpr hstep)
  rw [h.decl j hj']

/-! ### Types -/

theorem memberlessClass_eq (hd : t.decl? i = some d) (depth : Depth) (c : ClassShape) :
    t'.memberlessClass depth i d c = t.memberlessClass depth i d c := by
  rw [memberlessClass, memberlessClass, h.header_eq hd,
    h.supertypeClosure_eq (lt_size_of_decl? hd)]

theorem flatClass?_eq (hi : i < t.size) : t'.flatClass? i = t.flatClass? i := by
  obtain ⟨d, hd⟩ := decl?_of_lt hi
  exact h.conversion_eq hd fun c _ => h.memberlessClass_eq hd .flat c

theorem boundedTypeParameter_eq (hd : t.decl? i = some d) (depth : Depth) (p : TypeParameterShape)
    (bounds : List Ty) :
    t'.boundedTypeParameter depth d p bounds = t.boundedTypeParameter depth d p bounds := by
  rw [boundedTypeParameter, boundedTypeParameter, h.header_eq hd]

theorem flatTypeParameter?_eq (hi : i < t.size) :
    t'.flatTypeParameter? i = t.flatTypeParameter? i := by
  obtain ⟨d, hd⟩ := decl?_of_lt hi
  exact h.conversion_eq hd fun p _ => h.boundedTypeParameter_eq hd .flat p []

theorem enclosingType?_eq (hd : t.decl? i = some d) : t'.enclosingType? d = t.enclosingType? d := by
  unfold enclosingType?
  cases hp : d.parent with
  | none => rfl
  | some p =>
    have hlt : p < t.size := h.closed.parent i d p hd hp
    simp only [Option.bind_eq_bind, Option.bind_some, h.flatClass?_eq hlt, h.stub?_eq hlt]

variable {class? class?' : DeclId → Option ClassElement}
  {parameter? parameter?' : DeclId → Option TypeParameter}

/-- A type is put together alike, from conversions that answer alike. -/
theorem assembleType_eq (hclass : ∀ i < t.size, class?' i = class? i)
    (hparameter : ∀ i < t.size, parameter?' i = parameter? i) {r : TypeRef}
    (hr : AnswersAlike t t' r.targets) (depth : Depth) (arguments : List Ty) :
    t'.assembleType depth class?' parameter?' arguments r =
      t.assembleType depth class? parameter? arguments r := by
  unfold assembleType
  rw [hr.resolve?_eq]
  cases hid : t.resolve? r with
  | none => rfl
  | some id =>
    have hlt : id < t.size := h.closed.resolved r id hid
    obtain ⟨d, hd⟩ := decl?_of_lt hlt
    have htarget : t'.typeOfTarget class?' parameter?' arguments id d =
        t.typeOfTarget class? parameter? arguments id d := by
      simp only [typeOfTarget, hclass id hlt, hparameter id hlt, nestedType, h.enclosingType?_eq hd]
    have hannotations : AnswersAlike t t' (Usage.allTargets r.annotations) := by
      obtain ⟨target, arguments, nullable, annotations⟩ := r
      rw [TypeRef.targets] at hr
      exact (AnswersAlike.append (List.forall_mem_cons.mp hr).2).2
    simp only [h.decl?_some hd, hd, htarget, marked, h.convertUsages_eq depth hannotations]

end ReadsAlike

mutual

/-- A type in a signature is converted alike, by induction on the reference. -/
theorem signatureType_alike (h : ReadsAlike t t') : ∀ r : TypeRef, AnswersAlike t t' r.targets →
    t'.signatureType r = t.signatureType r
  | ⟨target, arguments, nullable, annotations⟩, hr => by
    have harguments : AnswersAlike t t' (TypeArgument.allTargets arguments) := by
      rw [TypeRef.targets] at hr
      exact (AnswersAlike.append (List.forall_mem_cons.mp hr).2).1
    rw [signatureType, signatureType, signatureArguments_alike h arguments harguments]
    exact h.assembleType_eq (fun _ => h.flatClass?_eq) (fun _ => h.flatTypeParameter?_eq) hr _ _

theorem signatureArguments_alike (h : ReadsAlike t t') : ∀ as : List TypeArgument,
    AnswersAlike t t' (TypeArgument.allTargets as) →
      t'.signatureArguments as = t.signatureArguments as
  | [], _ => by rw [signatureArguments, signatureArguments]
  | a :: as, has => by
    rw [TypeArgument.allTargets] at has
    rw [signatureArguments, signatureArguments, signatureArgument_alike h a has.append.1,
      signatureArguments_alike h as has.append.2]

theorem signatureArgument_alike (h : ReadsAlike t t') : ∀ a : TypeArgument,
    AnswersAlike t t' a.targets → t'.signatureArgument a = t.signatureArgument a
  | ⟨_, none⟩, _ => by rw [signatureArgument, signatureArgument]
  | ⟨_, some r⟩, ha => by
    rw [TypeArgument.targets] at ha
    rw [signatureArgument, signatureArgument, signatureType_alike h r ha]

end

namespace ReadsAlike

variable (h : ReadsAlike t t') {i : DeclId} {d : Declaration}
include h

theorem signatureTypes_eq {rs : List TypeRef}
    (hrs : AnswersAlike t t' (rs.flatMap TypeRef.targets)) :
    rs.map t'.signatureType = rs.map t.signatureType :=
  List.map_congr_left fun r hr => signatureType_alike h r (hrs.flatMap hr)

theorem receiver_eq {o : Option TypeRef}
    (ho : AnswersAlike t t' (o.toList.flatMap TypeRef.targets)) :
    o.map t'.signatureType = o.map t.signatureType :=
  Option.map_congr fun r hr => signatureType_alike h r (ho.toList hr)

theorem typeParameter?_eq (depth : Depth) (hi : i < t.size) :
    t'.typeParameter? depth i = t.typeParameter? depth i := by
  obtain ⟨d, hd⟩ := decl?_of_lt hi
  refine h.conversion_eq hd fun p hp => ?_
  have hbounds : AnswersAlike t t' (p.bounds.flatMap TypeRef.targets) :=
    h.answersAlike_shape hd (Draft.asTypeParameter_eq_some_iff.mp hp)
  rw [h.signatureTypes_eq hbounds, h.boundedTypeParameter_eq hd]

theorem typeParameters_eq (depth : Depth) (hd : t.decl? i = some d)
    (hkind : d.asClass.isSome ∨ d.asCallable.isSome) :
    d.typeParameters.filterMap (t'.typeParameter? depth) =
      d.typeParameters.filterMap (t.typeParameter? depth) :=
  List.filterMap_congr fun p hp =>
    h.typeParameter?_eq depth (h.closed.typeParameters i d hd hkind p hp)

/-! ### Functions and properties -/

theorem parameter_eq (depth : Depth) (hd : t.decl? i = some d) {p : ValueParameter}
    (hp : AnswersAlike t t' p.targets) : t'.parameter depth d p = t.parameter depth d p := by
  obtain ⟨htype, hannotations⟩ := hp.append
  simp only [parameter, signatureType_alike h p.type htype, h.convertUsages_eq depth hannotations,
    h.fileRef i d hd]

/-- A constructor without a return type of its own returns its owner, which is in the table. -/
theorem returnType_eq (hd : t.decl? i = some d) {c : CallableShape}
    (hc : AnswersAlike t t' (c.returnType.toList.flatMap TypeRef.targets)) :
    t'.returnType d c = t.returnType d c := by
  unfold returnType
  cases hr : d.returnType? c with
  | none => rfl
  | some r =>
    refine signatureType_alike h r ?_
    unfold Declaration.returnType? at hr
    cases hwritten : c.returnType with
    | some s =>
      rw [hwritten, Option.some.injEq] at hr
      exact hr ▸ hc.toList hwritten
    | none =>
      rw [hwritten] at hr
      by_cases hconstructor : c.isConstructor
      · rw [if_pos hconstructor] at hr
        obtain ⟨owner, howner, rfl⟩ := Option.map_eq_some_iff.mp hr
        exact h.answersAlike_decl (h.closed.parent i d owner hd howner)
      · rw [if_neg hconstructor] at hr
        exact absurd hr (by simp)

theorem inInterface_eq (hd : t.decl? i = some d) : t'.inInterface d = t.inInterface d := by
  unfold inInterface
  cases hp : d.parent with
  | none => rfl
  | some p => rw [Option.bind_some, Option.bind_some, h.decl p (h.closed.parent i d p hd hp)]

theorem callable?_eq (depth : Depth) (hi : i < t.size) :
    t'.callable? depth i = t.callable? depth i := by
  obtain ⟨d, hd⟩ := decl?_of_lt hi
  refine h.conversion_eq hd fun c hc => ?_
  have htargets := h.answersAlike_shape hd (Draft.asCallable_eq_some_iff.mp hc)
  rw [Shape.targets] at htargets
  obtain ⟨hparameters, hrest⟩ := htargets.append
  obtain ⟨hreturn, hrest⟩ := hrest.append
  obtain ⟨hreceiver, hthrows⟩ := hrest.append
  have hps : c.parameters.map (t'.parameter depth.descend d) =
      c.parameters.map (t.parameter depth.descend d) :=
    List.map_congr_left fun p hp => h.parameter_eq depth.descend hd (hparameters.flatMap hp)
  have htypeParameters := h.typeParameters_eq depth.descend hd (Or.inr (hc ▸ rfl))
  simp only [h.header_eq hd, h.returnType_eq hd hreturn, hps, htypeParameters,
    h.signatureTypes_eq hthrows, h.receiver_eq hreceiver, h.inInterface_eq hd]

theorem accessorHeader_eq (depth : Depth) (hd : t.decl? i = some d) (name : String) {a : Accessor}
    (ha : AnswersAlike t t' a.targets) :
    t'.accessorHeader depth d name a = t.accessorHeader depth d name a := by
  simp only [accessorHeader, h.convertUsages_eq depth ha, h.fileRef i d hd]

theorem property?_eq (depth : Depth) (hi : i < t.size) :
    t'.property? depth i = t.property? depth i := by
  obtain ⟨d, hd⟩ := decl?_of_lt hi
  refine h.conversion_eq hd fun p hp => ?_
  have htargets := h.answersAlike_shape hd (Draft.asProperty_eq_some_iff.mp hp)
  rw [Shape.targets] at htargets
  obtain ⟨htype, hrest⟩ := htargets.append
  obtain ⟨hgetter, hrest⟩ := hrest.append
  obtain ⟨hsetter, hrest⟩ := hrest.append
  obtain ⟨hreceiver, hconstant⟩ := hrest.append
  have hget : p.getter.map (t'.getter depth d (t.signatureType p.type)) =
      p.getter.map (t.getter depth d (t.signatureType p.type)) :=
    Option.map_congr fun a ha => by
      rw [getter, getter, h.accessorHeader_eq depth hd _ (hgetter.toList ha)]
  have hset : p.setter.map (t'.setter depth d (t.signatureType p.type)) =
      p.setter.map (t.setter depth d (t.signatureType p.type)) :=
    Option.map_congr fun a ha => by
      rw [setter, setter, h.accessorHeader_eq depth hd _ (hsetter.toList ha)]
  have hvalue : p.constant.map (t'.convertConstant depth.descend) =
      p.constant.map (t.convertConstant depth.descend) :=
    Option.map_congr fun c hc => convertConstant_alike h depth.descend c (hconstant.toList hc)
  simp only [h.header_eq hd, signatureType_alike h p.type htype, hvalue, hget, hset, backingField,
    h.receiver_eq hreceiver]

/-! ### Classes -/

theorem isInterface_eq {r : TypeRef} (hr : AnswersAlike t t' r.targets) :
    t'.isInterface r = t.isInterface r := by
  rw [isInterface, isInterface, h.target?_eq hr]

theorem splitSupertypes_eq {rs : List TypeRef}
    (hrs : AnswersAlike t t' (rs.flatMap TypeRef.targets)) :
    t'.splitSupertypes rs = t.splitSupertypes rs := by
  induction rs with
  | nil => rfl
  | cons r rs ih =>
    have hr : AnswersAlike t t' r.targets := hrs.flatMap List.mem_cons_self
    have hrest : AnswersAlike t t' (rs.flatMap TypeRef.targets) := hrs.append.2
    have hfound : rs.filter (fun s => (t'.resolve? s).isSome) =
        rs.filter fun s => (t.resolve? s).isSome :=
      List.filter_congr fun s hs => by rw [(hrest.flatMap hs).resolve?_eq]
    have hafter : (rs.filter fun s => (t.resolve? s).isSome).map t'.signatureType =
        (rs.filter fun s => (t.resolve? s).isSome).map t.signatureType :=
      List.map_congr_left fun s hs =>
        signatureType_alike h s (hrest.flatMap (List.mem_filter.mp hs).1)
    simp only [splitSupertypes, hr.resolve?_eq, h.isInterface_eq hr, signatureType_alike h r hr,
      ih hrest, hfound, hafter]

variable {nested? nested?' companion? companion?' : DeclId → Option ClassElement}

theorem member?_eq (depth : Depth) (hnested : ∀ i < t.size, nested?' i = nested? i)
    (hi : i < t.size) : t'.member? depth nested?' i = t.member? depth nested? i := by
  obtain ⟨d, hd⟩ := decl?_of_lt hi
  rw [member?_of_decl? depth nested?' (h.decl?_some hd), member?_of_decl? depth nested? hd]
  simp only [h.flatClass?_eq hi, hnested i hi, h.callable?_eq depth hi, h.property?_eq depth hi]

theorem isCompanion_eq (hi : i < t.size) : t'.isCompanion i = t.isCompanion i := by
  rw [isCompanion, isCompanion, h.decl i hi]

/-- The companion object is searched for among members that are in the table. -/
theorem companion_eq (hcompanion : ∀ i < t.size, companion?' i = companion? i) {ms : List DeclId}
    (hms : ∀ m ∈ ms, m < t.size) :
    (ms.find? t'.isCompanion).bind companion?' = (ms.find? t.isCompanion).bind companion? := by
  have hfind : ms.find? t'.isCompanion = ms.find? t.isCompanion :=
    List.find?_congr fun m hm => h.isCompanion_eq (hms m hm)
  rw [hfind]
  cases hm : ms.find? t.isCompanion with
  | none => rfl
  | some m => exact hcompanion m (hms m (List.mem_of_find?_eq_some hm))

theorem classWithMembers?_eq (depth : Depth) (hnested : ∀ i < t.size, nested?' i = nested? i)
    (hcompanion : ∀ i < t.size, companion?' i = companion? i) (hi : i < t.size) :
    t'.classWithMembers? depth nested?' companion?' i =
      t.classWithMembers? depth nested? companion? i := by
  obtain ⟨d, hd⟩ := decl?_of_lt hi
  refine h.conversion_eq hd fun c hc => ?_
  have hsuper : AnswersAlike t t' (c.superTypes.flatMap TypeRef.targets) :=
    h.answersAlike_shape hd (Draft.asClass_eq_some_iff.mp hc)
  have hclass : d.asClass.isSome := hc ▸ rfl
  have hms : ∀ m ∈ d.members, m < t.size := h.closed.members i d hd hclass
  have hmembers : d.members.filterMap (t'.member? depth.descend nested?') =
      d.members.filterMap (t.member? depth.descend nested?) :=
    List.filterMap_congr fun m hm => h.member?_eq depth.descend hnested (hms m hm)
  have htypeParameters := h.typeParameters_eq depth.descend hd (Or.inl hclass)
  simp only [h.memberlessClass_eq hd, h.splitSupertypes_eq hsuper, hmembers, htypeParameters,
    h.companion_eq hcompanion hms]

theorem boundedClass?_eq (hi : i < t.size) : t'.boundedClass? i = t.boundedClass? i :=
  h.classWithMembers?_eq .bounded (fun _ _ => rfl) (fun _ => h.flatClass?_eq) hi

theorem classElement?_eq (depth : Depth) (hi : i < t.size) :
    t'.classElement? depth i = t.classElement? depth i := by
  cases depth with
  | full =>
    exact h.classWithMembers?_eq .full (fun _ => h.boundedClass?_eq) (fun _ => h.boundedClass?_eq)
      hi
  | bounded => exact h.boundedClass?_eq hi
  | flat => exact h.flatClass?_eq hi

/-- **A declaration has the same element, at every depth, in every table that has what its
conversion reads.** -/
theorem element?_eq (depth : Depth) (hi : i < t.size) :
    t'.element? depth i = t.element? depth i := by
  obtain ⟨d, hd⟩ := decl?_of_lt hi
  rw [element?_of_decl? depth (h.decl?_some hd), element?_of_decl? depth hd,
    h.classElement?_eq depth hi, h.callable?_eq depth hi, h.property?_eq depth hi,
    h.typeParameter?_eq depth hi]

end ReadsAlike
end SymbolTable
end SymbolGraph
