/-
# Conversion ends, and reads nothing outside the table

With enough fuel, every checked conversion of a declaration of a reachable table
ends without a fault, and what it ends with is what the conversion without fuel
gives (`Ends`).

The calls are bounded in three stages. An annotation calls itself for what is
written in it. Below the root, a type is converted with a flat class or type
parameter behind it; a flat class or type parameter converts no type, and an
argument is a part of the reference, so the calls end by induction on the
reference. A class converts its members one step further down, and there are no
more than two such steps.

Key definitions: `Ends`.
Key theorems: `Checked.ends_usage`, `Checked.ends_signatureType`,
`Checked.ends_classElement`, `SymbolTable.conversion_ends`.
-/
import SymbolGraph.Proofs.Converted
import SymbolGraph.Proofs.Readings

namespace SymbolGraph

/-! ### Ending with enough fuel -/

/-- With enough fuel, a run ends with a result and without a fault. -/
def Ends {α : Type} (run : Nat → Except Fault α) (a : α) : Prop :=
  ∃ n, ∀ m, n ≤ m → run m = .ok a

namespace Ends

variable {α β : Type}

theorem of_eq {x : Except Fault α} {a : α} (h : x = .ok a) : Ends (fun _ => x) a :=
  ⟨0, fun _ _ => h⟩

theorem pure (a : α) : Ends (fun _ => .ok a) a := of_eq rfl

/-- A run one call deeper ends too. -/
theorem succ {run : Nat → Except Fault α} {a : α} (h : Ends (fun n => run (n + 1)) a) :
    Ends run a := by
  obtain ⟨n, hn⟩ := h
  refine ⟨n + 1, fun m hm => ?_⟩
  obtain ⟨k, rfl⟩ : ∃ k, m = k + 1 := ⟨m - 1, by omega⟩
  exact hn k (by omega)

theorem bind {x : Nat → Except Fault α} {f : Nat → α → Except Fault β} {a : α} {b : β}
    (hx : Ends x a) (hf : Ends (fun n => f n a) b) : Ends (fun n => x n >>= f n) b := by
  obtain ⟨n, hn⟩ := hx
  obtain ⟨k, hk⟩ := hf
  refine ⟨max n k, fun m hm => ?_⟩
  show x m >>= f m = .ok b
  rw [hn m (by omega)]
  exact hk m (by omega)

theorem map {x : Nat → Except Fault α} {a : α} (hx : Ends x a) (f : α → β) :
    Ends (fun n => f <$> x n) (f a) := by
  obtain ⟨n, hn⟩ := hx
  refine ⟨n, fun m hm => ?_⟩
  show f <$> x m = .ok (f a)
  rw [hn m hm]
  rfl

theorem listMapM {f : Nat → α → Except Fault β} {g : α → β} :
    ∀ {xs : List α}, (∀ x ∈ xs, Ends (fun n => f n x) (g x)) →
      Ends (fun n => xs.mapM (f n)) (xs.map g)
  | [], _ => pure []
  | x :: xs, h => by
    simp only [List.mapM_cons]
    refine (h x List.mem_cons_self).bind ?_
    exact (listMapM fun y hy => h y (List.mem_cons_of_mem _ hy)).bind (pure _)

theorem optionMapM {f : Nat → α → Except Fault β} {g : α → β} :
    ∀ {x : Option α}, (∀ y, x = some y → Ends (fun n => f n y) (g y)) →
      Ends (fun n => x.mapM (f n)) (x.map g)
  | none, _ => pure none
  | some y, h => (h y rfl).map some

end Ends

theorem filterMap_id_map {α β : Type} (f : α → Option β) (xs : List α) :
    (xs.map f).filterMap id = xs.filterMap f := by
  rw [List.filterMap_map]
  rfl

namespace Checked

open SymbolTable (Closed decl?_of_lt)

variable {t : SymbolTable}

/-! ### Annotations and constants -/

mutual

/-- Converting an annotation ends, by induction on how it is written. -/
theorem ends_usage (h : Closed t) (depth : Depth) :
    ∀ u : Usage, Ends (fun n => (calls t n).usage depth u) (t.convertUsage depth u)
  | ⟨shortName, type, arguments⟩ => Ends.succ <| by
    simp only [calls, usage, SymbolTable.convertUsage]
    refine (Ends.of_eq (usageHeader_eq h _)).bind ?_
    exact (ends_arguments h depth arguments).bind (Ends.pure _)

theorem ends_constant (h : Closed t) (depth : Depth) :
    ∀ c : Constant, Ends (fun n => (calls t n).constant depth c) (t.convertConstant depth c)
  | .string _ => Ends.succ (Ends.pure _)
  | .literal _ => Ends.succ (Ends.pure _)
  | .enumEntry entry => Ends.succ (Ends.of_eq (enumValue_eq h entry))
  | .classLiteral type => Ends.succ (Ends.of_eq (classValue_eq h type))
  | .array values => Ends.succ <| by
    simp only [calls, constant, SymbolTable.convertConstant]
    split
    · exact (ends_constants h depth.descend values).bind (Ends.pure _)
    · exact Ends.pure _
  | .nested u => Ends.succ <| by
    simp only [calls, constant, SymbolTable.convertConstant]
    split
    · exact (Ends.of_eq (usageHeader_eq h u)).bind (Ends.pure _)
    · exact (ends_usage h depth.descend u).bind (Ends.pure _)
  | .null => Ends.succ (Ends.pure _)

theorem ends_constants (h : Closed t) (depth : Depth) : ∀ cs : List Constant,
    Ends (fun n => cs.mapM ((calls t n).constant depth)) (t.convertConstants depth cs)
  | [] => Ends.pure []
  | c :: cs => by
    simp only [List.mapM_cons, SymbolTable.convertConstants]
    exact (ends_constant h depth c).bind ((ends_constants h depth cs).bind (Ends.pure _))

theorem ends_arguments (h : Closed t) (depth : Depth) : ∀ args : List (String × Constant),
    Ends (fun n => args.mapM fun argument => do
      let value ← (calls t n).constant depth argument.2
      return (argument.1, value)) (t.convertArguments depth args)
  | [] => Ends.pure []
  | (name, c) :: rest => by
    simp only [List.mapM_cons, SymbolTable.convertArguments]
    refine ((ends_constant h depth c).bind (Ends.pure (name, _))).bind ?_
    exact (ends_arguments h depth rest).bind (Ends.pure _)

end

section FlatConversions

variable (h : Closed t)
include h

theorem ends_usages (depth : Depth) (us : List Usage) :
    Ends (fun n => us.mapM ((calls t n).usage depth)) (us.map (t.convertUsage depth)) :=
  Ends.listMapM fun u _ => ends_usage h depth u

/-! ### Flat classes and type parameters -/

variable {id : DeclId} {d : Declaration}

theorem ends_header (hd : t.decl? id = some d) (depth : Depth) (kind : ElementKind) :
    Ends (fun n => header t (calls t n) depth id kind) (t.header depth d kind) := by
  unfold header
  refine (Ends.of_eq (get_eq hd)).bind ?_
  refine (Ends.of_eq (enclosing_eq h hd)).bind ?_
  refine (ends_usages h depth d.annotations).bind ?_
  rw [fileOf?_eq hd]
  exact Ends.pure _

theorem ends_climb (hd : t.decl? id = some d) :
    Ends (fun n => climb t n ⟨[id], [id], []⟩) (t.supertypeClosure id) :=
  ⟨t.size + 1, fun _ hm => climb_eq h (SymbolTable.lt_size_of_decl? hd) hm⟩

/-- A flat class has nothing inside it, so nothing is called but annotations. -/
theorem ends_flatClass (hd : t.decl? id = some d) :
    Ends (fun n => (calls t n).classElement .flat id) (t.flatClass? id) := by
  rw [show t.flatClass? id = _ from SymbolTable.conversion_eq_map hd]
  refine Ends.succ ?_
  simp only [calls, classElement]
  refine (Ends.of_eq (get_eq hd)).bind ?_
  cases hc : d.asClass with
  | none => exact Ends.pure none
  | some c =>
    refine (ends_header h hd .flat _).bind ?_
    exact (Ends.pure _).bind ((ends_climb h hd).bind (Ends.pure _))

theorem ends_flatTypeParameter (hd : t.decl? id = some d) :
    Ends (fun n => (calls t n).typeParameter .flat id) (t.flatTypeParameter? id) := by
  rw [show t.flatTypeParameter? id = _ from SymbolTable.conversion_eq_map hd]
  refine Ends.succ ?_
  simp only [calls, typeParameter]
  refine (Ends.of_eq (get_eq hd)).bind ?_
  cases hp : d.asTypeParameter with
  | none => exact Ends.pure none
  | some p =>
    refine (ends_header h hd .flat _).bind ?_
    exact (Ends.pure _).bind (Ends.pure _)

/-! ### Types -/

/-- What a nested type is nested in is flat, at whatever depth the type is converted. -/
theorem ends_enclosingType (hd : t.decl? id = some d) :
    Ends (fun n => enclosingType t (calls t n) id) (t.enclosingType? d) := by
  unfold enclosingType SymbolTable.enclosingType? SymbolTable.parent?
  rw [hd, Option.bind_some]
  cases hp : d.parent with
  | none => exact Ends.pure none
  | some owner =>
    obtain ⟨o, ho⟩ := decl?_of_lt (h.parent id d owner hd hp)
    have hstub : t.stub? owner = some o.stub := by rw [SymbolTable.stub?, ho, Option.map_some]
    refine (ends_flatClass h ho).bind ?_
    cases hc : t.flatClass? owner with
    | none =>
      simp only [Option.bind_eq_bind, Option.bind_some, hc, Option.bind_none]
      exact Ends.pure none
    | some c =>
      simp only [Option.bind_eq_bind, Option.bind_some, hc, hstub]
      exact (Ends.of_eq (stub_eq ho)).bind (Ends.pure _)

theorem ends_typeOfTarget {depth : Depth} {class? : DeclId → Option ClassElement}
    {parameter? : DeclId → Option TypeParameter} {arguments : List TypeArgument}
    (hd : t.decl? id = some d)
    (hclass : Ends (fun n => (calls t n).classElement depth id) (class? id))
    (hparameter : Ends (fun n => (calls t n).typeParameter depth id) (parameter? id))
    (harguments : ∀ a ∈ arguments,
      Ends (fun n => typeArgument (calls t n) depth a) (t.signatureArgument a)) :
    Ends (fun n => typeOfTarget t (calls t n) depth arguments id d)
      (t.typeOfTarget class? parameter? (t.signatureArguments arguments) id d) := by
  rw [SymbolTable.signatureArguments_eq_map]
  unfold typeOfTarget SymbolTable.typeOfTarget
  cases d.typeKind with
  | primitive p => exact Ends.pure _
  | unit => exact Ends.pure _
  | nothing => exact Ends.pure _
  | array =>
    cases arguments with
    | nil => exact Ends.pure _
    | cons a as => exact (harguments a List.mem_cons_self).bind (Ends.pure _)
  | «variable» =>
    refine hparameter.bind ?_
    cases parameter? id <;> exact Ends.pure _
  | declared =>
    refine hclass.bind ?_
    cases class? id with
    | none => exact Ends.pure _
    | some c =>
      exact (Ends.listMapM harguments).bind ((ends_enclosingType h hd).bind (Ends.pure _))
  | wildcard => exact Ends.pure _
  | other => exact Ends.pure _

/-- A type is put together from what the calls give for the class or the type parameter
behind it and for its arguments. -/
theorem ends_assembleType {depth : Depth} {class? : DeclId → Option ClassElement}
    {parameter? : DeclId → Option TypeParameter} {r : TypeRef}
    (hclass : ∀ i < t.size, Ends (fun n => (calls t n).classElement depth.descend i) (class? i))
    (hparameter : ∀ i < t.size,
      Ends (fun n => (calls t n).typeParameter depth.descend i) (parameter? i))
    (harguments : ∀ a ∈ r.arguments,
      Ends (fun n => typeArgument (calls t n) depth.descend a) (t.signatureArgument a)) :
    Ends (fun n => (calls t n).typeOf depth r)
      (t.assembleType depth.descend class? parameter? (t.signatureArguments r.arguments) r) := by
  refine Ends.succ ?_
  simp only [calls, typeOf, SymbolTable.assembleType]
  cases hr : t.resolve? r with
  | none => exact Ends.pure _
  | some id =>
    have hid : id < t.size := h.resolved r id hr
    obtain ⟨d, hd⟩ := decl?_of_lt hid
    have htarget := ends_typeOfTarget h hd (hclass id hid) (hparameter id hid) harguments
    simp only [hd, SymbolTable.marked]
    refine (Ends.of_eq (get_eq hd)).bind (htarget.bind ?_)
    split
    · exact Ends.pure _
    · exact (ends_usages h depth.descend r.annotations).bind
        ((Ends.of_eq (stub_eq hd)).bind (Ends.pure _))

end FlatConversions

mutual

/-- Below the root, a type is that of a signature, by induction on the reference. -/
theorem ends_signatureType (h : Closed t) : ∀ (r : TypeRef) (depth : Depth), depth ≠ .full →
    Ends (fun n => (calls t n).typeOf depth r) (t.signatureType r)
  | ⟨target, arguments, nullable, annotations⟩, depth, hdepth => by
    have hflat : depth.descend = .flat := Depth.descend_eq_flat hdepth
    rw [SymbolTable.signatureType, ← hflat]
    refine ends_assembleType h (fun i hi => ?_) (fun i hi => ?_) ?_
    · obtain ⟨d, hd⟩ := decl?_of_lt hi
      exact hflat ▸ ends_flatClass h hd
    · obtain ⟨d, hd⟩ := decl?_of_lt hi
      exact hflat ▸ ends_flatTypeParameter h hd
    · exact ends_signatureArguments h arguments depth.descend depth.descend_ne_full

theorem ends_signatureArguments (h : Closed t) : ∀ (as : List TypeArgument) (depth : Depth),
    depth ≠ .full → ∀ a ∈ as,
      Ends (fun n => typeArgument (calls t n) depth a) (t.signatureArgument a)
  | [], _, _, _, ha => absurd ha List.not_mem_nil
  | b :: bs, depth, hdepth, a, ha => by
    rcases List.mem_cons.mp ha with heq | ha
    · rw [heq]
      exact ends_signatureArgument h b depth hdepth
    · exact ends_signatureArguments h bs depth hdepth a ha

theorem ends_signatureArgument (h : Closed t) : ∀ (a : TypeArgument) (depth : Depth),
    depth ≠ .full → Ends (fun n => typeArgument (calls t n) depth a) (t.signatureArgument a)
  | ⟨_, none⟩, _, _ => by
    rw [SymbolTable.signatureArgument]
    exact Ends.pure _
  | ⟨projection, some r⟩, depth, hdepth => by
    rw [SymbolTable.signatureArgument]
    exact (ends_signatureType h r depth hdepth).bind (Ends.pure _)

end

/-- A type one step further down than some depth. -/
theorem ends_descend (h : Closed t) (depth : Depth) (r : TypeRef) :
    Ends (fun n => (calls t n).typeOf depth.descend r) (t.signatureType r) :=
  ends_signatureType h r depth.descend depth.descend_ne_full

theorem ends_types (h : Closed t) (depth : Depth) (rs : List TypeRef) :
    Ends (fun n => rs.mapM ((calls t n).typeOf depth.descend)) (rs.map t.signatureType) :=
  Ends.listMapM fun r _ => ends_descend h depth r

theorem ends_receiver (h : Closed t) (depth : Depth) (receiver : Option TypeRef) :
    Ends (fun n => receiver.mapM ((calls t n).typeOf depth.descend))
      (receiver.map t.signatureType) :=
  Ends.optionMapM fun r _ => ends_descend h depth r

/-! ### Type parameters, functions and properties -/

variable (h : Closed t) {id : DeclId} {d : Declaration}
include h

theorem ends_typeParameter (hd : t.decl? id = some d) (depth : Depth) :
    Ends (fun n => (calls t n).typeParameter depth id) (t.typeParameter? depth id) := by
  rw [show t.typeParameter? depth id = _ from SymbolTable.conversion_eq_map hd]
  refine Ends.succ ?_
  simp only [calls, typeParameter]
  refine (Ends.of_eq (get_eq hd)).bind ?_
  cases hp : d.asTypeParameter with
  | none => exact Ends.pure none
  | some p =>
    refine (ends_header h hd depth _).bind ?_
    rw [Option.map_some]
    split
    · exact (ends_types h depth p.bounds).bind (Ends.pure _)
    · exact (Ends.pure _).bind (Ends.pure _)

/-- The type parameters of a class or a function are all in the table. -/
theorem ends_typeParameters (hd : t.decl? id = some d)
    (howner : d.asClass.isSome ∨ d.asCallable.isSome) (depth : Depth) :
    Ends (fun n => typeParameters (calls t n) depth d.typeParameters)
      (d.typeParameters.filterMap (t.typeParameter? depth)) := by
  have hall : Ends (fun n => d.typeParameters.mapM ((calls t n).typeParameter depth))
      (d.typeParameters.map (t.typeParameter? depth)) := by
    refine Ends.listMapM fun p hp => ?_
    obtain ⟨k, hk⟩ := decl?_of_lt (h.typeParameters id d hd howner p hp)
    exact ends_typeParameter h hk depth
  rw [← filterMap_id_map]
  exact hall.bind (Ends.pure _)

theorem ends_parameter (hd : t.decl? id = some d) (depth : Depth) (p : ValueParameter) :
    Ends (fun n => parameter t (calls t n) depth id p) (t.parameter depth d p) := by
  unfold parameter
  refine (Ends.of_eq (get_eq hd)).bind ((Ends.of_eq (stub_eq hd)).bind ?_)
  refine (ends_usages h depth p.annotations).bind ((ends_descend h depth p.type).bind ?_)
  rw [fileOf?_eq hd]
  exact Ends.pure _

theorem ends_returnType (depth : Depth) (c : CallableShape) :
    Ends (fun n => returnType (calls t n) depth.descend d c) (t.returnType d c) := by
  unfold returnType SymbolTable.returnType
  cases d.returnType? c with
  | none => exact Ends.pure _
  | some r => exact ends_descend h depth r

theorem ends_callable (hd : t.decl? id = some d) (depth : Depth) :
    Ends (fun n => callable t (calls t n) depth id) (t.callable? depth id) := by
  rw [show t.callable? depth id = _ from SymbolTable.conversion_eq_map hd]
  unfold callable
  refine (Ends.of_eq (get_eq hd)).bind ?_
  cases hc : d.asCallable with
  | none => exact Ends.pure none
  | some c =>
    have hcallable : d.asCallable.isSome := by rw [hc]; rfl
    have hparameters : Ends
        (fun n => c.parameters.mapM (parameter t (calls t n) depth.descend id))
        (c.parameters.map (t.parameter depth.descend d)) :=
      Ends.listMapM fun p _ => ends_parameter h hd depth.descend p
    refine (ends_header h hd depth _).bind ((ends_returnType h depth c).bind ?_)
    refine hparameters.bind ((Ends.of_eq (inInterface_eq h hd)).bind ?_)
    refine (ends_typeParameters h hd (Or.inr hcallable) depth.descend).bind ?_
    exact (ends_types h depth c.throws).bind ((ends_receiver h depth c.receiver).bind (Ends.pure _))

theorem ends_accessorHeader (hd : t.decl? id = some d) (depth : Depth) (name : String)
    (a : Accessor) : Ends (fun n => accessorHeader t (calls t n) depth id name a)
      (t.accessorHeader depth d name a) := by
  unfold accessorHeader
  refine (Ends.of_eq (get_eq hd)).bind ((Ends.of_eq (stub_eq hd)).bind ?_)
  refine (ends_usages h depth a.annotations).bind ?_
  rw [fileOf?_eq hd]
  exact Ends.pure _

theorem ends_getter (hd : t.decl? id = some d) (depth : Depth) (type : Ty) (a : Accessor) :
    Ends (fun n => getter t (calls t n) depth id type a) (t.getter depth d type a) := by
  unfold getter
  exact (Ends.of_eq (get_eq hd)).bind ((ends_accessorHeader h hd depth _ a).bind (Ends.pure _))

theorem ends_setter (hd : t.decl? id = some d) (depth : Depth) (type : Ty) (a : Accessor) :
    Ends (fun n => setter t (calls t n) depth id type a) (t.setter depth d type a) := by
  unfold setter
  exact (Ends.of_eq (get_eq hd)).bind ((ends_accessorHeader h hd depth _ a).bind (Ends.pure _))

theorem ends_property (hd : t.decl? id = some d) (depth : Depth) :
    Ends (fun n => property t (calls t n) depth id) (t.property? depth id) := by
  rw [show t.property? depth id = _ from SymbolTable.conversion_eq_map hd]
  unfold property
  refine (Ends.of_eq (get_eq hd)).bind ?_
  cases hp : d.asProperty with
  | none => exact Ends.pure none
  | some p =>
    have hconstant : Ends (fun n => p.constant.mapM ((calls t n).constant depth.descend))
        (p.constant.map (t.convertConstant depth.descend)) :=
      Ends.optionMapM fun c _ => ends_constant h depth.descend c
    have hfield : Ends (fun n => backingField t (calls t n) depth id p (t.signatureType p.type)
        (p.constant.map (t.convertConstant depth.descend)))
        (t.backingField depth d p (t.signatureType p.type)) :=
      (Ends.of_eq (get_eq hd)).bind ((ends_header h hd depth _).bind (Ends.pure _))
    have hgetter : Ends
        (fun n => p.getter.mapM (getter t (calls t n) depth id (t.signatureType p.type)))
        (p.getter.map (t.getter depth d (t.signatureType p.type))) :=
      Ends.optionMapM fun a _ => ends_getter h hd depth _ a
    have hsetter : Ends
        (fun n => p.setter.mapM (setter t (calls t n) depth id (t.signatureType p.type)))
        (p.setter.map (t.setter depth d (t.signatureType p.type))) :=
      Ends.optionMapM fun a _ => ends_setter h hd depth _ a
    have hreceiver := ends_receiver h depth p.receiver
    refine (ends_header h hd depth _).bind ((ends_descend h depth p.type).bind ?_)
    refine hconstant.bind (hgetter.bind (hsetter.bind ?_))
    rw [Option.map_some]
    split
    · exact (hfield.map some).bind (hreceiver.bind (Ends.pure _))
    · exact (Ends.pure none).bind (hreceiver.bind (Ends.pure _))

/-! ### Classes -/

/-- What one supertype adds: nothing if it points nowhere. -/
theorem ends_enterSupertype (depth : Depth) (above : Option Ty × List Ty) (r : TypeRef) :
    Ends (fun n => enterSupertype t (calls t n) depth.descend above r)
      (if (t.resolve? r).isNone then above
      else if t.isInterface r || above.1.isSome then (above.1, above.2 ++ [t.signatureType r])
      else (some (t.signatureType r), above.2)) := by
  unfold enterSupertype
  cases hr : t.resolve? r with
  | none => exact Ends.pure _
  | some id =>
    rw [if_neg (by simp)]
    refine (Ends.of_eq (isInterface_eq h hr)).bind ((ends_descend h depth r).bind ?_)
    split <;> exact Ends.pure _

/-- After the superclass, every supertype counts as an interface. -/
theorem ends_enterInterfaces (depth : Depth) (superclass : Ty) :
    ∀ (rs : List TypeRef) (interfaces : List Ty),
      Ends (fun n => rs.foldlM (enterSupertype t (calls t n) depth.descend)
          (some superclass, interfaces))
        (some superclass,
          interfaces ++ (rs.filter fun s => (t.resolve? s).isSome).map t.signatureType)
  | [], interfaces => by
    rw [List.filter_nil, List.map_nil, List.append_nil]
    exact Ends.pure _
  | r :: rs, interfaces => by
    have hstep := ends_enterSupertype h depth (some superclass, interfaces) r
    simp only [Option.isSome_some, Bool.or_true, if_true] at hstep
    simp only [List.foldlM_cons]
    refine hstep.bind ?_
    cases hr : t.resolve? r with
    | none =>
      simp only [Option.isNone_none, if_true]
      rw [List.filter_cons_of_neg (by simp [hr])]
      exact ends_enterInterfaces depth superclass rs interfaces
    | some id =>
      have ih := ends_enterInterfaces depth superclass rs (interfaces ++ [t.signatureType r])
      rw [List.append_assoc, List.singleton_append] at ih
      simp only [Option.isNone_some, Bool.false_eq_true, if_false]
      rw [List.filter_cons_of_pos (by simp [hr]), List.map_cons]
      exact ih

theorem ends_splitSupertypes (depth : Depth) : ∀ (rs : List TypeRef) (interfaces : List Ty),
    Ends (fun n => rs.foldlM (enterSupertype t (calls t n) depth.descend) (none, interfaces))
      ((t.splitSupertypes rs).1, interfaces ++ (t.splitSupertypes rs).2)
  | [], interfaces => by
    rw [SymbolTable.splitSupertypes, List.append_nil]
    exact Ends.pure _
  | r :: rs, interfaces => by
    have hstep := ends_enterSupertype h depth (none, interfaces) r
    simp only [Option.isSome_none, Bool.or_false] at hstep
    simp only [List.foldlM_cons]
    refine hstep.bind ?_
    rw [SymbolTable.splitSupertypes]
    split
    · exact ends_splitSupertypes depth rs interfaces
    · split
      · have ih := ends_splitSupertypes depth rs (interfaces ++ [t.signatureType r])
        rw [List.append_assoc, List.singleton_append] at ih
        exact ih
      · exact ends_enterInterfaces h depth _ rs interfaces

variable {depth : Depth} {nested? companion? : DeclId → Option ClassElement}

/-- A member of a class, if the calls for nested classes end. -/
theorem ends_member (hd : t.decl? id = some d)
    (hnested : if depth.includesNestedTypes then
        Ends (fun n => (calls t n).classElement depth.descend id) (nested? id)
      else nested? id = none) :
    Ends (fun n => member t (calls t n) depth id) (t.member? depth.descend nested? id) := by
  rw [SymbolTable.member?_of_decl? depth.descend nested? hd]
  unfold member
  refine (Ends.of_eq (get_eq hd)).bind ?_
  cases d.shape with
  | classLike c =>
    simp only
    split
    · exact Ends.pure none
    · split
      · exact (ends_flatClass h hd).bind (Ends.pure _)
      · split at hnested
        · rename_i hincluded
          simp only [if_pos hincluded]
          exact hnested.bind (Ends.pure _)
        · rename_i hleft
          simp only [if_neg hleft, hnested]
          exact Ends.pure none
  | callable c => exact (ends_callable h hd depth.descend).bind (Ends.pure _)
  | property p => exact (ends_property h hd depth.descend).bind (Ends.pure _)
  | typeParameter p => exact Ends.pure none

omit h in
theorem ends_companion {members : List DeclId} (hmembers : ∀ m ∈ members, m < t.size)
    (hcompanion : ∀ m < t.size,
      Ends (fun n => (calls t n).classElement depth.descend m) (companion? m)) :
    Ends (fun n => companion t (calls t n) depth.descend members)
      ((members.find? t.isCompanion).bind companion?) := by
  refine (Ends.of_eq (findM?_isCompanion members hmembers)).bind ?_
  cases hfind : members.find? t.isCompanion with
  | none => exact Ends.pure none
  | some m => exact hcompanion m (hmembers m (List.mem_of_find?_eq_some hfind))

/-- A class with its members, if the calls for nested classes and the companion end. -/
theorem ends_classWithMembers (hd : t.decl? id = some d) (hdepth : depth.includesMembers)
    (hnested : ∀ m < t.size, if depth.includesNestedTypes then
        Ends (fun n => (calls t n).classElement depth.descend m) (nested? m)
      else nested? m = none)
    (hcompanion : ∀ m < t.size,
      Ends (fun n => (calls t n).classElement depth.descend m) (companion? m)) :
    Ends (fun n => (calls t n).classElement depth id)
      (t.classWithMembers? depth nested? companion? id) := by
  rw [show t.classWithMembers? depth nested? companion? id = _ from
    SymbolTable.conversion_eq_map hd]
  refine Ends.succ ?_
  simp only [calls, classElement]
  refine (Ends.of_eq (get_eq hd)).bind ?_
  cases hc : d.asClass with
  | none => exact Ends.pure none
  | some c =>
    have hclass : d.asClass.isSome := by rw [hc]; rfl
    have hmembers : ∀ m ∈ d.members, m < t.size := h.members id d hd hclass
    have hall : Ends (fun n => d.members.mapM (member t (calls t n) depth))
        (d.members.map (t.member? depth.descend nested?)) := by
      refine Ends.listMapM fun m hm => ?_
      obtain ⟨k, hk⟩ := decl?_of_lt (hmembers m hm)
      exact ends_member h hk (hnested m (hmembers m hm))
    have hinside : Ends (fun n => contents t (calls t n) depth d c)
        { superclass := (t.splitSupertypes c.superTypes).1
          interfaces := (t.splitSupertypes c.superTypes).2
          typeParameters := d.typeParameters.filterMap (t.typeParameter? depth.descend)
          enclosed := d.members.filterMap (t.member? depth.descend nested?)
          companion := (d.members.find? t.isCompanion).bind companion? } := by
      unfold contents
      simp only [if_pos hdepth]
      rw [← filterMap_id_map (t.member? depth.descend nested?)]
      refine (ends_splitSupertypes h depth c.superTypes []).bind ?_
      refine (ends_typeParameters h hd (Or.inl hclass) depth.descend).bind ?_
      exact hall.bind ((ends_companion hmembers hcompanion).bind (Ends.pure _))
    refine (ends_header h hd depth _).bind (hinside.bind ?_)
    exact (ends_climb h hd).bind (Ends.pure _)

theorem ends_boundedClass (hd : t.decl? id = some d) :
    Ends (fun n => (calls t n).classElement .bounded id) (t.boundedClass? id) := by
  refine ends_classWithMembers h hd rfl (fun m _ => rfl) fun m hm => ?_
  obtain ⟨k, hk⟩ := decl?_of_lt hm
  exact ends_flatClass h hk

theorem ends_classElement (hd : t.decl? id = some d) : ∀ depth : Depth,
    Ends (fun n => (calls t n).classElement depth id) (t.classElement? depth id)
  | .flat => ends_flatClass h hd
  | .bounded => ends_boundedClass h hd
  | .full => by
    have hbounded : ∀ m < t.size,
        Ends (fun n => (calls t n).classElement .bounded m) (t.boundedClass? m) := by
      intro m hm
      obtain ⟨k, hk⟩ := decl?_of_lt hm
      exact ends_boundedClass h hk
    exact ends_classWithMembers h hd rfl hbounded hbounded

/-! ### Everything -/

theorem ends_typeOf (depth : Depth) (r : TypeRef) :
    Ends (fun n => (calls t n).typeOf depth r) (t.typeOf depth r) := by
  cases depth with
  | full =>
    refine ends_assembleType h (fun i hi => ?_) (fun i hi => ?_)
      fun a _ => ends_signatureArgument h a .bounded (by simp)
    · obtain ⟨k, hk⟩ := decl?_of_lt hi
      exact ends_boundedClass h hk
    · obtain ⟨k, hk⟩ := decl?_of_lt hi
      exact ends_typeParameter h hk .bounded
  | bounded => exact ends_signatureType h r .bounded (by simp)
  | flat => exact ends_signatureType h r .flat (by simp)

theorem ends_element (hd : t.decl? id = some d) (depth : Depth) {e : Element}
    (he : t.element? depth id = some e) : Ends (fun n => element t n depth id) e := by
  have hconverted : Ends (fun n => converted t (calls t n) depth id d) (t.element? depth id) := by
    rw [SymbolTable.element?_of_decl? depth hd]
    unfold converted
    cases d.shape with
    | classLike c => exact (ends_classElement h hd depth).map _
    | callable c => exact (ends_callable h hd depth).map _
    | property p => exact (ends_property h hd depth).map _
    | typeParameter p => exact (ends_typeParameter h hd depth).map _
  rw [he] at hconverted
  exact (Ends.of_eq (get_eq hd)).bind (hconverted.bind (Ends.pure e))

end Checked

namespace SymbolTable

/-- **Conversion ends.** In a reachable table every declaration has an element at every
depth, of the sort its kind asks for, and the conversion to it ends without reading outside
the table; so does the conversion of every reference, whatever it refers to. -/
theorem conversion_ends {t : SymbolTable} (h : Reachable t) :
    (∀ (id : DeclId) (depth : Depth), id < t.size → ∃ d e, t.decl? id = some d ∧
      e.OfShape d.shape ∧ t.element? depth id = some e ∧
      Ends (fun fuel => Checked.element t fuel depth id) e) ∧
    ∀ (r : TypeRef) (depth : Depth),
      Ends (fun fuel => (Checked.calls t fuel).typeOf depth r) (t.typeOf depth r) := by
  refine ⟨fun id depth hid => ?_, fun r depth => Checked.ends_typeOf h.closed depth r⟩
  obtain ⟨d, hd⟩ := decl?_of_lt hid
  obtain ⟨e, he, hshape⟩ := exists_element? depth hd
  exact ⟨d, e, hd, hshape, he, Checked.ends_element h.closed hd depth he⟩

/-- The class `graph.Tree`, whose supertype is its own nested interface, in full, and the
type that `walk` returns, a declaration that is not there. -/
theorem conversion_ends_tree : Reachable tree ∧
    (∃ d e, tree.decl? 14 = some d ∧ e.OfShape d.shape ∧ tree.element? .full 14 = some e ∧
      Ends (fun fuel => Checked.element tree fuel .full 14) e) ∧
    Ends (fun fuel => (Checked.calls tree fuel).typeOf .full (.decl 99)) .unknown := by
  obtain ⟨helement, htype⟩ := conversion_ends reachable_tree
  have hmissing : tree.typeOf .full (.decl 99) = .unknown := by
    have hresolve : tree.resolve? (.decl 99) = none := by decide +kernel
    rw [typeOf, assembleType, hresolve]
  exact ⟨reachable_tree, helement 14 .full (by decide +kernel), hmissing ▸ htype (.decl 99) .full⟩

/-- A handle that no declaration has is a fault. -/
example : Checked.stub tree 20 = .error (.outside 20) := by decide +kernel

end SymbolTable
end SymbolGraph
