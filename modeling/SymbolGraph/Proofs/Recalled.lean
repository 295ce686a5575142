/-
# What is remembered is what would be found

The names above a declaration depend on the table alone, so names that were found once can
answer every later request. What is remembered is right (`Faithful`) if each entry is what
a walk up from its declaration finds. A conversion that begins with memory that is right
answers as one that remembers nothing, and leaves memory that is right (`Answers`). This
holds of the request for names itself, and passes through the ways in which conversions
are put together, so it holds of every conversion, one lemma each, and of any number of
them one after the other (`answers_calls`).

Key definitions: `Faithful`, `Answers`, `Call`, `Call.perform`, `Call.fresh`.
Key theorems: `Answers.bind`, `answers_namesAbove`, `answers_signatureType`,
`answers_classElement?`, `answers_calls`, `supertypeClosure_nearestFirst`.
-/
import SymbolGraph.Conversion.Recall
import SymbolGraph.Proofs.NearestFirst

namespace SymbolGraph
namespace Recall

/-! ### Memory that is right -/

/-- Every entry is what is found above its declaration. -/
def Faithful (t : SymbolTable) (found : NamesFound) : Prop :=
  ∀ id names, found.lookup id = some names → names = t.supertypeClosure id

/-- With memory that is right, a conversion answers `a` and leaves memory that is right. -/
def Answers (t : SymbolTable) {α : Type} (conversion : Recalling α) (a : α) : Prop :=
  ∀ found, Faithful t found → (conversion found).1 = a ∧ Faithful t (conversion found).2

variable {t : SymbolTable} {α β : Type}

theorem faithful_nil : Faithful t [] := fun _ _ h => absurd h (by simp)

/-- **A request for names is answered as if nothing were remembered.** -/
theorem answers_namesAbove (id : DeclId) : Answers t (namesAbove t id) (t.supertypeClosure id) := by
  intro found hfound
  unfold namesAbove
  cases hid : found.lookup id with
  | some names => exact ⟨hfound id names hid, hfound⟩
  | none =>
    refine ⟨rfl, fun i names hi => ?_⟩
    rw [List.lookup_cons] at hi
    by_cases heq : i = id
    · subst heq
      rw [beq_self_eq_true] at hi
      exact (Option.some.inj hi).symm
    · rw [beq_false_of_ne heq] at hi
      exact hfound i names hi

/-! ### How conversions are put together -/

theorem Answers.pure (a : α) : Answers t (Pure.pure a) a := fun _ hfound => ⟨rfl, hfound⟩

theorem Answers.bind {p : Recalling α} {k : α → Recalling β} {a : α} {b : β} (hp : Answers t p a)
    (hk : Answers t (k a) b) : Answers t (p >>= k) b := by
  intro found hfound
  obtain ⟨ha, hmid⟩ := hp found hfound
  have hrun : (p >>= k) found = k a (p found).2 := by
    rw [← ha]
    rfl
  rw [hrun]
  exact hk _ hmid

theorem Answers.map {p : Recalling α} {a : α} (f : α → β) (hp : Answers t p a) :
    Answers t (f <$> p) (f a) :=
  fun found hfound => ⟨congrArg f (hp found hfound).1, (hp found hfound).2⟩

theorem Answers.mapM {f : α → Recalling β} {g : α → β} : ∀ {xs : List α},
    (∀ x ∈ xs, Answers t (f x) (g x)) → Answers t (xs.mapM f) (xs.map g)
  | [], _ => by
    rw [List.mapM_nil]
    exact .pure _
  | x :: xs, h => by
    rw [List.mapM_cons]
    exact (h x List.mem_cons_self).bind
      ((Answers.mapM fun y hy => h y (List.mem_cons_of_mem _ hy)).bind (.pure _))

theorem Answers.option_mapM {f : α → Recalling β} {g : α → β} {o : Option α}
    (h : ∀ x, o = some x → Answers t (f x) (g x)) : Answers t (o.mapM f) (o.map g) := by
  cases o with
  | none => exact .pure _
  | some x => exact (h x rfl).map some

theorem answers_collect {convert : DeclId → Recalling (Option α)} {g : DeclId → Option α}
    (h : ∀ id, Answers t (convert id) (g id)) (ids : List DeclId) :
    Answers t (collect convert ids) (ids.filterMap g) := by
  have hall : Answers t (ids.mapM convert) (ids.map g) := .mapM fun id _ => h id
  refine hall.bind ?_
  have hsame : (ids.map g).filterMap id = ids.filterMap g := by
    rw [List.filterMap_map]
    rfl
  rw [hsame]
  exact .pure _

theorem answers_ofShape {shape : Declaration → Option β}
    {convert : Declaration → β → Recalling α} {g : Declaration → β → α}
    (h : ∀ d b, Answers t (convert d b) (g d b)) (id : DeclId) :
    Answers t (ofShape t shape convert id)
      (do let d ← t.decl? id; let b ← shape d; return g d b) := by
  unfold ofShape
  cases t.decl? id with
  | none => exact .pure _
  | some d =>
    simp only [Option.bind_eq_bind, Option.bind_some]
    cases shape d with
    | none => exact .pure _
    | some b => exact (h d b).map some

/-! ### Types -/

theorem answers_memberlessClass (depth : Depth) (id : DeclId) (d : Declaration) (c : ClassShape) :
    Answers t (memberlessClass t depth id d c) (t.memberlessClass depth id d c) :=
  (answers_namesAbove id).bind (.pure _)

theorem answers_flatClass? (id : DeclId) : Answers t (flatClass? t id) (t.flatClass? id) :=
  answers_ofShape (answers_memberlessClass .flat id) id

theorem answers_enclosingType? (d : Declaration) :
    Answers t (enclosingType? t d) (t.enclosingType? d) := by
  unfold enclosingType? SymbolTable.enclosingType?
  cases d.parent with
  | none => exact .pure _
  | some owner =>
    refine (answers_flatClass? owner).bind ?_
    have hsame : ((t.flatClass? owner).bind fun element => (t.stub? owner).map fun stub =>
        { Ty.declared element [] with declaration := some (.stub stub) }) = (do
          let element ← t.flatClass? owner
          let stub ← t.stub? owner
          return { Ty.declared element [] with declaration := some (.stub stub) }) := by
      cases t.flatClass? owner <;> cases t.stub? owner <;> rfl
    rw [hsame]
    exact .pure _

theorem answers_nestedType (d : Declaration) (element : ClassElement) (arguments : List Ty) :
    Answers t (nestedType t d element arguments) (t.nestedType d element arguments) :=
  (answers_enclosingType? d).bind (.pure _)

/-- Arguments that are converted where they are needed. -/
def ArgumentsAnswer (t : SymbolTable) (arguments : List (Recalling Ty)) (types : List Ty) : Prop :=
  List.Forall₂ (Answers t) arguments types

theorem ArgumentsAnswer.mapM {arguments : List (Recalling Ty)} {types : List Ty}
    (h : ArgumentsAnswer t arguments types) : Answers t (arguments.mapM fun a => a) types := by
  induction h with
  | nil =>
    rw [List.mapM_nil]
    exact .pure _
  | cons ha _ ih =>
    rw [List.mapM_cons]
    exact ha.bind (ih.bind (.pure _))

section

variable {class? : DeclId → Recalling (Option ClassElement)} {c? : DeclId → Option ClassElement}
  {parameter? : DeclId → Recalling (Option TypeParameter)} {p? : DeclId → Option TypeParameter}
  {arguments : List (Recalling Ty)} {types : List Ty}

theorem answers_typeOfTarget (hclass : ∀ id, Answers t (class? id) (c? id))
    (hparameter : ∀ id, Answers t (parameter? id) (p? id))
    (harguments : ArgumentsAnswer t arguments types) (id : DeclId) (d : Declaration) :
    Answers t (typeOfTarget t class? parameter? arguments id d)
      (t.typeOfTarget c? p? types id d) := by
  unfold typeOfTarget SymbolTable.typeOfTarget
  cases d.typeKind with
  | primitive p => exact .pure _
  | unit => exact .pure _
  | nothing => exact .pure _
  | array =>
    cases harguments with
    | nil => exact .pure _
    | cons ha _ => exact ha.map Ty.array
  | «variable» =>
    refine (hparameter id).bind ?_
    cases p? id <;> exact .pure _
  | declared =>
    refine (hclass id).bind ?_
    cases c? id with
    | none => exact .pure _
    | some element => exact harguments.mapM.bind (answers_nestedType d element types)
  | wildcard => exact .pure _
  | other => exact .pure _

theorem answers_assembleType (hclass : ∀ id, Answers t (class? id) (c? id))
    (hparameter : ∀ id, Answers t (parameter? id) (p? id))
    (harguments : ArgumentsAnswer t arguments types) (depth : Depth) (r : TypeRef) :
    Answers t (assembleType t depth class? parameter? arguments r)
      (t.assembleType depth c? p? types r) := by
  unfold assembleType SymbolTable.assembleType
  cases t.resolve? r with
  | none => exact .pure _
  | some id =>
    cases ht : t.decl? id with
    | none => simpa only [ht] using .pure _
    | some d => simpa only [ht] using (answers_typeOfTarget hclass hparameter harguments id d).map _

end

mutual

/-- **The types of a signature are converted as if nothing were remembered.** -/
theorem answers_signatureType : ∀ r : TypeRef, Answers t (signatureType t r) (t.signatureType r)
  | ⟨target, arguments, nullable, annotations⟩ => by
    rw [signatureType, SymbolTable.signatureType]
    exact answers_assembleType answers_flatClass? (fun _ => .pure _)
      (answers_signatureArguments arguments) .flat _

theorem answers_signatureArguments : ∀ as : List TypeArgument,
    ArgumentsAnswer t (signatureArguments t as) (t.signatureArguments as)
  | [] => by
    rw [signatureArguments, SymbolTable.signatureArguments]
    exact .nil
  | a :: as => by
    rw [signatureArguments, SymbolTable.signatureArguments]
    exact .cons (answers_signatureArgument a) (answers_signatureArguments as)

theorem answers_signatureArgument : ∀ a : TypeArgument,
    Answers t (signatureArgument t a) (t.signatureArgument a)
  | ⟨_, none⟩ => by
    rw [signatureArgument, SymbolTable.signatureArgument]
    exact .pure _
  | ⟨projection, some r⟩ => by
    rw [signatureArgument, SymbolTable.signatureArgument]
    exact (answers_signatureType r).map _

end

/-! ### Functions and properties -/

theorem answers_types (rs : List TypeRef) :
    Answers t (rs.mapM (signatureType t)) (rs.map t.signatureType) :=
  .mapM fun r _ => answers_signatureType r

theorem answers_receiver (r : Option TypeRef) :
    Answers t (r.mapM (signatureType t)) (r.map t.signatureType) :=
  .option_mapM fun r _ => answers_signatureType r

theorem answers_typeParameter? (depth : Depth) (id : DeclId) :
    Answers t (typeParameter? t depth id) (t.typeParameter? depth id) := by
  refine answers_ofShape (fun d p => ?_) id
  by_cases hmembers : depth.includesMembers
  · simp only [if_pos hmembers]
    exact (answers_types p.bounds).bind (.pure _)
  · simp only [if_neg hmembers]
    exact .pure _

theorem answers_parameter (depth : Depth) (owner : Declaration) (p : ValueParameter) :
    Answers t (parameter t depth owner p) (t.parameter depth owner p) :=
  (answers_signatureType p.type).bind (.pure _)

theorem answers_returnType (d : Declaration) (c : CallableShape) :
    Answers t (returnType t d c) (t.returnType d c) := by
  unfold returnType SymbolTable.returnType
  cases d.returnType? c with
  | none => exact .pure _
  | some r => exact answers_signatureType r

theorem answers_callable? (depth : Depth) (id : DeclId) :
    Answers t (callable? t depth id) (t.callable? depth id) := by
  refine answers_ofShape (fun d c => ?_) id
  refine (answers_returnType d c).bind ?_
  refine (Answers.mapM fun p _ => answers_parameter depth.descend d p).bind ?_
  refine (answers_collect (answers_typeParameter? depth.descend) d.typeParameters).bind ?_
  refine (answers_types c.throws).bind ?_
  refine (answers_receiver c.receiver).bind ?_
  exact .pure _

theorem answers_property? (depth : Depth) (id : DeclId) :
    Answers t (property? t depth id) (t.property? depth id) := by
  refine answers_ofShape (fun d p => ?_) id
  refine (answers_signatureType p.type).bind ?_
  refine (answers_receiver p.receiver).bind ?_
  exact .pure _

/-! ### Classes -/

theorem answers_splitSupertypes : ∀ rs : List TypeRef,
    Answers t (splitSupertypes t rs) (t.splitSupertypes rs)
  | [] => .pure _
  | r :: rs => by
    unfold splitSupertypes SymbolTable.splitSupertypes
    by_cases hnone : (t.resolve? r).isNone
    · rw [if_pos hnone, if_pos hnone]
      exact answers_splitSupertypes rs
    · rw [if_neg hnone, if_neg hnone]
      by_cases hinterface : t.isInterface r
      · rw [if_pos hinterface, if_pos hinterface]
        exact (answers_signatureType r).bind ((answers_splitSupertypes rs).bind (.pure _))
      · rw [if_neg hinterface, if_neg hinterface]
        exact (answers_signatureType r).bind ((answers_types _).bind (.pure _))

section

variable {nested? companion? : DeclId → Recalling (Option ClassElement)}
  {n? k? : DeclId → Option ClassElement}

theorem answers_member? (hnested : ∀ id, Answers t (nested? id) (n? id)) (depth : Depth)
    (id : DeclId) : Answers t (member? t depth nested? id) (t.member? depth n? id) := by
  unfold member? SymbolTable.member?
  cases t.decl? id with
  | none => exact .pure _
  | some d =>
    simp only [Option.bind_eq_bind, Option.bind_some]
    cases d.shape with
    | classLike c =>
      by_cases hcompanion : c.isCompanion
      · simpa only [if_pos hcompanion] using .pure _
      · by_cases hentry : c.kind = .enumEntry
        · simpa only [if_neg hcompanion, if_pos hentry] using (answers_flatClass? id).map _
        · simpa only [if_neg hcompanion, if_neg hentry] using (hnested id).map _
    | callable c => exact (answers_callable? depth id).map _
    | property p => exact (answers_property? depth id).map _
    | typeParameter p => exact .pure _

theorem answers_classWithMembers? (hnested : ∀ id, Answers t (nested? id) (n? id))
    (hcompanion : ∀ id, Answers t (companion? id) (k? id)) (depth : Depth) (id : DeclId) :
    Answers t (classWithMembers? t depth nested? companion? id)
      (t.classWithMembers? depth n? k? id) := by
  refine answers_ofShape (fun d c => ?_) id
  refine (answers_splitSupertypes c.superTypes).bind ?_
  refine (answers_collect (answers_typeParameter? depth.descend) d.typeParameters).bind ?_
  refine (answers_collect (answers_member? hnested depth.descend) d.members).bind ?_
  refine (Answers.option_mapM fun m _ => hcompanion m).bind ?_
  refine (answers_memberlessClass depth id d c).bind ?_
  have hjoin : ((d.members.find? t.isCompanion).map k?).join =
      (d.members.find? t.isCompanion).bind k? := by
    cases d.members.find? t.isCompanion <;> rfl
  rw [hjoin]
  exact .pure _

end

theorem answers_boundedClass? (id : DeclId) : Answers t (boundedClass? t id) (t.boundedClass? id) :=
  answers_classWithMembers? (fun _ => .pure none) answers_flatClass? .bounded id

theorem answers_fullClass? (id : DeclId) : Answers t (fullClass? t id) (t.fullClass? id) :=
  answers_classWithMembers? answers_boundedClass? answers_boundedClass? .full id

/-- **Classes are converted as if nothing were remembered.** -/
theorem answers_classElement? (depth : Depth) (id : DeclId) :
    Answers t (classElement? t depth id) (t.classElement? depth id) := by
  cases depth with
  | full => exact answers_fullClass? id
  | bounded => exact answers_boundedClass? id
  | flat => exact answers_flatClass? id

/-! ### Everything -/

theorem answers_element? (depth : Depth) (id : DeclId) :
    Answers t (element? t depth id) (t.element? depth id) := by
  unfold element? SymbolTable.element?
  cases t.decl? id with
  | none => exact .pure _
  | some d =>
    simp only [Option.bind_eq_bind, Option.bind_some]
    cases d.shape with
    | classLike c => exact (answers_classElement? depth id).map _
    | callable c => exact (answers_callable? depth id).map _
    | property p => exact (answers_property? depth id).map _
    | typeParameter p => exact (answers_typeParameter? depth id).map _

theorem answers_typeOf (depth : Depth) (r : TypeRef) :
    Answers t (typeOf t depth r) (t.typeOf depth r) := by
  cases depth with
  | full =>
    exact answers_assembleType answers_boundedClass? (answers_typeParameter? .bounded)
      (answers_signatureArguments r.arguments) .bounded r
  | bounded => exact answers_signatureType r
  | flat => exact answers_signatureType r

theorem answers_typeOfArgument (depth : Depth) (a : TypeArgument) :
    Answers t (typeOfArgument t depth a) (t.typeOfArgument depth a) := by
  unfold typeOfArgument SymbolTable.typeOfArgument
  cases a.type with
  | none => exact .pure _
  | some r => exact (answers_typeOf depth r).map _

/-! ### One after the other -/

/-- What can be asked of a converter that remembers. -/
inductive Call
  | namesAbove (id : DeclId)
  | element (depth : Depth) (id : DeclId)
  | classElement (depth : Depth) (id : DeclId)
  | callable (depth : Depth) (id : DeclId)
  | property (depth : Depth) (id : DeclId)
  | typeParameter (depth : Depth) (id : DeclId)
  | parameter (depth : Depth) (owner : Declaration) (p : ValueParameter)
  | typeOf (depth : Depth) (r : TypeRef)
  | typeOfArgument (depth : Depth) (a : TypeArgument)

/-- What is answered to a call. -/
inductive Answer
  | names (names : List String)
  | element (e : Option Element)
  | classElement (c : Option ClassElement)
  | callable (c : Option Callable)
  | property (p : Option Property)
  | typeParameter (p : Option TypeParameter)
  | parameter (v : Variable)
  | type (t : Ty)

/-- Answer a call, from memory where that helps. -/
def Call.perform (t : SymbolTable) : Call → Recalling Answer
  | .namesAbove id => .names <$> Recall.namesAbove t id
  | .element depth id => .element <$> element? t depth id
  | .classElement depth id => .classElement <$> classElement? t depth id
  | .callable depth id => .callable <$> callable? t depth id
  | .property depth id => .property <$> property? t depth id
  | .typeParameter depth id => .typeParameter <$> typeParameter? t depth id
  | .parameter depth owner p => .parameter <$> Recall.parameter t depth owner p
  | .typeOf depth r => .type <$> Recall.typeOf t depth r
  | .typeOfArgument depth a => .type <$> Recall.typeOfArgument t depth a

/-- The answer to a call where nothing is remembered. -/
def Call.fresh (t : SymbolTable) : Call → Answer
  | .namesAbove id => .names (t.supertypeClosure id)
  | .element depth id => .element (t.element? depth id)
  | .classElement depth id => .classElement (t.classElement? depth id)
  | .callable depth id => .callable (t.callable? depth id)
  | .property depth id => .property (t.property? depth id)
  | .typeParameter depth id => .typeParameter (t.typeParameter? depth id)
  | .parameter depth owner p => .parameter (t.parameter depth owner p)
  | .typeOf depth r => .type (t.typeOf depth r)
  | .typeOfArgument depth a => .type (t.typeOfArgument depth a)

/-- One call is answered as if nothing were remembered, and what it leaves is right. -/
theorem Call.answers (call : Call) : Answers t (call.perform t) (call.fresh t) := by
  cases call with
  | namesAbove id => exact (answers_namesAbove id).map _
  | element depth id => exact (answers_element? depth id).map _
  | classElement depth id => exact (answers_classElement? depth id).map _
  | callable depth id => exact (answers_callable? depth id).map _
  | property depth id => exact (answers_property? depth id).map _
  | typeParameter depth id => exact (answers_typeParameter? depth id).map _
  | parameter depth owner p => exact (answers_parameter depth owner p).map _
  | typeOf depth r => exact (answers_typeOf depth r).map _
  | typeOfArgument depth a => exact (answers_typeOfArgument depth a).map _

/-- **Any calls one after the other are answered as if nothing were remembered.** -/
theorem answers_calls (calls : List Call) :
    Answers t (calls.mapM (Call.perform t)) (calls.map (Call.fresh t)) :=
  .mapM fun call _ => call.answers

end Recall

/-! ### The names above, in order and from memory -/

namespace SymbolTable

open Recall (Call namesAbove answers_calls answers_namesAbove faithful_nil)

variable {t : SymbolTable} {id : DeclId}

/-- **The names above a declaration are those of what stands above it, the nearer ones
first.** The climb ends; what it meets are the declarations other than the one it begins
with that steps up lead to, each once and in the order of the least number of steps; the
names found are the qualified names of those that have one. Whatever was converted before,
and whatever was remembered from that, the answer is the same. -/
theorem supertypeClosure_nearestFirst (h : Reachable t) (hid : id < t.size) :
    (∀ fuel, t.size < fuel → Checked.climb t fuel ⟨[id], [id], []⟩ = .ok (t.supertypeClosure id)) ∧
    (∃ order : List DeclId, order.Nodup ∧ (∀ j, j ∈ order ↔ j ≠ id ∧ t.Above id j) ∧
      (order.Pairwise fun j k =>
        Walk.distance t.StepUp id j ≤ Walk.distance t.StepUp id k) ∧
      t.supertypeClosure id = order.filterMap t.qualifiedName?) ∧
    ∀ calls : List Call,
      (calls.mapM (Call.perform t) []).1 = calls.map (Call.fresh t) ∧
      (namesAbove t id (calls.mapM (Call.perform t) []).2).1 = t.supertypeClosure id := by
  have hclosed := h.closed
  refine ⟨fun fuel hfuel => Checked.climb_eq hclosed hid hfuel, ?_, fun calls => ?_⟩
  · obtain ⟨above, horder, hnodup, habove⟩ := exists_supertypeOrder hclosed hid
    have hsorted := supertypeOrder_sorted hclosed hid
    rw [horder] at hsorted
    refine ⟨above, (List.nodup_cons.mp hnodup).2, habove, (List.pairwise_cons.mp hsorted).2, ?_⟩
    rw [supertypeClosure, horder, List.tail_cons]
    rfl
  · obtain ⟨hanswers, hleft⟩ := answers_calls calls [] faithful_nil
    exact ⟨hanswers, (answers_namesAbove id _ hleft).1⟩

/-- The changes that make the table `diamond`. -/
def diamondChanges : List Change :=
  [.addFile "src/Diamond.kt" "app",
   .declare (.file 0) ((Draft.classLike "Top" .interfaceType).withSuperType (.named "app.Bottom")),
   .declare (.file 0) ((Draft.classLike "Left" .classType).withSuperType (.decl 14)),
   .declare (.file 0) ((Draft.classLike "Right" .interfaceType).withSuperType (.named "app.Top")),
   .declare (.file 0) ((((Draft.classLike "Bottom" .classType).withSuperType
     (.named "lib.Missing")).withSuperType (.decl 15)).withSuperType (.named "app.Right"))]

/-- A class with two supertypes that share theirs, which leads back to the class. -/
def diamond : SymbolTable := builtin.run diamondChanges

theorem reachable_diamond : Reachable diamond := ⟨diamondChanges, rfl⟩

/-- In the table `diamond` the shared supertype is named once and last, also after the class
was converted and the names above the shared one were asked for. -/
theorem supertypeClosure_nearestFirst_diamond :
    Reachable diamond ∧ 17 < diamond.size ∧
    Checked.climb diamond 20 ⟨[17], [17], []⟩ = .ok ["app.Left", "app.Right", "app.Top"] ∧
    (∃ order : List DeclId, order.Nodup ∧ 17 ∉ order ∧
      order.filterMap diamond.qualifiedName? = ["app.Left", "app.Right", "app.Top"]) ∧
    ∀ found, found = ([.element .full 17, .namesAbove 14].mapM (Call.perform diamond) []).2 →
      (namesAbove diamond 17 found).1 = ["app.Left", "app.Right", "app.Top"] := by
  have hsize : 17 < diamond.size := by decide +kernel
  have hnames : diamond.supertypeClosure 17 = ["app.Left", "app.Right", "app.Top"] := by
    decide +kernel
  obtain ⟨hends, ⟨order, hnodup, hmem, -, horder⟩, hrecalled⟩ :=
    supertypeClosure_nearestFirst reachable_diamond hsize
  refine ⟨reachable_diamond, hsize, ?_, ⟨order, hnodup, ?_, ?_⟩, ?_⟩
  · rw [← hnames]
    exact hends 20 (by decide +kernel)
  · exact fun hself => ((hmem 17).mp hself).1 rfl
  · rw [← hnames, horder]
  · rintro found rfl
    rw [← hnames]
    exact (hrecalled _).2

end SymbolTable
end SymbolGraph
