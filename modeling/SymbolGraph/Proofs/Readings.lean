/-
# Readings do not fail

The handles that a conversion reads come from four places: the parent of a
declaration, the lists of its members and its type parameters, and references
that were looked up. In a reachable table none of them leads out of the table
(`Closed`), so what a conversion reads about a declaration is there.

The climb along supertypes is a loop over a queue that grows while it is read.
It meets the declarations in the order of the breadth-first walk, each once, so
it ends after as many steps as the table has declarations (`climb_eq`).

Key definitions: `Closed`.
Key theorems: `Reachable.closed`, `climb_breadthFirst`, `climb_eq`.
-/
import Mathlib.Data.List.Perm.Basic
import SymbolGraph.Proofs.Checked
import SymbolGraph.Proofs.Names

namespace SymbolGraph
namespace SymbolTable

/-! ### Handles lead into the table -/

/-- No handle that a table gives out leads out of it. -/
structure Closed (t : SymbolTable) : Prop where
  parent : ∀ i d p, t.decl? i = some d → d.parent = some p → p < t.size
  members : ∀ i d, t.decl? i = some d → d.asClass.isSome → ∀ m ∈ d.members, m < t.size
  typeParameters : ∀ i d, t.decl? i = some d → d.asClass.isSome ∨ d.asCallable.isSome →
    ∀ p ∈ d.typeParameters, p < t.size
  resolved : ∀ r i, t.resolve? r = some i → i < t.size

theorem Reachable.closed {t : SymbolTable} (h : Reachable t) : Closed t where
  parent _ _ _ hd hp := h.arena.no_child hd hp
  members i d hd hc m hm := ((h.arena.members i d hd hc).2 m).mp hm |>.lt_size
  typeParameters i d hd hc p hp := ((h.arena.typeParameters i d hd hc).2 p).mp hp |>.lt_size
  resolved r i hr := by
    unfold resolve? at hr
    split at hr
    · rename_i name _
      exact lt_size_of_qualifiedName? ((h.lookup?_eq_find?.lookup?_eq_some_iff name i).mp hr).1
    · split at hr
      · rename_i hlt
        exact Option.some.inj hr ▸ hlt
      · exact absurd hr (by simp)

end SymbolTable

namespace Checked

open SymbolTable (Closed decl?_of_lt)

variable {t : SymbolTable}

/-! ### What is read about one declaration -/

theorem get_eq {id : DeclId} {d : Declaration} (hd : t.decl? id = some d) :
    get t id = .ok d := by
  rw [get, hd]

theorem stub_eq {id : DeclId} {d : Declaration} (hd : t.decl? id = some d) :
    stub t id = .ok d.stub := by
  rw [stub, get_eq hd]
  rfl

theorem fileOf?_eq {id : DeclId} {d : Declaration} (hd : t.decl? id = some d) :
    (t.fileOf? id).map SourceFile.ref = t.fileRef? d := by
  rw [SymbolTable.fileOf?, SymbolTable.fileIdOf?, hd]
  rfl

variable (h : Closed t)
include h

theorem enclosing_eq {id : DeclId} {d : Declaration} (hd : t.decl? id = some d) :
    enclosing t d = .ok (t.enclosingStub? d) := by
  unfold enclosing SymbolTable.enclosingStub?
  cases hp : d.parent with
  | none => rfl
  | some p =>
    obtain ⟨o, ho⟩ := decl?_of_lt (h.parent id d p hd hp)
    simp only [Option.mapM_some, stub_eq ho, Option.bind_some, SymbolTable.stub?, ho]
    rfl

theorem headerType_eq {id : DeclId} (hid : id < t.size) :
    headerType t id = .ok (t.headerType id) := by
  obtain ⟨d, hd⟩ := decl?_of_lt hid
  simp only [headerType, SymbolTable.headerType, get_eq hd, hd, bind, Except.bind]
  cases hc : d.asClass with
  | none => rfl
  | some c =>
    simp only [enclosing_eq h hd, stub_eq hd, fileOf?_eq hd]
    rfl

theorem annotationName_eq (r : TypeRef) : annotationName t r = .ok (t.annotationName? r) := by
  unfold annotationName SymbolTable.annotationName?
  cases hr : t.resolve? r with
  | none => rfl
  | some id =>
    obtain ⟨d, hd⟩ := decl?_of_lt (h.resolved r id hr)
    simp only [get_eq hd, hd]
    rfl

theorem annotationType_eq (r : TypeRef) : annotationType t r = .ok (t.annotationType r) := by
  unfold annotationType SymbolTable.annotationType
  cases hr : t.resolve? r with
  | none => rfl
  | some id => exact headerType_eq h (h.resolved r id hr)

theorem usageHeader_eq (u : Usage) :
    usageHeader t u = .ok (t.usageHeader u.shortName u.type) := by
  rw [usageHeader, annotationType_eq h, annotationName_eq h]
  rfl

theorem enumValue_eq (entry : TypeRef) : enumValue t entry = .ok (t.enumValue entry) := by
  unfold enumValue SymbolTable.enumValue SymbolTable.target?
  cases hr : t.resolve? entry with
  | none => rfl
  | some id =>
    obtain ⟨d, hd⟩ := decl?_of_lt (h.resolved entry id hr)
    simp only [enumType, SymbolTable.parent?, Option.bind_some, hd, stub_eq hd]
    cases hp : d.parent with
    | none => rfl
    | some owner =>
      simp only [headerType_eq h (h.parent id d owner hd hp)]
      rfl

theorem classValue_eq (r : TypeRef) : classValue t r = .ok (t.classValue r) := by
  rw [classValue, annotationName_eq h, SymbolTable.classValue]
  cases t.annotationName? r <;> rfl

theorem inInterface_eq {id : DeclId} {d : Declaration} (hd : t.decl? id = some d) :
    inInterface t d = .ok (t.inInterface d) := by
  unfold inInterface SymbolTable.inInterface
  cases hp : d.parent with
  | none => rfl
  | some p =>
    obtain ⟨o, ho⟩ := decl?_of_lt (h.parent id d p hd hp)
    simp only [isInterface, get_eq ho, Option.bind_some, ho, bind, Except.bind]
    cases o.asClass <;> rfl

theorem isInterface_eq {r : TypeRef} {id : DeclId} (hr : t.resolve? r = some id) :
    isInterface t id = .ok (t.isInterface r) := by
  obtain ⟨d, hd⟩ := decl?_of_lt (h.resolved r id hr)
  simp only [isInterface, SymbolTable.isInterface, SymbolTable.target?, hr, get_eq hd,
    Option.bind_some, hd, bind, Except.bind]
  cases d.asClass <;> rfl

omit h in
theorem isCompanion_eq {id : DeclId} (hid : id < t.size) :
    isCompanion t id = .ok (t.isCompanion id) := by
  obtain ⟨d, hd⟩ := decl?_of_lt hid
  simp only [isCompanion, SymbolTable.isCompanion, get_eq hd, hd, Option.bind_some, bind,
    Except.bind]
  cases d.asClass <;> rfl

omit h in
/-- The companion object is searched for among members that are all there. -/
theorem findM?_isCompanion : ∀ members : List DeclId, (∀ m ∈ members, m < t.size) →
    members.findM? (isCompanion t) = .ok (members.find? t.isCompanion)
  | [], _ => rfl
  | m :: ms, hms => by
    have ih := findM?_isCompanion ms fun k hk => hms k (List.mem_cons_of_mem _ hk)
    rw [List.findM?, isCompanion_eq (hms m List.mem_cons_self), List.find?_cons, ih]
    cases t.isCompanion m <;> rfl

/-! ### The climb along supertypes -/

omit h in
/-- A supertype that points nowhere, or was met before, changes nothing. -/
theorem meet_old {r : TypeRef} {met waiting : List DeclId} {names : List String}
    (hr : ∀ id, t.resolve? r = some id → id ∈ met) :
    meet t ⟨met, waiting, names⟩ r = .ok ⟨met, waiting, names⟩ := by
  unfold meet
  cases hid : t.resolve? r with
  | none => rfl
  | some id =>
    simp only [if_pos (hr id hid)]
    rfl

/-- A supertype met for the first time waits, and its name is taken down. -/
theorem meet_new {r : TypeRef} {id : DeclId} {met waiting : List DeclId} {names : List String}
    (hr : t.resolve? r = some id) (hid : id ∉ met) :
    meet t ⟨met, waiting, names⟩ r =
      .ok ⟨met ++ [id], waiting ++ [id], names ++ (t.qualifiedName? id).toList⟩ := by
  obtain ⟨d, hd⟩ := decl?_of_lt (h.resolved r id hr)
  have hname : t.qualifiedName? id = d.qualifiedName := by
    rw [SymbolTable.qualifiedName?, hd, Option.bind_some]
  rw [hname]
  simp only [meet, hr, if_neg hid, get_eq hd]
  rfl

/-- The supertypes of one class: those met for the first time are taken, in order. -/
theorem foldlM_meet : ∀ (rs : List TypeRef) (met waiting seen : List DeclId) (names : List String),
    (∀ i, i ∈ seen ↔ i ∈ met) →
    let fresh := Distinct.fresh seen (rs.filterMap t.resolve?)
    rs.foldlM (meet t) ⟨met, waiting, names⟩ =
      .ok ⟨met ++ fresh, waiting ++ fresh, names ++ fresh.filterMap t.qualifiedName?⟩
  | [], met, waiting, seen, names, _ => by
    simp [Distinct.fresh]
    rfl
  | r :: rs, met, waiting, seen, names, hseen => by
    rw [List.foldlM_cons, List.filterMap_cons]
    cases hr : t.resolve? r with
    | none =>
      rw [meet_old fun id hid => absurd (hr.symm.trans hid) (by simp)]
      exact foldlM_meet rs met waiting seen names hseen
    | some id =>
      simp only [Distinct.fresh]
      by_cases hid : id ∈ met
      · rw [if_pos ((hseen id).mpr hid),
          meet_old fun i hi => Option.some.inj (hr.symm.trans hi) ▸ hid]
        exact foldlM_meet rs met waiting seen names hseen
      · have hseen' : ∀ i, i ∈ id :: seen ↔ i ∈ met ++ [id] := by
          intro i
          rw [List.mem_cons, List.mem_append, List.mem_singleton, hseen i, or_comm]
        have ih := foldlM_meet rs _ (waiting ++ [id]) _ (names ++ (t.qualifiedName? id).toList) hseen'
        simp only [List.append_assoc, List.singleton_append] at ih
        rw [if_neg fun hs => hid ((hseen id).mp hs), meet_new h hr hid]
        refine ih.trans ?_
        cases hq : t.qualifiedName? id <;> simp [hq]

/-- One step of the climb. -/
theorem climb_succ {id : DeclId} (hid : id < t.size) (fuel : Nat) (met waiting : List DeclId)
    (names : List String) :
    let fresh := Distinct.fresh met (t.superDecls id)
    climb t (fuel + 1) ⟨met, id :: waiting, names⟩ =
      climb t fuel ⟨met ++ fresh, waiting ++ fresh, names ++ fresh.filterMap t.qualifiedName?⟩ := by
  obtain ⟨d, hd⟩ := decl?_of_lt hid
  simp only [climb, get_eq hd, SymbolTable.superDecls, hd, Option.bind_some, bind, Except.bind]
  cases hc : d.asClass with
  | none => simp [Distinct.fresh]
  | some c =>
    have hfold := foldlM_meet h c.superTypes met waiting met names fun _ => Iff.rfl
    simp only at hfold ⊢
    rw [hfold]

theorem superDecls_lt {id i : DeclId} (hi : i ∈ t.superDecls id) : i < t.size := by
  unfold SymbolTable.superDecls at hi
  split at hi
  · obtain ⟨r, -, hr⟩ := List.mem_filterMap.mp hi
    exact h.resolved r i hr
  · exact absurd hi List.not_mem_nil

omit h in
/-- A table has room for so many different handles only. -/
theorem length_le_size {ids : List DeclId} (hnodup : ids.Nodup) (hlt : ∀ i ∈ ids, i < t.size) :
    ids.length ≤ t.size := by
  have hsub : ids ⊆ List.range t.size := fun i hi => List.mem_range.mpr (hlt i hi)
  simpa using (List.subperm_of_subset hnodup hsub).length_le

/-- **The climb is the breadth-first walk.** With at least as many steps left as there are
declarations not yet done, the climb ends, with the names of what the walk meets. -/
theorem climb_breadthFirst : ∀ (steps fuel : Nat) (done waiting : List DeclId)
    (names : List String), (done ++ waiting).Nodup → (∀ i ∈ done ++ waiting, i < t.size) →
    t.size ≤ steps + done.length → steps < fuel →
    ∃ rest, Walk.breadthFirst t.superDecls steps done waiting = done ++ waiting ++ rest ∧
      climb t fuel ⟨done ++ waiting, waiting, names⟩ = .ok (names ++ rest.filterMap t.qualifiedName?)
  | steps, fuel + 1, done, [], names, _, _, _, _ => by
    refine ⟨[], ?_, ?_⟩
    · cases steps <;> simp [Walk.breadthFirst]
    · simp [climb]
      rfl
  | 0, fuel, done, x :: waiting, names, hnodup, hlt, hsize, _ => by
    -- all declarations are done, so none can wait
    have hle := length_le_size hnodup hlt
    rw [List.length_append, List.length_cons] at hle
    omega
  | steps + 1, fuel + 1, done, x :: waiting, names, hnodup, hlt, hsize, hfuel => by
    have hx : x < t.size := hlt x (by simp)
    have hstep := climb_succ h hx fuel (done ++ x :: waiting) waiting names
    simp only at hstep
    have hbf : Walk.breadthFirst t.superDecls (steps + 1) done (x :: waiting) =
        Walk.breadthFirst t.superDecls steps (done ++ [x])
          (waiting ++ Distinct.fresh (done ++ x :: waiting) (t.superDecls x)) := rfl
    have hfresh : (Distinct.fresh (done ++ x :: waiting) (t.superDecls x)).Nodup :=
      Distinct.nodup_fresh
    have hmem : ∀ i ∈ Distinct.fresh (done ++ x :: waiting) (t.superDecls x),
        i < t.size ∧ i ∉ done ++ x :: waiting := fun i hi =>
      ⟨superDecls_lt h (Distinct.mem_fresh.mp hi).1, (Distinct.mem_fresh.mp hi).2⟩
    revert hstep hbf hfresh hmem
    generalize Distinct.fresh (done ++ x :: waiting) (t.superDecls x) = fresh
    intro hstep hbf hfresh hmem
    have hall : done ++ [x] ++ (waiting ++ fresh) = done ++ x :: waiting ++ fresh := by simp
    have hnodup' : (done ++ [x] ++ (waiting ++ fresh)).Nodup := by
      rw [hall]
      refine List.nodup_append.mpr ⟨hnodup, hfresh, fun a ha b hb hab => ?_⟩
      exact (hmem b hb).2 (hab ▸ ha)
    have hlt' : ∀ i ∈ done ++ [x] ++ (waiting ++ fresh), i < t.size := by
      rw [hall]
      exact List.forall_mem_append.mpr ⟨hlt, fun i hi => (hmem i hi).1⟩
    have hsize' : t.size ≤ steps + (done ++ [x]).length := by
      rw [List.length_append, List.length_singleton]
      omega
    obtain ⟨rest, hrest, hclimb⟩ := climb_breadthFirst steps fuel (done ++ [x]) (waiting ++ fresh)
      (names ++ fresh.filterMap t.qualifiedName?) hnodup' hlt' hsize' (by omega)
    refine ⟨fresh ++ rest, ?_, ?_⟩
    · rw [hbf, hrest, hall, List.append_assoc]
    · rw [hstep, ← hall, hclimb, List.filterMap_append, List.append_assoc]

/-- The climb from a declaration ends, with the names of all declarations above it. -/
theorem climb_eq {id : DeclId} (hid : id < t.size) {fuel : Nat} (hfuel : t.size < fuel) :
    climb t fuel ⟨[id], [id], []⟩ = .ok (t.supertypeClosure id) := by
  obtain ⟨rest, hrest, hclimb⟩ := climb_breadthFirst h t.size fuel [] [id] []
    (by simp) (by simpa using hid) (by simp) hfuel
  rw [SymbolTable.supertypeClosure, SymbolTable.supertypeOrder, hrest]
  exact hclimb

end Checked
end SymbolGraph
