/-
# A class in full accounts for all its members

Members are told apart twice: the table decides by the kind of the declaration
what becomes of a member, and the element decides by the kind of what it holds
which list a member is in. The first decision leaves nothing out but
companions, and keeps the order of the declarations (`forall₂_filterMap_filter`).
The second gives each member exactly one sort (`Element.memberSort?`), and each
of the five lists is what has one of the sorts (`sorted_eq_map_filter`), so the
lists are a partition of the members (`Partition.of_keys`).

Key definitions: `Partition`, `MemberSort`, `ClassElement.sorted`,
`SymbolTable.memberDepth`, `SymbolTable.AccountsFor`.
Key theorems: `Partition.of_keys`, `sorted_eq_map_filter`, `member?_of_kept`,
`members_accounted`.
-/
import Mathlib.Data.List.Forall2
import SymbolGraph.Element.Members
import SymbolGraph.Proofs.Arena
import SymbolGraph.Proofs.Converted
import SymbolGraph.Proofs.Parts

namespace SymbolGraph

/-! ### Lists cut into parts -/

section Lists

variable {α β κ : Type}

/-- Lists that hold the items of a list, each in the order of the list, and share none. -/
structure Partition (parts : List (List α)) (whole : List α) : Prop where
  covers : parts.flatten.Perm whole
  disjoint : parts.Pairwise List.Disjoint
  inOrder : ∀ part ∈ parts, part.Sublist whole

/-- What has one of the keys, key by key, is a list again if every item has one of them. -/
theorem flatten_filter_perm [DecidableEq κ] (key : α → κ) : ∀ (keys : List κ) (whole : List α),
    keys.Nodup → (∀ a ∈ whole, key a ∈ keys) →
    (keys.map fun k => whole.filter fun a => key a = k).flatten.Perm whole
  | [], whole, _, h => by
    have hnil : whole = [] := List.eq_nil_iff_forall_not_mem.mpr fun a ha => by simpa using h a ha
    rw [hnil]
    exact List.Perm.refl _
  | k :: keys, whole, hkeys, h => by
    obtain ⟨hk, hkeys⟩ := List.nodup_cons.mp hkeys
    -- What has a later key does not have the first one, so it is found among the rest.
    have hrest : ∀ k' ∈ keys, (whole.filter fun a => key a = k') =
        (whole.filter fun a => !decide (key a = k)).filter fun a => key a = k' := by
      intro k' hk'
      rw [List.filter_filter]
      refine List.filter_congr fun a _ => ?_
      have hne : k' ≠ k := fun heq => hk (heq ▸ hk')
      by_cases ha : key a = k' <;> simp [ha, hne]
    rw [List.map_cons, List.flatten_cons, List.map_congr_left hrest]
    refine ((flatten_filter_perm key keys _ hkeys ?_).append_left _).trans
      (List.filter_append_perm _ whole)
    intro a ha
    obtain ⟨ha, hne⟩ := List.mem_filter.mp ha
    exact (List.mem_cons.mp (h a ha)).resolve_left (by simpa using hne)

/-- **A list is cut into parts by a key**, if every item has one of the keys. -/
theorem Partition.of_keys [DecidableEq κ] {key : α → κ} {keys : List κ} {whole : List α}
    (hkeys : keys.Nodup) (h : ∀ a ∈ whole, key a ∈ keys) :
    Partition (keys.map fun k => whole.filter fun a => key a = k) whole where
  covers := flatten_filter_perm key keys whole hkeys h
  disjoint := by
    refine List.pairwise_map.mpr (hkeys.imp ?_)
    intro k k' hne a ha ha'
    have hk : key a = k := by simpa using (List.mem_filter.mp ha).2
    have hk' : key a = k' := by simpa using (List.mem_filter.mp ha').2
    exact hne (hk.symm.trans hk')
  inOrder part hpart := by
    obtain ⟨k, -, rfl⟩ := List.mem_map.mp hpart
    exact List.filter_sublist

/-- What a partial function finds in a list belongs one for one to what is kept of the list, if
it finds something for exactly that. -/
theorem forall₂_filterMap_filter {R : α → β → Prop} {keep : α → Bool} {find? : α → Option β} :
    ∀ l : List α,
      (∀ a ∈ l, keep a = true → ∃ b, find? a = some b ∧ R a b) →
      (∀ a ∈ l, keep a = false → find? a = none) →
      List.Forall₂ R (l.filter keep) (l.filterMap find?)
  | [], _, _ => List.Forall₂.nil
  | a :: l, hsome, hnone => by
    have ih : List.Forall₂ R (l.filter keep) (l.filterMap find?) :=
      forall₂_filterMap_filter l (fun b hb => hsome b (List.mem_cons_of_mem a hb))
        (fun b hb => hnone b (List.mem_cons_of_mem a hb))
    cases hkeep : keep a with
    | true =>
      obtain ⟨b, hb, hab⟩ := hsome a List.mem_cons_self hkeep
      rw [List.filter_cons_of_pos hkeep, List.filterMap_cons_some hb]
      exact List.Forall₂.cons hab ih
    | false =>
      rw [List.filter_cons_of_neg (by simp [hkeep]),
        List.filterMap_cons_none (hnone a List.mem_cons_self hkeep)]
      exact ih

end Lists

/-! ### The sort of a member -/

/-- The five lists in which a class has its members. -/
inductive MemberSort
  | nestedType | enumConstant | method | constructor | property
  deriving DecidableEq, Repr

/-- Every sort. -/
def MemberSort.all : List MemberSort :=
  [.nestedType, .enumConstant, .method, .constructor, .property]

/-- The list a member is in. -/
def Element.memberSort? : Element → Option MemberSort
  | .classLike c => some (if c.kind = .enumEntry then .enumConstant else .nestedType)
  | .callable m => some (if m.isConstructor then .constructor else .method)
  | .property _ => some .property
  | .variable _ | .typeParameter _ | .stub _ => none

namespace ClassElement

/-- The members in the five lists, list by list. -/
def sorted (c : ClassElement) : List (List Element) :=
  [c.nestedTypes.map .classLike, c.enumConstants.map .classLike, c.methods.map .callable,
    c.constructors.map .callable, c.properties.map .property]

/-- Elements taken out of a list, those that pass a test, and put back, are those that are of
the kind and pass it. -/
theorem map_filter_filterMap {α : Type} {as? : Element → Option α} {wrap : α → Element}
    (h : ∀ {e a}, as? e = some a ↔ e = wrap a) (p : α → Bool) (es : List Element) :
    ((es.filterMap as?).filter p).map wrap = es.filter fun e => (as? e).any p := by
  induction es with
  | nil => rfl
  | cons e es ih =>
    cases he : as? e with
    | none => simpa [he] using ih
    | some a =>
      obtain rfl := h.mp he
      by_cases hp : p a
      · simpa [he, hp] using ih
      · simpa [he, hp] using ih

/-- Each of the five lists is what has its sort. -/
theorem sorted_eq_map_filter (c : ClassElement) : c.sorted = (MemberSort.all.map some).map
    fun sort => c.header.enclosed.filter fun e => e.memberSort? = sort := by
  have hproperties : c.properties.map Element.property =
      c.header.enclosed.filter fun e => e.asProperty?.any fun _ => true := by
    rw [← map_filter_filterMap Element.asProperty?_eq_some_iff, List.filter_eq_self.mpr fun _ _ => rfl]
    rfl
  unfold sorted nestedTypes enumConstants methods constructors classes callables
  rw [map_filter_filterMap Element.asClass?_eq_some_iff,
    map_filter_filterMap Element.asClass?_eq_some_iff,
    map_filter_filterMap Element.asCallable?_eq_some_iff,
    map_filter_filterMap Element.asCallable?_eq_some_iff, hproperties]
  simp only [MemberSort.all, List.map_cons, List.map_nil, List.cons.injEq, and_true]
  refine ⟨?_, ?_, ?_, ?_, ?_⟩ <;>
  · refine List.filter_congr fun e _ => ?_
    cases e with
    | classLike k =>
      by_cases hk : k.kind = .enumEntry <;>
      simp [Element.asClass?, Element.asCallable?, Element.asProperty?, Element.memberSort?, hk]
    | callable m =>
      by_cases hm : m.isConstructor <;>
      simp [Element.asClass?, Element.asCallable?, Element.asProperty?, Element.memberSort?, hm]
    | property _ | «variable» _ | typeParameter _ | stub _ =>
      simp [Element.asClass?, Element.asCallable?, Element.asProperty?, Element.memberSort?]

/-- If everything in a class has a sort, the five lists are a partition of it. -/
theorem partition_sorted {c : ClassElement} (h : ∀ e ∈ c.header.enclosed, e.memberSort?.isSome) :
    Partition c.sorted c.header.enclosed := by
  rw [sorted_eq_map_filter]
  refine Partition.of_keys (by decide) fun e he => ?_
  obtain ⟨sort, hsort⟩ := Option.isSome_iff_exists.mp (h e he)
  rw [hsort]
  exact List.mem_map_of_mem (by cases sort <;> decide)

end ClassElement

/-! ### What becomes of a member -/

namespace SymbolTable

variable {t : SymbolTable}

/-- The depth at which a class in full holds a member: an entry of an enum is flat, everything
else has its bounds. -/
def memberDepth (t : SymbolTable) (m : DeclId) : Depth :=
  match (t.decl? m).bind (·.asClass) with
  -- a companion is set apart before anything asks whether it is an entry
  | some c => if !c.isCompanion ∧ c.kind = .enumEntry then .flat else .bounded
  | none => .bounded

/-- The element stands for the member, at the depth at which a class in full holds it. -/
def Holds (t : SymbolTable) (m : DeclId) (e : Element) : Prop :=
  t.element? (t.memberDepth m) m = some e

/-- The class `c` accounts for the members: all but the companions stand in it, one for one and
in order; the first companion stands apart; and each of those that stand in it is in exactly one
of the five lists. -/
structure AccountsFor (t : SymbolTable) (members : List DeclId) (c : ClassElement) : Prop where
  enclosed : List.Forall₂ t.Holds (members.filter fun m => !t.isCompanion m) c.header.enclosed
  companion : ∀ m, members.find? t.isCompanion = some m →
    ∃ k, t.classElement? .bounded m = some k ∧ c.companion = some k
  noCompanion : members.find? t.isCompanion = none → c.companion = none
  partition : Partition c.sorted c.header.enclosed
  /-- With one companion at most, all members are there, and each of them once. -/
  complete : (members.filter t.isCompanion).length ≤ 1 → ∃ order, order.Perm members ∧
    List.Forall₂ t.Holds order (c.companion.toList.map .classLike ++ c.header.enclosed)

theorem isCompanion_of_decl? {m : DeclId} {d : Declaration} {c : ClassShape}
    (hd : t.decl? m = some d) (hc : d.asClass = some c) : t.isCompanion m = c.isCompanion := by
  rw [isCompanion, hd, Option.bind_some, hc]

theorem exists_of_isCompanion {m : DeclId} (h : t.isCompanion m = true) :
    ∃ d c, t.decl? m = some d ∧ d.asClass = some c ∧ c.isCompanion = true := by
  unfold isCompanion at h
  split at h
  · rename_i c hc
    obtain ⟨d, hd, hc⟩ := Option.bind_eq_some_iff.mp hc
    exact ⟨d, c, hd, hc, h⟩
  · exact absurd h (by simp)

theorem memberDepth_of_decl? {m : DeclId} {d : Declaration} {c : ClassShape}
    (hd : t.decl? m = some d) (hc : d.asClass = some c) :
    t.memberDepth m = if !c.isCompanion ∧ c.kind = .enumEntry then .flat else .bounded := by
  rw [memberDepth, hd, Option.bind_some, hc]

theorem memberDepth_of_not_class {m : DeclId} {d : Declaration} (hd : t.decl? m = some d)
    (hc : d.asClass = none) : t.memberDepth m = .bounded := by
  rw [memberDepth, hd, Option.bind_some, hc]

/-- A companion is there to be held, with its bounds, whatever its kind. -/
theorem exists_companion {m : DeclId} (hm : t.isCompanion m = true) :
    ∃ k, t.classElement? .bounded m = some k ∧ t.Holds m (.classLike k) := by
  obtain ⟨d, c, hd, hc, hcompanion⟩ := exists_of_isCompanion hm
  obtain ⟨k, hk⟩ := exists_classElement? (t := t) .bounded hd hc
  refine ⟨k, hk, ?_⟩
  rw [Holds, memberDepth_of_decl? hd hc, if_neg (by simp [hcompanion])]
  exact element?_of_classElement? hk

/-- **A member that is no companion is kept**, at its depth and with a sort. -/
theorem member?_of_kept {p m : DeclId} (hm : t.MemberOf p m) (hkeep : t.isCompanion m = false) :
    ∃ e, t.member? .bounded t.boundedClass? m = some e ∧ t.Holds m e ∧ e.memberSort?.isSome := by
  obtain ⟨d, hd, -, hnoparameter⟩ := hm
  rw [member?_of_decl? .bounded t.boundedClass? hd]
  unfold Holds
  cases hs : d.shape with
  | classLike c =>
    have hc : d.asClass = some c := Draft.asClass_eq_some_iff.mpr hs
    rw [isCompanion_of_decl? hd hc] at hkeep
    simp only [hkeep, Bool.false_eq_true, if_false, memberDepth_of_decl? hd hc, Bool.not_false,
      true_and]
    by_cases hk : c.kind = .enumEntry
    · obtain ⟨k, hflat⟩ := exists_classElement? (t := t) .flat hd hc
      rw [if_pos hk, if_pos hk]
      exact ⟨.classLike k, Option.map_eq_some_iff.mpr ⟨k, hflat, rfl⟩,
        element?_of_classElement? hflat, rfl⟩
    · obtain ⟨k, hbounded⟩ := exists_classElement? (t := t) .bounded hd hc
      rw [if_neg hk, if_neg hk]
      exact ⟨.classLike k, Option.map_eq_some_iff.mpr ⟨k, hbounded, rfl⟩,
        element?_of_classElement? hbounded, rfl⟩
  | callable c =>
    have hnoclass : d.asClass = none := by rw [Draft.asClass, hs]
    obtain ⟨k, hk⟩ : ∃ k, t.callable? .bounded m = some k :=
      ⟨_, conversion_eq_some_iff.mpr ⟨d, c, hd, Draft.asCallable_eq_some_iff.mpr hs, rfl⟩⟩
    rw [memberDepth_of_not_class hd hnoclass]
    exact ⟨.callable k, Option.map_eq_some_iff.mpr ⟨k, hk, rfl⟩, element?_of_callable? hk, rfl⟩
  | property c =>
    have hnoclass : d.asClass = none := by rw [Draft.asClass, hs]
    obtain ⟨k, hk⟩ : ∃ k, t.property? .bounded m = some k :=
      ⟨_, conversion_eq_some_iff.mpr ⟨d, c, hd, Draft.asProperty_eq_some_iff.mpr hs, rfl⟩⟩
    rw [memberDepth_of_not_class hd hnoclass]
    exact ⟨.property k, Option.map_eq_some_iff.mpr ⟨k, hk, rfl⟩, element?_of_property? hk, rfl⟩
  | typeParameter c => simp [Draft.asTypeParameter, hs] at hnoparameter

/-- A companion does not stand among the members. -/
theorem member?_of_companion {depth : Depth} {nested? : DeclId → Option ClassElement} {m : DeclId}
    (h : t.isCompanion m = true) : t.member? depth nested? m = none := by
  obtain ⟨d, c, hd, hc, hcompanion⟩ := exists_of_isCompanion h
  rw [member?_of_decl? depth nested? hd, Draft.asClass_eq_some_iff.mp hc]
  exact if_pos hcompanion

/-! ### All members together -/

theorem members_of_fullClass? {id : DeclId} {d : Declaration} {c : ClassElement}
    (hd : t.decl? id = some d) (h : t.classElement? .full id = some c) :
    c.header.enclosed = d.members.filterMap (t.member? .bounded t.boundedClass?) ∧
      c.companion = (d.members.find? t.isCompanion).bind (t.classElement? .bounded) := by
  obtain ⟨_, -, rfl⟩ := exists_of_conversion hd h
  exact ⟨rfl, rfl⟩

/-- With one companion at most, the companions are what stands apart. -/
theorem forall₂_holds_companion {members : List DeclId} {c : ClassElement}
    (hc : c.companion = (members.find? t.isCompanion).bind (t.classElement? .bounded))
    (hone : (members.filter t.isCompanion).length ≤ 1) :
    List.Forall₂ t.Holds (members.filter t.isCompanion) (c.companion.toList.map .classLike) := by
  have hhead : (members.filter t.isCompanion).head? = members.find? t.isCompanion :=
    List.head?_filter
  match hcompanions : members.filter t.isCompanion with
  | [] =>
    rw [hcompanions] at hhead
    rw [hc, ← hhead]
    exact List.Forall₂.nil
  | [m] =>
    rw [hcompanions] at hhead
    obtain ⟨k, hk, hholds⟩ := exists_companion (List.find?_some hhead.symm)
    rw [hc, ← hhead, List.head?_cons, Option.bind_some, hk]
    exact List.Forall₂.cons hholds List.Forall₂.nil
  | _ :: _ :: _ => simp [hcompanions] at hone

/-- What is made of the members accounts for them, if none of them is a type parameter. -/
theorem AccountsFor.of_members {p : DeclId} {members : List DeclId} {c : ClassElement}
    (hmembers : ∀ m ∈ members, t.MemberOf p m)
    (henclosed : c.header.enclosed = members.filterMap (t.member? .bounded t.boundedClass?))
    (hcompanion : c.companion = (members.find? t.isCompanion).bind (t.classElement? .bounded)) :
    t.AccountsFor members c := by
  have hheld : List.Forall₂ t.Holds (members.filter fun m => !t.isCompanion m)
      c.header.enclosed := by
    rw [henclosed]
    refine forall₂_filterMap_filter members (fun m hm hkeep => ?_) fun m _ hdrop => ?_
    · obtain ⟨e, he, hholds, -⟩ := member?_of_kept (hmembers m hm) (by simpa using hkeep)
      exact ⟨e, he, hholds⟩
    · exact member?_of_companion (by simpa using hdrop)
  have hsorts : ∀ e ∈ c.header.enclosed, e.memberSort?.isSome := by
    intro e he
    rw [henclosed] at he
    obtain ⟨m, hm, he⟩ := List.mem_filterMap.mp he
    cases hkeep : t.isCompanion m with
    | true => exact absurd ((member?_of_companion hkeep).symm.trans he) (by simp)
    | false =>
      obtain ⟨e', he', -, hsort⟩ := member?_of_kept (hmembers m hm) hkeep
      exact Option.some.inj (he'.symm.trans he) ▸ hsort
  exact
    { enclosed := hheld
      companion := fun m hm => by
        obtain ⟨k, hk, -⟩ := exists_companion (List.find?_some hm)
        exact ⟨k, hk, by rw [hcompanion, hm, Option.bind_some, hk]⟩
      noCompanion := fun hnone => by rw [hcompanion, hnone, Option.bind_none]
      partition := ClassElement.partition_sorted hsorts
      complete := fun hone =>
        ⟨members.filter t.isCompanion ++ members.filter fun m => !t.isCompanion m,
          List.filter_append_perm t.isCompanion members,
          List.rel_append (forall₂_holds_companion hcompanion hone) hheld⟩ }

/-- **A class in full accounts for all its members.** What stands in it are its members in the
order of their declaration, but for the companions, and the first companion stands apart. The
five lists are a partition of what stands in it. With one companion at most nothing is lost and
nothing is there twice. -/
theorem members_accounted (h : Reachable t) {id : DeclId} {d : Declaration}
    (hd : t.decl? id = some d) (hc : d.asClass.isSome) :
    ∃ c, t.classElement? .full id = some c ∧ ListsExactly d.members (t.MemberOf id) ∧
      t.AccountsFor d.members c := by
  have hlist : ListsExactly d.members (t.MemberOf id) := h.arena.members id d hd hc
  obtain ⟨shape, hshape⟩ := Option.isSome_iff_exists.mp hc
  obtain ⟨c, hfull⟩ := exists_classElement? (t := t) .full hd hshape
  obtain ⟨henclosed, hcompanion⟩ := members_of_fullClass? hd hfull
  exact ⟨c, hfull, hlist,
    AccountsFor.of_members (fun m hm => (hlist.2 m).mp hm) henclosed hcompanion⟩

/-! ### A class with members of every sort -/

/-- The changes that make the table `lamp`. -/
def lampChanges : List Change :=
  [.addFile "src/Mode.kt" "lamp",
   .declare (.file 0) (Draft.classLike "Mode" .enumType),
   .declare (.inside 14) (Draft.classLike "ON" .enumEntry),
   .declare (.inside 14) (Draft.classLike "Companion" .object).companion,
   .declare (.inside 14) (Draft.constructor []),
   .declare (.inside 14) (Draft.property "level" (.named "kotlin.Int")),
   .declare (.inside 14) (Draft.function "next" [] (some (.decl 14))),
   .declare (.inside 14) (Draft.classLike "Bulb" .classType),
   .declare (.inside 14) (Draft.typeParameter "T")]

/-- An enum with an entry, a companion, a constructor, a property, a function, a nested class
and a type parameter. -/
def lamp : SymbolTable := builtin.run lampChanges

theorem reachable_lamp : Reachable lamp := ⟨lampChanges, rfl⟩

/-- In the table `lamp` each of the five lists has one of the members, and the companion is the
sixth; the type parameter is no member. -/
theorem members_accounted_lamp : Reachable lamp ∧ ∃ d c, lamp.decl? 14 = some d ∧
    d.asClass.isSome ∧ d.members = [15, 16, 17, 18, 19, 20] ∧
    lamp.classElement? .full 14 = some c ∧ lamp.AccountsFor d.members c ∧
    c.sorted.map (fun es => es.map Element.simpleName) =
      [["Bulb"], ["ON"], ["next"], ["<init>"], ["level"]] ∧
    c.companion.map (fun k => k.header.simpleName) = some "Companion" := by
  have hmembers : (lamp.decl? 14).map (·.members) = some [15, 16, 17, 18, 19, 20] := by
    decide +kernel
  have hclass : (lamp.decl? 14).map (fun d => d.asClass.isSome) = some true := by decide +kernel
  obtain ⟨d, hd, hmembers⟩ := Option.map_eq_some_iff.mp hmembers
  rw [hd, Option.map_some, Option.some.injEq] at hclass
  obtain ⟨c, hc, -, haccounts⟩ := members_accounted reachable_lamp hd hclass
  have hsorts : (lamp.classElement? .full 14).map
      (fun c => c.sorted.map fun es => es.map Element.simpleName) =
      some [["Bulb"], ["ON"], ["next"], ["<init>"], ["level"]] := by
    decide +kernel
  have hcompanion : (lamp.classElement? .full 14).bind
      (fun c => c.companion.map fun k => k.header.simpleName) = some "Companion" := by
    decide +kernel
  rw [hc, Option.map_some, Option.some.injEq] at hsorts
  rw [hc, Option.bind_some] at hcompanion
  exact ⟨reachable_lamp, d, c, hd, hclass, hmembers, hc, haccounts, hsorts, hcompanion⟩

end SymbolTable
end SymbolGraph
