/-
# The files of the parts of a tree

The elements inside a converted tree are of three sorts. Members, companions and type
parameters are converted from declarations of their own, which stand in the file of the
root; parameters and backing fields, and accessors, are made from the declaration they
belong to, and get its file. One step inward leads to an element of these sorts
(`inside_of_fromElement`), and what comes from a declaration of its own is where the next
step begins, so the elements that a walk inward leads to know the file of the root
(`knows_of_follow?`).

The parameter of a setter is the exception: it is made from nothing but the type of the
property, and has no file and no name to find one by. A processor that asks for the file
of such a parameter gets none, and what is generated from it depends on no file
(`lost_setter_parameter`).

Key definitions: `Hop.isInward`, `Hop.endsAtSetterParameter`, `SymbolTable.Inside`,
`SymbolTable.TreePart`.
Key theorems: `SymbolTable.inside_of_fromElement`, `SymbolTable.knows_of_follow?`,
`SymbolTable.containingFile_of_part`, `SymbolTable.lost_setter_parameter`.
-/
import Mathlib.Data.List.Basic
import SymbolGraph.Node
import SymbolGraph.Output.Dependencies
import SymbolGraph.Proofs.Locations
import SymbolGraph.Proofs.Parts

namespace SymbolGraph

/-! ### First occurrences come in order -/

/-- What is kept of a list is in the order of first occurrences. -/
theorem Distinct.pairwise_fresh {α : Type} [DecidableEq α] : ∀ (xs seen : List α),
    (fresh seen xs).Pairwise fun a b => xs.idxOf a < xs.idxOf b
  | [], _ => List.Pairwise.nil
  | x :: xs, seen => by
    have hlater : ∀ seen : List α, x ∈ seen →
        (fresh seen xs).Pairwise fun a b => (x :: xs).idxOf a < (x :: xs).idxOf b := by
      intro seen hx
      refine (pairwise_fresh xs seen).imp_of_mem fun {a b} ha hb hab => ?_
      have hxa : x ≠ a := fun heq => (mem_fresh.mp ha).2 (heq ▸ hx)
      have hxb : x ≠ b := fun heq => (mem_fresh.mp hb).2 (heq ▸ hx)
      rw [List.idxOf_cons_ne xs hxa, List.idxOf_cons_ne xs hxb]
      omega
    rw [fresh]
    by_cases hx : x ∈ seen
    · rw [if_pos hx]
      exact hlater seen hx
    · rw [if_neg hx]
      refine List.Pairwise.cons (fun b hb => ?_) (hlater (x :: seen) List.mem_cons_self)
      have hxb : x ≠ b := fun heq => (mem_fresh.mp hb).2 (heq ▸ List.mem_cons_self)
      rw [List.idxOf_cons_self, List.idxOf_cons_ne xs hxb]
      omega

/-! ### Walks inward -/

/-- Nothing is inside the element. -/
structure Element.Leaf (e : Element) : Prop where
  enclosed : e.enclosed = []
  companion : e.asClass?.bind ClassElement.companion = none
  typeParameters : e.typeParameters = []
  callable : e.asCallable? = none
  property : e.asProperty? = none

/-- A variable without members is a leaf. -/
theorem Element.leaf_variable {v : Variable} (hv : v.header.enclosed = []) :
    (Element.variable v).Leaf := ⟨hv, rfl, rfl, rfl, rfl⟩

namespace Hop

/-- The hop leads from an element to one inside it. -/
def isInward : Hop → Bool
  | .enclosed _ | .companion | .typeParameters _ | .parameters _ | .getter | .setter
  | .backingField => true
  | _ => false

/-- The walk ends at the parameter of a setter. -/
def endsAtSetterParameter : List Hop → Bool
  | [] => false
  | [.setter, .parameters _] => true
  | _ :: hs => endsAtSetterParameter hs

theorem endsAtSetterParameter_cons {h : Hop} (hh : h ≠ .setter) (hs : List Hop) :
    endsAtSetterParameter (h :: hs) = endsAtSetterParameter hs := by
  rw [endsAtSetterParameter]
  exact fun _ hsetter => absurd hsetter hh

theorem endsAtSetterParameter_singleton (h : Hop) : endsAtSetterParameter [h] = false := by
  cases h <;> rfl

/-- A hop inward leads to an element. -/
theorem exists_element_of_isInward {h : Hop} (hh : h.isInward) {e : Element} {n : Node}
    (hn : h.fromElement e = some n) : ∃ x, n = .element x := by
  cases h with
  | enclosed | companion | typeParameters | parameters | getter | setter | backingField =>
    obtain ⟨x, -, rfl⟩ := Option.map_eq_some_iff.mp hn
    exact ⟨_, rfl⟩
  | _ => exact absurd hh (by simp [isInward])

/-- So does a walk inward. -/
theorem exists_element_of_follow? : ∀ {hs : List Hop}, (∀ h ∈ hs, h.isInward) →
    ∀ {e : Element} {n : Node}, (Node.element e).follow? hs = some n → ∃ x, n = .element x
  | [], _, e, _, hn => ⟨e, (Option.some.inj hn).symm⟩
  | _ :: _, hin, _, _, hn => by
    obtain ⟨hh, hrest⟩ := List.forall_mem_cons.mp hin
    obtain ⟨m, hm, hn⟩ := Option.bind_eq_some_iff.mp hn
    obtain ⟨y, rfl⟩ := exists_element_of_isInward hh hm
    exact exists_element_of_follow? hrest hn

/-- No hop inward leads from a leaf. -/
theorem fromElement_leaf {h : Hop} (hh : h.isInward) {e : Element} (he : e.Leaf) :
    h.fromElement e = none := by
  cases h with
  | enclosed i => simp [fromElement, he.enclosed]
  | companion => simp [fromElement, he.companion]
  | typeParameters i => simp [fromElement, he.typeParameters]
  | parameters i => simp [fromElement, he.callable]
  | getter | setter | backingField => simp [fromElement, he.property]
  | _ => exact absurd hh (by simp [isInward])

theorem follow?_leaf {e : Element} (he : e.Leaf) {hs : List Hop} (hh : ∀ h ∈ hs, h.isInward)
    {n : Node} (hn : (Node.element e).follow? hs = some n) : hs = [] := by
  cases hs with
  | nil => rfl
  | cons h hs =>
    obtain ⟨m, hm, -⟩ := Option.bind_eq_some_iff.mp hn
    have hnone := fromElement_leaf (hh h List.mem_cons_self) he
    exact absurd (hnone.symm.trans hm) (by simp)

/-- Inside a function without members and type parameters are its parameters. -/
theorem fromElement_accessor {h : Hop} (hh : h.isInward) {c : Callable}
    (hc : c.header.enclosed = []) (hp : c.typeParameters = []) {n : Node}
    (hn : h.fromElement (.callable c) = some n) :
    ∃ i, h = .parameters i ∧ ∃ v ∈ c.parameters, n = .element (.variable v) := by
  cases h with
  | parameters i =>
    obtain ⟨k, v, hk, hv, rfl⟩ := exists_of_bind_map hn
    obtain rfl : c = k := Option.some.inj hk
    exact ⟨i, rfl, v, List.mem_of_getElem? hv, rfl⟩
  | _ =>
    simp_all [isInward, fromElement, Element.enclosed, Element.header?, Element.asClass?,
      Element.asProperty?, Element.typeParameters]

end Hop

namespace SymbolTable

open Hop (endsAtSetterParameter)

variable {t : SymbolTable}

/-! ### One step -/

/-- What a step inward leads to from the element of a declaration. -/
inductive Inside (t : SymbolTable) (d : Declaration) : Hop → Element → Prop
  /-- The element of a declaration in the same file. -/
  | declared {h : Hop} {x : Element} (hsetter : h ≠ .setter) {i : DeclId} {d' : Declaration}
      (decl : t.decl? i = some d') (file : d'.file = d.file) {depth : Depth}
      (element : t.element? depth i = some x) : t.Inside d h x
  /-- A parameter or a backing field. -/
  | variable {h : Hop} {v : Variable} (hsetter : h ≠ .setter) (enclosed : v.header.enclosed = [])
      (file : v.header.sourceFile = t.fileRef? d) : t.Inside d h (.variable v)
  /-- A getter or a setter; only a setter has parameters, and they know no file. -/
  | accessor {h : Hop} {c : Callable} (enclosed : c.header.enclosed = [])
      (typeParameters : c.typeParameters = []) (file : c.header.sourceFile = t.fileRef? d)
      (parameters : ∀ v ∈ c.parameters, h = .setter ∧ v.header.enclosed = [] ∧
        v.header.sourceFile = none ∧ v.header.qualifiedName = none) : t.Inside d h (.callable c)

/-- What stands inside a declaration is written in its file. -/
theorem Arena.file_of_parent (h : Arena t) {id i : DeclId} {d d' : Declaration}
    (hd : t.decl? id = some d) (hd' : t.decl? i = some d') (hp : d'.parent = some id) :
    d'.file = d.file := by
  obtain ⟨-, o, ho, hfile, -⟩ := h.nested i d' id hd' hp
  obtain rfl : o = d := Option.some.inj (ho.symm.trans hd)
  exact hfile

theorem Arena.file_of_members (h : Arena t) {id i : DeclId} {d : Declaration}
    (hd : t.decl? id = some d) (hc : d.asClass.isSome) (hi : i ∈ d.members) :
    ∃ d', t.decl? i = some d' ∧ d'.file = d.file := by
  obtain ⟨d', hd', hp, -⟩ := ((h.members id d hd hc).2 i).mp hi
  exact ⟨d', hd', h.file_of_parent hd hd' hp⟩

theorem Arena.file_of_typeParameters (h : Arena t) {id i : DeclId} {d : Declaration}
    (hd : t.decl? id = some d) (hc : d.asClass.isSome ∨ d.asCallable.isSome)
    (hi : i ∈ d.typeParameters) : ∃ d', t.decl? i = some d' ∧ d'.file = d.file := by
  obtain ⟨d', hd', hp, -⟩ := ((h.typeParameters id d hd hc).2 i).mp hi
  exact ⟨d', hd', h.file_of_parent hd hd' hp⟩

/-- A type parameter of a class or a function is the element of its own declaration. -/
theorem inside_typeParameter (harena : Arena t) {id : DeclId} {d : Declaration}
    (hd : t.decl? id = some d) (hc : d.asClass.isSome ∨ d.asCallable.isSome) {depth : Depth}
    {p : TypeParameter} (hp : p ∈ d.typeParameters.filterMap (t.typeParameter? depth)) (n : Nat) :
    t.Inside d (.typeParameters n) (.typeParameter p) := by
  obtain ⟨i, hi, hconverted⟩ := List.mem_filterMap.mp hp
  obtain ⟨d', hd', hfile⟩ := harena.file_of_typeParameters hd hc hi
  exact .declared (by simp) hd' hfile (element?_of_typeParameter? hconverted)

/-- Inside a class with members are the elements of other declarations only. -/
theorem inside_of_classWithMembers? (harena : Arena t) {depth : Depth}
    {nested? companion? : DeclId → Option ClassElement} {id : DeclId} {d : Declaration}
    {c : ClassElement} (hd : t.decl? id = some d)
    (hc : t.classWithMembers? depth nested? companion? id = some c)
    (hnested : ∀ i k, nested? i = some k → ∃ depth, t.classElement? depth i = some k)
    (hcompanion : ∀ i k, companion? i = some k → ∃ depth, t.classElement? depth i = some k)
    {h : Hop} (hh : h.isInward) {x : Element} (hx : h.fromElement (.classLike c) = some (.element x)) :
    t.Inside d h x := by
  obtain ⟨k, hk, rfl⟩ := exists_of_conversion hd hc
  have hclass : d.asClass.isSome := Option.isSome_iff_exists.mpr ⟨k, hk⟩
  cases h with
  | enclosed n =>
    obtain ⟨y, hy, ⟨⟩⟩ := Option.map_eq_some_iff.mp hx
    obtain ⟨i, hi, hmember⟩ := List.mem_filterMap.mp (List.mem_of_getElem? hy)
    obtain ⟨d', hd', hfile⟩ := harena.file_of_members hd hclass hi
    obtain ⟨_, helement⟩ := exists_element?_of_member? hmember hnested
    exact .declared (by simp) hd' hfile helement
  | companion =>
    obtain ⟨y, hy, ⟨⟩⟩ := Option.map_eq_some_iff.mp hx
    have hfound : (d.members.find? t.isCompanion).bind companion? = some y := hy
    obtain ⟨i, hi, hconverted⟩ := Option.bind_eq_some_iff.mp hfound
    obtain ⟨d', hd', hfile⟩ := harena.file_of_members hd hclass (List.mem_of_find?_eq_some hi)
    obtain ⟨_, helement⟩ := hcompanion i y hconverted
    exact .declared (by simp) hd' hfile (element?_of_classElement? helement)
  | typeParameters n =>
    obtain ⟨y, hy, ⟨⟩⟩ := Option.map_eq_some_iff.mp hx
    exact inside_typeParameter harena hd (Or.inl hclass) (List.mem_of_getElem? hy) n
  | _ => simp [Hop.isInward, Hop.fromElement, Element.asCallable?, Element.asProperty?] at hh hx

/-- Inside a function are its parameters and its type parameters. -/
theorem inside_of_callable? (harena : Arena t) {depth : Depth} {id : DeclId} {d : Declaration}
    {c : Callable} (hd : t.decl? id = some d) (hc : t.callable? depth id = some c) {h : Hop}
    (hh : h.isInward) {x : Element} (hx : h.fromElement (.callable c) = some (.element x)) :
    t.Inside d h x := by
  obtain ⟨k, hk, rfl⟩ := exists_of_conversion hd hc
  cases h with
  | typeParameters n =>
    obtain ⟨y, hy, ⟨⟩⟩ := Option.map_eq_some_iff.mp hx
    have hcallable : d.asCallable.isSome := Option.isSome_iff_exists.mpr ⟨k, hk⟩
    exact inside_typeParameter harena hd (Or.inr hcallable) (List.mem_of_getElem? hy) n
  | parameters n =>
    obtain ⟨y, hy, ⟨⟩⟩ := Option.map_eq_some_iff.mp hx
    obtain ⟨p, -, rfl⟩ := List.mem_map.mp (List.mem_of_getElem? hy)
    exact .variable (by simp) rfl rfl
  | enclosed n => exact absurd hx (by simp [Hop.fromElement, Element.enclosed, Element.header?,
      header, Header.plain])
  | _ => simp [Hop.isInward, Hop.fromElement, Element.asClass?, Element.asProperty?] at hh hx

/-- Inside a property are its accessors and its backing field. -/
theorem inside_of_property? {depth : Depth} {id : DeclId} {d : Declaration} {p : Property}
    (hd : t.decl? id = some d) (hp : t.property? depth id = some p) {h : Hop} (hh : h.isInward)
    {x : Element} (hx : h.fromElement (.property p) = some (.element x)) : t.Inside d h x := by
  obtain ⟨k, -, rfl⟩ := exists_of_conversion hd hp
  cases h with
  | getter =>
    obtain ⟨y, hy, ⟨⟩⟩ := Option.map_eq_some_iff.mp hx
    obtain ⟨a, -, rfl⟩ := Option.map_eq_some_iff.mp hy
    exact .accessor rfl rfl rfl fun v hv => absurd hv List.not_mem_nil
  | setter =>
    obtain ⟨y, hy, ⟨⟩⟩ := Option.map_eq_some_iff.mp hx
    obtain ⟨a, -, rfl⟩ := Option.map_eq_some_iff.mp hy
    refine .accessor rfl rfl rfl fun v hv => ?_
    -- the one parameter of a setter is made without the table
    obtain rfl := List.mem_singleton.mp hv
    exact ⟨rfl, rfl, rfl, rfl⟩
  | backingField =>
    obtain ⟨y, hy, ⟨⟩⟩ := Option.map_eq_some_iff.mp hx
    obtain ⟨-, ⟨⟩⟩ := Option.ite_none_right_eq_some.mp hy
    exact .variable (by simp) rfl rfl
  | enclosed n => exact absurd hx (by simp [Hop.fromElement, Element.enclosed, Element.header?,
      header, Header.plain])
  | _ =>
    simp [Hop.isInward, Hop.fromElement, Element.asClass?, Element.asCallable?,
      Element.typeParameters] at hh hx

/-- **One step inward** leads to the element of a declaration in the same file, to a parameter
or a backing field, or to an accessor. -/
theorem inside_of_fromElement (harena : Arena t) {depth : Depth} {id : DeclId} {d : Declaration}
    {e : Element} (hd : t.decl? id = some d) (he : t.element? depth id = some e) {h : Hop}
    (hh : h.isInward) {x : Element} (hx : h.fromElement e = some (.element x)) :
    t.Inside d h x := by
  rw [element?_of_decl? depth hd] at he
  cases hs : d.shape with
  | classLike c =>
    simp only [hs] at he
    obtain ⟨k, hk, rfl⟩ := Option.map_eq_some_iff.mp he
    cases depth with
    | full =>
      exact inside_of_classWithMembers? harena hd hk (fun _ _ hn => ⟨.bounded, hn⟩)
        (fun _ _ hn => ⟨.bounded, hn⟩) hh hx
    | bounded =>
      exact inside_of_classWithMembers? harena hd hk (fun _ _ hn => absurd hn (by simp))
        (fun _ _ hn => ⟨.flat, hn⟩) hh hx
    | flat =>
      obtain ⟨c', -, rfl⟩ := exists_of_conversion hd hk
      have hleaf : (Element.classLike (t.memberlessClass .flat id d c')).Leaf :=
        ⟨rfl, rfl, rfl, rfl, rfl⟩
      exact absurd ((Hop.fromElement_leaf hh hleaf).symm.trans hx) (by simp)
  | callable c =>
    simp only [hs] at he
    obtain ⟨k, hk, rfl⟩ := Option.map_eq_some_iff.mp he
    exact inside_of_callable? harena hd hk hh hx
  | property p =>
    simp only [hs] at he
    obtain ⟨k, hk, rfl⟩ := Option.map_eq_some_iff.mp he
    exact inside_of_property? hd hk hh hx
  | typeParameter p =>
    simp only [hs] at he
    obtain ⟨k, hk, rfl⟩ := Option.map_eq_some_iff.mp he
    obtain ⟨p', -, rfl⟩ := exists_of_conversion hd hk
    have hleaf : ∀ bounds, (Element.typeParameter
        (t.boundedTypeParameter depth d p' bounds)).Leaf := fun _ => ⟨rfl, rfl, rfl, rfl, rfl⟩
    exact absurd ((Hop.fromElement_leaf hh (hleaf _)).symm.trans hx) (by simp)

/-! ### A whole walk -/

/-- What an element knows of the file it is in, after a walk from a root in `file`: the file,
or neither it nor a name, if it is the parameter of a setter. -/
def Knows (hs : List Hop) (file : Option FileRef) (x : Element) : Prop :=
  x.isStub = false ∧
    if endsAtSetterParameter hs then x.sourceFile? = none ∧ x.qualifiedName? = none
    else x.sourceFile? = file

/-- **A walk inward from the element of a declaration** leads to elements that know the file
of the declaration, parameters of setters apart. -/
theorem knows_of_follow? (harena : Arena t) : ∀ (hs : List Hop), (∀ h ∈ hs, h.isInward) →
    ∀ {depth : Depth} {id : DeclId} {d : Declaration} {e x : Element}, t.decl? id = some d →
      t.element? depth id = some e → (Node.element e).follow? hs = some (.element x) →
      Knows hs (t.fileRef? d) x
  | [], _, _, _, _, e, x, hd, he, hx => by
    obtain rfl : e = x := by simpa using Option.some.inj hx
    refine ⟨?_, sourceFile?_of_element? hd he⟩
    obtain ⟨_, hheader, -⟩ := header?_of_element? hd he
    cases e with
    | stub s => exact absurd hheader (by simp [Element.header?])
    | _ => rfl
  | h :: hs, hin, _, _, d, e, x, hd, he, hx => by
    obtain ⟨hh, hrest⟩ := List.forall_mem_cons.mp hin
    obtain ⟨n, hn, hfollow⟩ := Option.bind_eq_some_iff.mp hx
    obtain ⟨y, rfl⟩ := Hop.exists_element_of_isInward hh hn
    -- the walk goes on from the element of a declaration; from all else it ends at once, or one
    -- step later at the parameter of an accessor
    cases inside_of_fromElement harena hd he hh hn with
    | declared hsetter hd' hfile he' =>
      have hknows := knows_of_follow? harena hs hrest hd' he' hfollow
      unfold Knows at hknows ⊢
      rw [Hop.endsAtSetterParameter_cons hsetter, fileRef?, ← hfile]
      exact hknows
    | «variable» hsetter hempty hfile =>
      obtain rfl := Hop.follow?_leaf (Element.leaf_variable hempty) hrest hfollow
      obtain rfl : _ = x := by simpa using Option.some.inj hfollow
      refine ⟨rfl, ?_⟩
      rw [Hop.endsAtSetterParameter_cons hsetter]
      exact hfile
    | accessor hempty hplain hfile hparameters =>
      cases hs with
      | nil =>
        obtain rfl : _ = x := by simpa using Option.some.inj hfollow
        refine ⟨rfl, ?_⟩
        rw [Hop.endsAtSetterParameter_singleton]
        exact hfile
      | cons k ks =>
        obtain ⟨hk, hks⟩ := List.forall_mem_cons.mp hrest
        obtain ⟨m, hm, hfollow⟩ := Option.bind_eq_some_iff.mp hfollow
        obtain ⟨i, rfl, v, hv, rfl⟩ := Hop.fromElement_accessor hk hempty hplain hm
        obtain ⟨rfl, hempty, hnofile, hnoname⟩ := hparameters v hv
        obtain rfl := Hop.follow?_leaf (Element.leaf_variable hempty) hks hfollow
        obtain rfl : _ = x := by simpa using Option.some.inj hfollow
        exact ⟨rfl, hnofile, hnoname⟩

/-! ### Parts of trees and their files -/

/-- An element of the tree that a declaration with a file is converted to, with the walk
that leads to it. -/
structure TreePart (t : SymbolTable) where
  id : DeclId
  file : SourceFile
  depth : Depth
  root : Element
  hops : List Hop
  element : Element
  written : t.fileOf? id = some file
  converted : t.element? depth id = some root
  inward : ∀ h ∈ hops, h.isInward
  reached : (Node.element root).follow? hops = some (.element element)

/-- The file that a part is traced to: the one of its declaration, except for the parameter
of a setter. -/
def TreePart.file? (p : t.TreePart) : Option FileRef :=
  if endsAtSetterParameter p.hops then none else some p.file.ref

/-- The paths of the files that some parts are traced to, one for each part. -/
def tracedPaths (parts : List t.TreePart) : List String :=
  (parts.filterMap TreePart.file?).map FileRef.filePath

/-- Wherever a walk inward leads, there is a part. -/
theorem exists_treePart {id : DeclId} {file : SourceFile} (hfile : t.fileOf? id = some file)
    {hops : List Hop} (hin : ∀ h ∈ hops, h.isInward) {depth : Depth}
    (hleads : ((t.element? depth id).bind fun e => (Node.element e).follow? hops).isSome) :
    ∃ p : t.TreePart, p.id = id ∧ p.file = file ∧ p.depth = depth ∧ p.hops = hops := by
  obtain ⟨n, hn⟩ := Option.isSome_iff_exists.mp hleads
  obtain ⟨e, he, hfollow⟩ := Option.bind_eq_some_iff.mp hn
  obtain ⟨x, rfl⟩ := Hop.exists_element_of_follow? hin hfollow
  exact ⟨⟨id, file, depth, e, hops, x, hfile, he, hin, hfollow⟩, rfl, rfl, rfl, rfl⟩

theorem containingFile?_treePart (harena : Arena t) (p : t.TreePart) :
    p.element.isStub = false ∧ t.containingFile? p.element = p.file? := by
  obtain ⟨d, hd, -⟩ := Option.bind_eq_some_iff.mp p.converted
  obtain ⟨hstub, hknows⟩ := knows_of_follow? harena p.hops p.inward hd p.converted p.reached
  refine ⟨hstub, ?_⟩
  unfold TreePart.file?
  by_cases hsetter : endsAtSetterParameter p.hops
  · rw [if_pos hsetter] at hknows ⊢
    rw [containingFile?, hknows.1, hknows.2]
    rfl
  · rw [if_neg hsetter] at hknows ⊢
    exact containingFile?_of_sourceFile? (hknows.trans (fileRef?_of_fileOf? hd p.written))

/-- **Every part of a converted tree is traced to the file of its declaration, parameters of
setters apart**, and what is generated from some parts depends on the files they are
traced to, each named once, in the order of first occurrence. -/
theorem containingFile_of_part (h : Reachable t) :
    (∀ id file, t.fileOf? id = some file → ∀ depth, ∃ p : t.TreePart,
      p.id = id ∧ p.file = file ∧ p.depth = depth ∧ p.hops = []) ∧
    (∀ p : t.TreePart, p.element.isStub = false ∧ t.containingFile? p.element = p.file?) ∧
    ∀ (parts : List t.TreePart) (aggregating : Bool),
      let files := (Output.Dependencies.ofElements t aggregating (parts.map (·.element))).files
      (∀ path, path ∈ files ↔ path ∈ tracedPaths parts) ∧
        files.Pairwise fun a b => (tracedPaths parts).idxOf a < (tracedPaths parts).idxOf b := by
  have hpart := containingFile?_treePart h.arena
  refine ⟨fun id file hfile depth => ?_, hpart, fun parts aggregating => ?_⟩
  · obtain ⟨f, hf, -⟩ := Option.bind_eq_some_iff.mp hfile
    obtain ⟨d, hd, -⟩ := Option.bind_eq_some_iff.mp hf
    obtain ⟨e, he, -⟩ := exists_element? depth hd
    refine exists_treePart hfile (by simp) ?_
    rw [he]
    rfl
  · have hpaths : ((parts.map (·.element)).filterMap t.containingFile?).map FileRef.filePath =
        tracedPaths parts := by
      rw [tracedPaths, List.filterMap_map]
      congr 2
      funext p
      exact (hpart p).2
    unfold Output.Dependencies.ofElements
    rw [hpaths]
    exact ⟨fun _ => Output.Dependencies.mem_ofFiles, Distinct.pairwise_fresh _ []⟩

/-- In the table `tree` the parameter of the method `walk`, as a part of the class around the
method, is traced to the file of the class, and what is generated from it depends on that
file. -/
theorem containingFile_of_part_tree : Reachable tree ∧ ∃ p : tree.TreePart,
    p.id = 14 ∧ p.hops = [.enclosed 1, .parameters 0] ∧
      tree.containingFile? p.element = some p.file.ref ∧
      ∀ path, path ∈ (Output.Dependencies.ofElements tree false [p.element]).files ↔
        path = p.file.filePath := by
  obtain ⟨f, hf⟩ : ∃ f, tree.fileOf? 14 = some f :=
    Option.isSome_iff_exists.mp (by decide +kernel)
  obtain ⟨p, hid, -, -, hhops⟩ : ∃ p : tree.TreePart, p.id = 14 ∧ p.file = f ∧
      p.depth = .full ∧ p.hops = [.enclosed 1, .parameters 0] :=
    exists_treePart hf (by decide) (by decide +kernel)
  obtain ⟨-, htraced, hfiles⟩ := containingFile_of_part reachable_tree
  have hfile : p.file? = some p.file.ref := by
    rw [TreePart.file?, hhops]
    rfl
  refine ⟨reachable_tree, p, hid, hhops, (htraced p).2.trans hfile, fun path => ?_⟩
  have hpaths : tracedPaths [p] = [p.file.filePath] := by
    rw [tracedPaths, List.filterMap_cons_some hfile]
    rfl
  have hmem := (hfiles [p] false).1 path
  rwa [hpaths, List.mem_singleton] at hmem

/-! ### The parameter of a setter -/

/-- The changes that make the table `box`. -/
def boxChanges : List Change :=
  [.addFile "src/Box.kt" "app",
   .declare (.file 0) (Draft.property "size" (.named "kotlin.Int")).mutable]

/-- A file with a property that can be set. -/
def box : SymbolTable := builtin.run boxChanges

theorem reachable_box : Reachable box := ⟨boxChanges, rfl⟩

/-- **The parameter of a setter can lose its file**: the property stands in `src/Box.kt`, but
no file is known of the parameter of its setter, and what is generated from it depends on
none. -/
theorem lost_setter_parameter : Reachable box ∧
    (box.fileOf? 14).map SourceFile.filePath = some "src/Box.kt" ∧
    ∀ depth, ∃ p : box.TreePart, p.id = 14 ∧ p.depth = depth ∧
      p.hops = [.setter, .parameters 0] ∧ box.containingFile? p.element = none ∧
      (Output.Dependencies.ofElements box false [p.element]).files = [] := by
  refine ⟨reachable_box, by decide +kernel, fun depth => ?_⟩
  obtain ⟨f, hf⟩ : ∃ f, box.fileOf? 14 = some f :=
    Option.isSome_iff_exists.mp (by decide +kernel)
  obtain ⟨p, hid, -, hdepth, hhops⟩ : ∃ p : box.TreePart, p.id = 14 ∧ p.file = f ∧
      p.depth = depth ∧ p.hops = [.setter, .parameters 0] :=
    exists_treePart hf (by decide) (by cases depth <;> decide +kernel)
  have hnone : box.containingFile? p.element = none := by
    rw [(containingFile?_treePart reachable_box.arena p).2, TreePart.file?, hhops]
    rfl
  refine ⟨p, hid, hdepth, hhops, hnone, ?_⟩
  rw [Output.Dependencies.ofElements, List.filterMap_cons_none hnone]
  rfl

end SymbolTable
end SymbolGraph
