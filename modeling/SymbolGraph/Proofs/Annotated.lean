/-
# Declarations found by an annotation

An annotation is asked for in two ways. A query goes through the declarations of the
table and looks the classes of their annotations up; an element is asked whether it
carries an annotation of a name, and compares the names that its annotations were
converted with. Every element has the annotations of its declaration, at every depth,
so each question is one about the annotations as they are written.

By qualified name both ways ask the same: the name of the annotation's class, as
`annotationName?` finds it (`annotatedWith_iff_hasAnnotationNamed`). By simple name they
do not. The query takes the simple name of the class, and the name that was written
only where the class has no qualified name; the element always takes the name that was
written. They agree for annotations that bear the name of their class
(`simpleNames_of_reachable`), as those written by a qualified name do, and not for an
annotation that was given another name (`renamed_annotation`).

Key definitions: `InTableOrder`, `BearsClassName`, `SimpleNames`.
Key theorems: `annotatedWith_iff_hasAnnotationNamed`, `simpleNames_of_reachable`,
`renamed_annotation`.
-/
import Mathlib.Data.List.Forall2
import SymbolGraph.Lookup
import SymbolGraph.Proofs.Converted
import SymbolGraph.Proofs.Names

namespace SymbolGraph
namespace SymbolTable

variable {t : SymbolTable}

/-! ### The annotations of an element -/

theorem annotations_of_element? {depth : Depth} {id : DeclId} {d : Declaration} {e : Element}
    (hd : t.decl? id = some d) (he : t.element? depth id = some e) :
    e.annotations = d.annotations.map (t.convertUsage depth) := by
  obtain ⟨h, hh, hheaded⟩ := header?_of_element? hd he
  have hannotations : h.annotations = d.annotations.map (t.convertUsage depth) := by
    rw [hheaded]
    rfl
  rw [Element.annotations, hh, ← hannotations]

/-- An annotation keeps its names at every depth, whatever its arguments become. -/
theorem isNamed_convertUsage (depth : Depth) (u : Usage) (name : String) :
    (t.convertUsage depth u).isNamed name =
      if name.toList.contains '.' then t.annotationName? u.type == some name
      else u.shortName == name := by
  obtain ⟨_, _, _⟩ := u
  rfl

/-- An element carries an annotation of a name if one was written on its declaration. -/
theorem hasAnnotationNamed_iff {depth : Depth} {id : DeclId} {d : Declaration} {e : Element}
    (hd : t.decl? id = some d) (he : t.element? depth id = some e) (name : String) :
    e.hasAnnotationNamed name = true ↔
      ∃ u ∈ d.annotations, (t.convertUsage depth u).isNamed name = true := by
  rw [Element.hasAnnotationNamed, Element.annotationNamed?, List.find?_isSome,
    annotations_of_element? hd he]
  simp only [List.mem_map, exists_exists_and_eq_and]

/-! ### The answer to a query -/

/-- The declarations that a query finds are those with an annotation it asks for. -/
theorem mem_annotatedWhere_iff {p : Usage → Bool} {id : DeclId} :
    id ∈ t.annotatedWhere p ↔ ∃ d, t.decl? id = some d ∧ ∃ u ∈ d.annotations, p u = true := by
  rw [annotatedWhere, List.mem_filter, List.mem_range]
  cases hd : t.decl? id with
  | none => simp
  | some d =>
    have hlt : id < t.size := lt_size_of_decl? hd
    simp [hlt]

/-- Some handles of a table in increasing order, and their elements in full. -/
structure InTableOrder (t : SymbolTable) (ids : List DeclId) (es : List Element) : Prop where
  increasing : ids.Pairwise (· < ·)
  converted : List.Forall₂ (fun id e => t.element? .full id = some e) ids es

/-- The elements of handles of the table are all there, in the same order. -/
theorem forall₂_elements {ids : List DeclId} (h : ∀ id ∈ ids, id < t.size) :
    List.Forall₂ (fun id e => t.element? .full id = some e) ids (t.elements ids) := by
  induction ids with
  | nil => exact .nil
  | cons id ids ih =>
    obtain ⟨d, hd⟩ := decl?_of_lt (h id List.mem_cons_self)
    obtain ⟨e, he, -⟩ := exists_element? .full hd
    have hrest : ∀ i ∈ ids, i < t.size := fun i hi => h i (List.mem_cons_of_mem _ hi)
    rw [elements, List.filterMap_cons_some he]
    exact .cons he (ih hrest)

/-- A query answers with each declaration once, in the order of the table. -/
theorem inTableOrder_annotatedWhere (p : Usage → Bool) :
    InTableOrder t (t.annotatedWhere p) (t.elements (t.annotatedWhere p)) where
  increasing := List.Pairwise.filter _ List.pairwise_lt_range
  converted := by
    apply forall₂_elements
    intro id hid
    obtain ⟨d, hd, -⟩ := mem_annotatedWhere_iff.mp hid
    exact lt_size_of_decl? hd

/-! ### By qualified name -/

/-- **By a qualified name the query finds exactly the declarations whose elements carry the
annotation, at whatever depth they are converted**, and it answers with the full element of
each of them once, in the order of the table. -/
theorem annotatedWith_iff_hasAnnotationNamed {name : String} (hname : '.' ∈ name.toList) :
    (∀ id, id < t.size → ∀ depth, ∃ e, t.element? depth id = some e ∧
      (id ∈ t.annotatedWith name ↔ e.hasAnnotationNamed name = true)) ∧
    InTableOrder t (t.annotatedWith name) (t.symbolsWithAnnotation name) := by
  refine ⟨fun id hid depth => ?_, inTableOrder_annotatedWhere _⟩
  obtain ⟨d, hd⟩ := decl?_of_lt hid
  obtain ⟨e, he, -⟩ := exists_element? depth hd
  refine ⟨e, he, ?_⟩
  have hdot : name.toList.contains '.' = true := List.contains_iff_mem.mpr hname
  rw [annotatedWith, mem_annotatedWhere_iff, hasAnnotationNamed_iff hd he]
  simp only [isNamed_convertUsage, hdot, if_true, hd, Option.some.injEq, exists_eq_left']

/-- In the table `tree` the interface `Node` is annotated with `graph.Tree`: the query finds
it, and its flat element knows of the annotation. -/
theorem annotatedWith_iff_hasAnnotationNamed_tree : '.' ∈ "graph.Tree".toList ∧
    16 ∈ tree.annotatedWith "graph.Tree" ∧
    (∃ e, tree.element? .flat 16 = some e ∧ e.hasAnnotationNamed "graph.Tree" = true) ∧
    InTableOrder tree (tree.annotatedWith "graph.Tree")
      (tree.symbolsWithAnnotation "graph.Tree") := by
  have hname : '.' ∈ "graph.Tree".toList := by decide
  have hfound : 16 ∈ tree.annotatedWith "graph.Tree" := by decide +kernel
  have hsize : 16 < tree.size := by decide +kernel
  obtain ⟨hagree, horder⟩ := annotatedWith_iff_hasAnnotationNamed (t := tree) hname
  obtain ⟨e, he, hiff⟩ := hagree 16 hsize .flat
  exact ⟨hname, hfound, ⟨e, he, hiff.mp hfound⟩, horder⟩

/-! ### By simple name -/

/-- An annotation bears the simple name of its class, if its class has a qualified name. -/
def BearsClassName (t : SymbolTable) (u : Usage) : Prop :=
  ∀ q, t.annotationName? u.type = some q → u.shortName = QualifiedName.simpleName q

/-- The query takes the simple name of the class, and the written one if the class has no
qualified name. -/
theorem searchedName_eq_iff {u : Usage} {name : String} : t.searchedName u = name ↔
    (∃ q, t.annotationName? u.type = some q ∧ QualifiedName.simpleName q = name) ∨
      (t.annotationName? u.type = none ∧ u.shortName = name) := by
  unfold searchedName
  cases t.annotationName? u.type with
  | none => simp
  | some q => simp

theorem BearsClassName.searchedName_eq {u : Usage} (h : t.BearsClassName u) :
    t.searchedName u = u.shortName := by
  rw [searchedName_eq_iff]
  cases hq : t.annotationName? u.type with
  | none => exact Or.inr ⟨rfl, rfl⟩
  | some q => exact Or.inl ⟨q, rfl, (h q hq).symm⟩

theorem IndexSearches.qualifiedName?_of_lookup? (h : IndexSearches t) {q : String} {i : DeclId}
    (hi : t.lookup? q = some i) : t.qualifiedName? i = some q :=
  ((h.lookup?_eq_some_iff q i).mp hi).1

/-- A class that is referred to by a qualified name has that name, whether or not the table
knows it. -/
theorem IndexSearches.annotationName?_of_named (h : IndexSearches t) {r : TypeRef} {q : String}
    (hr : r.target = .named q) : t.annotationName? r = some q := by
  unfold annotationName? resolve? TypeRef.writtenName?
  simp only [hr]
  cases hi : t.lookup? q with
  | none => rfl
  | some i => exact h.qualifiedName?_of_lookup? hi

/-- What a declaration is found by, and what its element answers to. -/
structure SimpleNames (t : SymbolTable) (id : DeclId) (d : Declaration) (e : Element) : Prop where
  /-- It is found by the simple name of an annotation's class, and by the name an annotation
  is written with if its class has no qualified name. -/
  found : ∀ name, id ∈ t.annotatedWithSimple name ↔ ∃ u ∈ d.annotations,
    (∃ q, t.annotationName? u.type = some q ∧ QualifiedName.simpleName q = name) ∨
      (t.annotationName? u.type = none ∧ u.shortName = name)
  /-- Its element answers to the names that its annotations are written with. -/
  answers : ∀ name, '.' ∉ name.toList →
    (e.hasAnnotationNamed name = true ↔ ∃ u ∈ d.annotations, u.shortName = name)
  /-- The two agree where every annotation bears the name of its class. -/
  agree : (∀ u ∈ d.annotations, t.BearsClassName u) → ∀ name, '.' ∉ name.toList →
    (id ∈ t.annotatedWithSimple name ↔ e.hasAnnotationNamed name = true)

theorem simpleNames_of_element? {depth : Depth} {id : DeclId} {d : Declaration} {e : Element}
    (hd : t.decl? id = some d) (he : t.element? depth id = some e) : SimpleNames t id d e := by
  have hfound : ∀ name, id ∈ t.annotatedWithSimple name ↔
      ∃ u ∈ d.annotations, t.searchedName u = name := by
    intro name
    rw [annotatedWithSimple, mem_annotatedWhere_iff]
    simp only [hd, Option.some.injEq, exists_eq_left', beq_iff_eq]
  have hanswers : ∀ name, '.' ∉ name.toList →
      (e.hasAnnotationNamed name = true ↔ ∃ u ∈ d.annotations, u.shortName = name) := by
    intro name hname
    have hdot : ¬ name.toList.contains '.' = true := mt List.contains_iff_mem.mp hname
    rw [hasAnnotationNamed_iff hd he]
    simp only [isNamed_convertUsage, if_neg hdot, beq_iff_eq]
  refine ⟨fun name => ?_, hanswers, fun hbear name hname => ?_⟩
  · simp only [hfound, searchedName_eq_iff]
  · rw [hfound, hanswers name hname]
    constructor
    · rintro ⟨u, hu, rfl⟩
      exact ⟨u, hu, (hbear u hu).searchedName_eq.symm⟩
    · rintro ⟨u, hu, rfl⟩
      exact ⟨u, hu, (hbear u hu).searchedName_eq⟩

/-- **By a simple name the query goes by the classes of annotations and the element by their
written names, so the two agree for annotations that bear the name of their class.** Those
that name their class by its qualified name, and are written with its simple one, do. The
query answers with each declaration once, in the order of the table. -/
theorem simpleNames_of_reachable (h : Reachable t) :
    (∀ id d, t.decl? id = some d → ∀ depth, ∃ e, t.element? depth id = some e ∧
      SimpleNames t id d e) ∧
    (∀ name, InTableOrder t (t.annotatedWithSimple name) (t.symbolsWithSimpleName name)) ∧
    ∀ u q, u.type.target = .named q → u.shortName = QualifiedName.simpleName q →
      t.BearsClassName u := by
  refine ⟨fun id d hd depth => ?_, fun name => inTableOrder_annotatedWhere _, ?_⟩
  · obtain ⟨e, he, -⟩ := exists_element? depth hd
    exact ⟨e, he, simpleNames_of_element? hd he⟩
  · intro u q htarget hshort q' hq'
    rw [h.lookup?_eq_find?.annotationName?_of_named htarget] at hq'
    rw [hshort, Option.some.inj hq']

/-- In the table `tree` the interface `Node` is found by the simple name `Tree` of its
annotation, and its element with bounds answers to it. -/
theorem simpleNames_of_reachable_tree : Reachable tree ∧ 16 ∈ tree.annotatedWithSimple "Tree" ∧
    ∃ e, tree.element? .bounded 16 = some e ∧ e.hasAnnotationNamed "Tree" = true := by
  obtain ⟨hnames, -, hbear⟩ := simpleNames_of_reachable reachable_tree
  have hfound : 16 ∈ tree.annotatedWithSimple "Tree" := by decide +kernel
  obtain ⟨d, hd, -⟩ := mem_annotatedWhere_iff.mp hfound
  have hwritten : (tree.decl? 16).map (fun d => d.annotations.map Usage.shortName) =
      some ["Tree"] := by decide +kernel
  obtain ⟨e, he, hsimple⟩ := hnames 16 d hd .bounded
  refine ⟨reachable_tree, hfound, e, he, (hsimple.answers "Tree" (by decide)).mpr ?_⟩
  rw [hd, Option.map_some, Option.some.injEq] at hwritten
  have hmem : "Tree" ∈ d.annotations.map Usage.shortName := by simp [hwritten]
  exact List.mem_map.mp hmem

/-! ### An annotation with another name -/

/-- The changes that make the table `renamed`. -/
def renamedChanges : List Change :=
  [.addFile "src/Item.kt" "shop",
   .declare (.file 0) (Draft.classLike "Marker" .annotationType),
   .declare (.file 0) ((Draft.classLike "Item" .classType).annotated
     { Usage.named "shop.Marker" with shortName := "Mark" })]

/-- A class annotated with `shop.Marker`, which goes by the name `Mark` in its file. -/
def renamed : SymbolTable := builtin.run renamedChanges

theorem reachable_renamed : Reachable renamed := ⟨renamedChanges, rfl⟩

/-- **The two ways to ask by simple name can disagree**: the class is found by the name of
its annotation's class, which its element does not know, and is not found by the name that
its element knows. -/
theorem renamed_annotation : Reachable renamed ∧
    15 ∈ renamed.annotatedWithSimple "Marker" ∧ 15 ∉ renamed.annotatedWithSimple "Mark" ∧
    ∀ depth,
      (renamed.element? depth 15).map (fun e => e.hasAnnotationNamed "Marker") = some false ∧
      (renamed.element? depth 15).map (fun e => e.hasAnnotationNamed "Mark") = some true := by
  refine ⟨reachable_renamed, by decide +kernel, by decide +kernel, fun depth => ?_⟩
  cases depth <;> decide +kernel

end SymbolTable
end SymbolGraph
