/-
# Which class a name finds

One index serves declarations of all kinds: a name leads to the declaration that took
it first, and only then it is asked whether that is a class. So a class is found by its
qualified name exactly if nothing of the name was declared before it, and a function or
a property that came first hides it. A function that makes values of a class and bears
the name of the class is enough (`hidden_by_factory`). What is declared later does not
change the answer: a class that was found stays found, and a hidden one hidden. The
name of a hidden class has no type either, at any depth.

Key definitions: `ClassNamed`, `ClassNames`.
Key theorems: `classNames_of_reachable`, `hidden_by_factory`.
-/
import SymbolGraph.Proofs.Names
import SymbolGraph.Proofs.Resolution

namespace SymbolGraph
namespace SymbolTable

/-- The declaration `c` is a class of the qualified name `q`. -/
def ClassNamed (t : SymbolTable) (q : String) (c : DeclId) : Prop :=
  t.qualifiedName? c = some q ∧ t.isClass c = true

variable {t : SymbolTable}

/-! ### The class of a name -/

theorem IndexSearches.class?_eq_some_iff (h : IndexSearches t) (q : String) (c : DeclId) :
    t.class? q = some c ↔ t.isClass c = true ∧ FirstNamed t q c := by
  rw [class?, Option.filter_eq_some_iff, h.lookup?_eq_some_iff, and_comm]

/-- A name finds no class exactly if each class of the name has something else of the
name before it. -/
theorem IndexSearches.class?_eq_none_iff (h : IndexSearches t) (q : String) :
    t.class? q = none ↔
      ∀ c, t.ClassNamed q c → ∃ j, j < c ∧ t.qualifiedName? j = some q ∧ t.isClass j = false := by
  constructor
  · rintro hnone c ⟨hname, hclass⟩
    cases hq : t.lookup? q with
    | none => exact absurd hname ((h.lookup?_eq_none_iff q).mp hq c)
    | some j =>
      obtain ⟨hj, hfirst⟩ := (h.lookup?_eq_some_iff q j).mp hq
      have hother : t.isClass j = false := by
        rw [class?, hq] at hnone
        simpa [Option.filter] using hnone
      have hne : j ≠ c := fun heq => by
        rw [heq, hclass] at hother
        exact absurd hother (by simp)
      have hle : j ≤ c := Nat.le_of_not_lt fun hlt => hfirst c hlt hname
      exact ⟨j, Nat.lt_of_le_of_ne hle hne, hj, hother⟩
  · intro hbefore
    cases hc : t.class? q with
    | none => rfl
    | some c =>
      obtain ⟨hclass, hname, hfirst⟩ := (h.class?_eq_some_iff q c).mp hc
      obtain ⟨j, hlt, hj, -⟩ := hbefore c ⟨hname, hclass⟩
      exact absurd hj (hfirst j hlt)

/-- A name points at a type exactly if the first declaration of the name is one. -/
theorem IndexSearches.pointsAtType_named_iff (h : IndexSearches t) (q : String) :
    t.PointsAtType (.named q) ↔
      ∃ i d, FirstNamed t q i ∧ t.decl? i = some d ∧ d.IsType := by
  have htarget : ∀ d, t.target? (.named q) = some d ↔
      ∃ i, FirstNamed t q i ∧ t.decl? i = some d := by
    intro d
    show (t.lookup? q).bind t.decl? = some d ↔ _
    rw [Option.bind_eq_some_iff]
    exact exists_congr fun i => and_congr_left fun _ => h.lookup?_eq_some_iff q i
  unfold PointsAtType
  constructor
  · rintro ⟨d, hd, htype⟩
    obtain ⟨i, hi, hdi⟩ := (htarget d).mp hd
    exact ⟨i, d, hi, hdi, htype⟩
  · rintro ⟨i, d, hi, hdi, htype⟩
    exact ⟨d, (htarget d).mpr ⟨i, hi, hdi⟩, htype⟩

/-! ### Later declarations -/

theorem Adds.isClass {t' : SymbolTable} {new : Declaration} (h : Adds t t' new) {i : DeclId}
    (hi : i < t.size) : t'.isClass i = t.isClass i := by
  obtain ⟨e, he⟩ := decl?_of_lt hi
  obtain ⟨e', he', hs⟩ := h.kept i e he
  have hshape : e'.toDraft.asClass.isSome = e.toDraft.asClass.isSome := by rw [hs.draft]
  unfold SymbolTable.isClass
  rw [he, he']
  exact hshape

/-- A declaration stays a class, or something else, whatever comes after it. -/
theorem isClass_run (cs : List Change) {i : DeclId} (hi : i < t.size) :
    (t.run cs).isClass i = t.isClass i := by
  refine (run_induction (P := fun t' => t.size ≤ t'.size ∧ t'.isClass i = t.isClass i)
    (fun _ _ _ h => h) ?_ cs ⟨Nat.le_refl _, rfl⟩).2
  rintro t' t'' place d ⟨hsize, hsame⟩ hd
  obtain ⟨new, ha⟩ := adds_of_declare? hd
  have hlater : t''.isClass i = t'.isClass i := ha.isClass (Nat.lt_of_lt_of_le hi hsize)
  refine ⟨?_, hlater.trans hsame⟩
  rw [ha.size]
  omega

/-- What a name finds, once something has the name, it finds for good. -/
theorem IndexSearches.class?_run (h : IndexSearches t) {q : String} {i : DeclId}
    (hi : t.qualifiedName? i = some q) (cs : List Change) :
    (t.run cs).class? q = t.class? q := by
  cases hq : t.lookup? q with
  | none => exact absurd hi ((h.lookup?_eq_none_iff q).mp hq i)
  | some j =>
    obtain ⟨hj, -⟩ := (h.lookup?_eq_some_iff q j).mp hq
    have hlater : (t.run cs).lookup? q = some j := (answersStay_run t cs).lookup? q j hq
    have hkind : (t.run cs).isClass j = t.isClass j :=
      isClass_run cs (lt_size_of_qualifiedName? hj)
    rw [class?, class?, hq, hlater, Option.filter_some, Option.filter_some, hkind]

/-! ### Every reachable table -/

/-- What a name finds among the classes, and when it finds none. -/
structure ClassNames (t : SymbolTable) : Prop where
  /-- A class is found exactly if it took the name first. -/
  found : ∀ q c, t.class? q = some c ↔ t.isClass c = true ∧ FirstNamed t q c
  /-- None is found exactly if each class of the name comes after something else of it. -/
  hidden : ∀ q, t.class? q = none ↔
    ∀ c, t.ClassNamed q c → ∃ j, j < c ∧ t.qualifiedName? j = some q ∧ t.isClass j = false
  /-- The name has a type exactly if the first declaration of the name is one. -/
  type : ∀ q depth, (t.typeOf depth (.named q)).isUnknown = false ↔
    ∃ i d, FirstNamed t q i ∧ t.decl? i = some d ∧ d.IsType
  /-- The answer for a name that is taken stays. -/
  stays : ∀ q i, t.qualifiedName? i = some q → ∀ changes, (t.run changes).class? q = t.class? q

/-- **A name finds a class exactly if the class took the name before all else**, in every
reachable table. -/
theorem classNames_of_reachable (h : Reachable t) : ClassNames t := by
  have hindex : IndexSearches t := h.lookup?_eq_find?
  refine ⟨hindex.class?_eq_some_iff, hindex.class?_eq_none_iff, fun q depth => ?_, ?_⟩
  · rw [isUnknown_typeOf_iff, hindex.pointsAtType_named_iff]
  · exact fun q i hi changes => hindex.class?_run hi changes

/-- In the table `tree` nothing came before the class `graph.Tree`, so its name finds it,
and finds it still when a function of the name is added. -/
theorem classNames_of_reachable_tree : Reachable tree ∧ tree.class? "graph.Tree" = some 14 ∧
    (tree.typeOf .full (.named "graph.Tree")).isUnknown = false ∧
    (tree.run [.declare (.file 0) (.function "Tree" [] none)]).class? "graph.Tree" = some 14 := by
  have hnames : ClassNames tree := classNames_of_reachable reachable_tree
  have hname : tree.qualifiedName? 14 = some "graph.Tree" := by decide +kernel
  have hclass : tree.isClass 14 = true := by decide +kernel
  have hfirst : FirstNamed tree "graph.Tree" 14 := by
    refine ⟨hname, ?_⟩
    decide +kernel
  obtain ⟨d, hd⟩ := decl?_of_lt (lt_size_of_qualifiedName? hname)
  have hfound : tree.class? "graph.Tree" = some 14 := (hnames.found _ _).mpr ⟨hclass, hfirst⟩
  refine ⟨reachable_tree, hfound, ?_, (hnames.stays _ 14 hname _).trans hfound⟩
  refine (hnames.type _ _).mpr ⟨14, d, hfirst, hd, Or.inl ?_⟩
  rwa [isClass, hd] at hclass

/-! ### A function in front of its class -/

/-- The changes that make the table `factory`. -/
def factoryChanges : List Change :=
  [.addFile "src/Item.kt" "shop",
   .declare (.file 0) (Draft.function "Item" [] (some (.named "shop.Item"))),
   .declare (.file 0) (Draft.classLike "Item" .classType)]

/-- A file with a function that returns values of a class and bears its name, and then
the class. -/
def factory : SymbolTable := builtin.run factoryChanges

theorem reachable_factory : Reachable factory := ⟨factoryChanges, rfl⟩

/-- **A class can be hidden by a declaration of another kind**: the only class of its name
is not found by the name, and the name has no type. -/
theorem hidden_by_factory : Reachable factory ∧ factory.ClassNamed "shop.Item" 15 ∧
    factory.class? "shop.Item" = none ∧
    ∀ depth, (factory.typeOf depth (.named "shop.Item")).isUnknown = true := by
  have hclass : factory.ClassNamed "shop.Item" 15 := ⟨by decide +kernel, by decide +kernel⟩
  have hnone : factory.class? "shop.Item" = none := by decide +kernel
  refine ⟨reachable_factory, hclass, hnone, fun depth => ?_⟩
  have hnotype : ¬ factory.PointsAtType (.named "shop.Item") := by decide +kernel
  rwa [← isUnknown_typeOf_iff depth, Bool.not_eq_false] at hnotype

end SymbolTable
end SymbolGraph
