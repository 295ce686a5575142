/-
# Qualified names and the index of names

The qualified name of a declaration is settled when it is placed: on a file it is
the package and the name, inside another declaration the owner's name and the
name, and there is none for a type parameter, in a function, or where the owner
has none. So nothing below a function has one, however deep it stands.

The index is a second record of the names. A declaration enters its name unless
the name is taken, so the index answers with the first declaration of a name
(`IndexSearches`): a search of the table from the front would find the same.
An answer once given stays, since no declaration changes its name or goes away.

Key definitions: `NamedByPlace`, `Below`, `FirstNamed`, `AnswersStay`, `Names`.
Key theorems: `Reachable.lookup?_eq_find?`, `answersStay_run`, `names_of_reachable`.
-/
import Mathlib.Data.List.Find
import Mathlib.Logic.Relation
import SymbolGraph.Keyed
import SymbolGraph.Proofs.Arena

namespace SymbolGraph
namespace SymbolTable

open QualifiedName (qualify)

/-! ### The name of a declaration comes from its place -/

/-- Every qualified name is the one that the declaration's place gives. -/
structure NamedByPlace (t : SymbolTable) : Prop where
  onFile : ∀ i d f, t.decl? i = some d → d.parent = none → d.file = some f →
    d.qualifiedName = some (qualify d.packageName d.name)
  inside : ∀ i d p o, t.decl? i = some d → d.parent = some p → t.decl? p = some o →
    d.qualifiedName =
      if d.asTypeParameter.isSome || o.asCallable.isSome then none
      else o.qualifiedName.map fun q => qualify q d.name

/-- The new declaration of a table has the name that its place gives. -/
theorem NamedByPlace.adds {t t' : SymbolTable} {new : Declaration} (h : NamedByPlace t)
    (ha : Adds t t' new) (harena : Arena t)
    (hfile : ∀ f, new.parent = none → new.file = some f →
      new.qualifiedName = some (qualify new.packageName new.name))
    (howner : ∀ p, new.parent = some p → ∃ o, t.decl? p = some o ∧ new.qualifiedName =
      if new.asTypeParameter.isSome || o.asCallable.isSome then none
      else o.qualifiedName.map fun q => qualify q new.name) :
    NamedByPlace t' where
  onFile i d f hd hp hf := by
    rcases ha.cases hd with ⟨-, rfl⟩ | ⟨e, he, hs⟩
    · exact hfile f hp hf
    · rw [hs.qualifiedName, hs.packageName, hs.draft]
      exact h.onFile i e f he (hs.parent ▸ hp) (hs.file ▸ hf)
  inside i d p o hd hp ho := by
    -- the owner of a declaration of the smaller table is of the smaller table, too
    rcases ha.cases hd with ⟨-, rfl⟩ | ⟨e, he, hs⟩
    · obtain ⟨o', ho', hname⟩ := howner p hp
      obtain ⟨o'', h1, hs⟩ := ha.kept p o' ho'
      have heq : o'' = o := Option.some.inj (h1.symm.trans ho)
      subst heq
      rw [hname, hs.draft, hs.qualifiedName]
    · have hp' : e.parent = some p := hs.parent ▸ hp
      obtain ⟨-, o', ho', -⟩ := harena.nested i e p he hp'
      obtain ⟨o'', h1, hs'⟩ := ha.kept p o' ho'
      have heq : o'' = o := Option.some.inj (h1.symm.trans ho)
      subst heq
      rw [hs.qualifiedName, hs.draft, hs'.draft, hs'.qualifiedName]
      exact h.inside i e p o' he hp' ho'

theorem NamedByPlace.declare {t t' : SymbolTable} (h : NamedByPlace t) (harena : Arena t)
    {place : Place} {d : Draft} (hd : t.declare? place d = some t') : NamedByPlace t' := by
  cases place with
  | file f =>
    obtain ⟨file, hp⟩ := placedOnFile hd
    refine h.adds hp.adds harena (fun _ _ _ => rfl) (fun p hn => ?_)
    simp [SymbolTable.onFile] at hn
  | inside p =>
    obtain ⟨owner, hp⟩ := placedInside hd
    refine h.adds hp.adds harena (fun _ hn => ?_) (fun q hq => ?_)
    · simp [insideOf] at hn
    · exact ⟨owner, Option.some.inj hq ▸ hp.found, rfl⟩

theorem Reachable.namedByPlace {t : SymbolTable} (h : Reachable t) : NamedByPlace t := by
  refine (h.induction (P := fun t => Arena t ∧ NamedByPlace t) ?_ ?_ ?_ ?_).2
  · exact ⟨arena_empty, fun i d f hd => by simp at hd, fun i d p o hd => by simp at hd⟩
  · intro t name ht
    refine ⟨(enters_builtinClass t name).arena ht.1, ht.2.adds (adds_push t _) ht.1 ?_ ?_⟩
    · exact fun f _ hf => by simp [builtinClass] at hf
    · exact fun p hp => by simp [builtinClass] at hp
  · exact fun t path package ht => ⟨ht.1.addFile path package, ht.2.onFile, ht.2.inside⟩
  · exact fun t t' place d ht hd => ⟨ht.1.declare hd, ht.2.declare ht.1 hd⟩

/-! ### Nothing below a function has a name -/

/-- The declaration `i` stands inside `p`, at any depth. -/
def Below (t : SymbolTable) : DeclId → DeclId → Prop :=
  Relation.TransGen fun p i => t.parent? i = some p

/-- A child of a function, or of anything without a name, has no name. -/
theorem NamedByPlace.child_unnamed {t : SymbolTable} (h : NamedByPlace t) (harena : Arena t)
    {p i : DeclId} (hi : t.parent? i = some p)
    (hp : ∀ o, t.decl? p = some o → o.asCallable.isSome ∨ o.qualifiedName = none) :
    t.qualifiedName? i = none := by
  obtain ⟨d, hd, hparent⟩ := Option.bind_eq_some_iff.mp hi
  obtain ⟨-, o, ho, -⟩ := harena.nested i d p hd hparent
  have hname := h.inside i d p o hd hparent ho
  unfold qualifiedName?
  rw [hd, Option.bind_some, hname]
  rcases hp o ho with hc | hn
  · rw [hc, Bool.or_true, if_pos rfl]
  · rw [hn]
    split <;> rfl

theorem NamedByPlace.below_function {t : SymbolTable} (h : NamedByPlace t) (harena : Arena t)
    {p i : DeclId} (hi : Below t p i) (hp : ∀ o, t.decl? p = some o → o.asCallable.isSome) :
    t.qualifiedName? i = none := by
  induction hi with
  | single hi => exact h.child_unnamed harena hi fun o ho => Or.inl (hp o ho)
  | tail _ hi ih =>
    refine h.child_unnamed harena hi fun o ho => Or.inr ?_
    unfold qualifiedName? at ih
    rwa [ho, Option.bind_some] at ih

/-! ### The index is a search from the front -/

/-- The declaration `i` is the first of the qualified name `q`. -/
def FirstNamed (t : SymbolTable) (q : String) (i : DeclId) : Prop :=
  t.qualifiedName? i = some q ∧ ∀ j, j < i → t.qualifiedName? j ≠ some q

theorem lookup_enterName (index : List (String × DeclId)) (name : Option String) (id : DeclId)
    (q : String) :
    (enterName index name id).lookup q =
      (index.lookup q).or (if name = some q then some id else none) := by
  cases name with
  | none => simp [enterName]
  | some n =>
    unfold enterName
    simp only
    by_cases hq : q = n
    · subst hq
      cases h : index.lookup q with
      | none => simp
      | some j => simp [h]
    · have hne : some n ≠ some q := fun h => hq (Option.some.inj h).symm
      rw [if_neg hne, Option.or_none]
      split
      · rfl
      · rw [Keyed.lookup_cons_eq, if_neg hq]

theorem Adds.qualifiedName? {t t' : SymbolTable} {new : Declaration} (h : Adds t t' new)
    {i : DeclId} (hi : i < t.size) : t'.qualifiedName? i = t.qualifiedName? i := by
  obtain ⟨e, he⟩ := decl?_of_lt hi
  obtain ⟨e', he', hs⟩ := h.kept i e he
  unfold SymbolTable.qualifiedName?
  rw [he, he', Option.bind_some, Option.bind_some, hs.qualifiedName]

/-- What is found from the front in the larger table is what was found before, or else
the new declaration. -/
theorem Adds.find? {t t' : SymbolTable} {new : Declaration} (h : Adds t t' new) (q : String) :
    (List.range t'.size).find? (fun i => t'.qualifiedName? i == some q) =
      ((List.range t.size).find? fun i => t.qualifiedName? i == some q).or
        (if new.qualifiedName = some q then some t.size else none) := by
  have hold : (List.range t.size).find? (fun i => t'.qualifiedName? i == some q) =
      (List.range t.size).find? fun i => t.qualifiedName? i == some q := by
    refine List.find?_congr fun i hi => ?_
    rw [h.qualifiedName? (List.mem_range.mp hi)]
  have hnew : t'.qualifiedName? t.size = new.qualifiedName := by
    unfold SymbolTable.qualifiedName?
    rw [h.added, Option.bind_some]
  rw [h.size, List.range_succ, List.find?_append, hold, List.find?_singleton, hnew]
  congr 1
  by_cases hq : new.qualifiedName = some q
  · rw [if_pos hq, if_pos (beq_iff_eq.mpr hq)]
  · rw [if_neg hq, if_neg fun hb => hq (beq_iff_eq.mp hb)]

/-- The index answers as a search of the declarations from the front would. -/
def IndexSearches (t : SymbolTable) : Prop :=
  ∀ q, t.lookup? q = (List.range t.size).find? fun i => t.qualifiedName? i == some q

theorem Adds.lookup? {t t' : SymbolTable} {new : Declaration} (h : Adds t t' new) (q : String) :
    t'.lookup? q = (t.lookup? q).or (if new.qualifiedName = some q then some t.size else none) := by
  unfold SymbolTable.lookup?
  rw [h.index, lookup_enterName]

theorem IndexSearches.adds {t t' : SymbolTable} {new : Declaration} (h : IndexSearches t)
    (ha : Adds t t' new) : IndexSearches t' := fun q => by
  rw [ha.lookup?, ha.find?, h q]

theorem Reachable.lookup?_eq_find? {t : SymbolTable} (h : Reachable t) : IndexSearches t :=
  h.induction (fun _ => rfl) (fun t _ ht => ht.adds (adds_push t _)) (fun _ _ _ ht => ht)
    (fun _ _ _ _ ht hd => by
      obtain ⟨new, ha⟩ := adds_of_declare? hd
      exact ht.adds ha)

theorem lt_size_of_qualifiedName? {t : SymbolTable} {i : DeclId} {q : String}
    (h : t.qualifiedName? i = some q) : i < t.size := by
  obtain ⟨d, hd, -⟩ := Option.bind_eq_some_iff.mp h
  exact lt_size_of_decl? hd

/-- Whether a declaration is the only one of a name can be found out, as no others have names. -/
instance {t : SymbolTable} {q : String} {i : DeclId} :
    Decidable (∀ j, t.qualifiedName? j = some q → j = i) :=
  decidable_of_iff (∀ j < t.size, t.qualifiedName? j = some q → j = i)
    ⟨fun h j hj => h j (lt_size_of_qualifiedName? hj) hj, fun h j _ => h j⟩

theorem IndexSearches.lookup?_eq_some_iff {t : SymbolTable} (h : IndexSearches t) (q : String)
    (i : DeclId) : t.lookup? q = some i ↔ FirstNamed t q i := by
  rw [h q, List.find?_range_eq_some]
  simp only [beq_iff_eq, List.mem_range, Bool.not_eq_true', beq_eq_false_iff_ne]
  exact ⟨fun ⟨h1, _, h3⟩ => ⟨h1, h3⟩, fun ⟨h1, h3⟩ => ⟨h1, lt_size_of_qualifiedName? h1, h3⟩⟩

theorem IndexSearches.lookup?_eq_none_iff {t : SymbolTable} (h : IndexSearches t) (q : String) :
    t.lookup? q = none ↔ ∀ i, t.qualifiedName? i ≠ some q := by
  rw [h q, List.find?_range_eq_none]
  simp only [Bool.not_eq_true', beq_eq_false_iff_ne]
  exact ⟨fun h i hi => h i (lt_size_of_qualifiedName? hi) hi, fun h i _ => h i⟩

/-! ### An answer stays -/

/-- What a name or a reference points at in `t`, it points at in `t'`, too. -/
structure AnswersStay (t t' : SymbolTable) : Prop where
  lookup? : ∀ q i, t.lookup? q = some i → t'.lookup? q = some i
  resolve? : ∀ r i, t.resolve? r = some i → t'.resolve? r = some i

theorem AnswersStay.of_lookup? {t t' : SymbolTable} (hsize : t.size ≤ t'.size)
    (h : ∀ q i, t.lookup? q = some i → t'.lookup? q = some i) : AnswersStay t t' := by
  refine ⟨h, fun r i hr => ?_⟩
  unfold SymbolTable.resolve? at hr ⊢
  cases ht : r.target with
  | named name =>
    simp only [ht] at hr ⊢
    exact h name i hr
  | decl id =>
    simp only [ht] at hr ⊢
    by_cases hid : id < t.size
    · rw [if_pos hid] at hr
      rw [if_pos (Nat.lt_of_lt_of_le hid hsize), hr]
    · rw [if_neg hid] at hr
      exact absurd hr (by simp)

theorem Adds.answersStay {t t' : SymbolTable} {new : Declaration} (h : Adds t t' new) :
    AnswersStay t t' := by
  refine AnswersStay.of_lookup? (by rw [h.size]; exact Nat.le_succ _) fun q i hq => ?_
  rw [h.lookup?, hq, Option.some_or]

/-- No list of changes takes an answer back. -/
theorem answersStay_run (t : SymbolTable) (cs : List Change) : AnswersStay t (t.run cs) := by
  refine run_induction (P := AnswersStay t) (fun t' _ _ h => ⟨h.lookup?, h.resolve?⟩) ?_ cs
    ⟨fun _ _ h => h, fun _ _ h => h⟩
  intro t' t'' place d h hd
  obtain ⟨new, ha⟩ := adds_of_declare? hd
  exact ⟨fun q i hq => ha.answersStay.lookup? q i (h.lookup? q i hq),
    fun r i hr => ha.answersStay.resolve? r i (h.resolve? r i hr)⟩

/-! ### Every reachable table -/

/-- Names come from places, and the index knows the first declaration of each. -/
structure Names (t : SymbolTable) : Prop where
  /-- On a file a declaration is called by the package and its name. -/
  onFile : ∀ i d f, t.decl? i = some d → d.parent = none → d.file = some f →
    ∃ file, t.file? f = some file ∧ d.qualifiedName = some (qualify file.packageName d.name)
  /-- Inside another declaration it is called by the owner's name and its own, unless it
  is a type parameter, the owner is a function or the owner has no name. -/
  inside : ∀ i d p, t.decl? i = some d → d.parent = some p → ∃ o, t.decl? p = some o ∧
    (d.qualifiedName = none ↔
      d.asTypeParameter.isSome ∨ o.asCallable.isSome ∨ o.qualifiedName = none) ∧
    ∀ n, d.qualifiedName = some n → ∃ q, o.qualifiedName = some q ∧ n = qualify q d.name
  /-- Nothing below a function has a name. -/
  belowFunction : ∀ p o i, t.decl? p = some o → o.asCallable.isSome → Below t p i →
    t.qualifiedName? i = none
  /-- The index answers with the first declaration of a name. -/
  first : ∀ q i, t.lookup? q = some i ↔ FirstNamed t q i
  /-- It has no answer only if there is none. -/
  absent : ∀ q, t.lookup? q = none ↔ ∀ i, t.qualifiedName? i ≠ some q

theorem NamedByPlace.inside_iff {t : SymbolTable} (h : NamedByPlace t) {i p : DeclId}
    {d o : Declaration} (hd : t.decl? i = some d) (hp : d.parent = some p)
    (ho : t.decl? p = some o) :
    (d.qualifiedName = none ↔
      d.asTypeParameter.isSome ∨ o.asCallable.isSome ∨ o.qualifiedName = none) ∧
    ∀ n, d.qualifiedName = some n → ∃ q, o.qualifiedName = some q ∧ n = qualify q d.name := by
  rw [h.inside i d p o hd hp ho, ← or_assoc, ← Bool.or_eq_true]
  cases d.asTypeParameter.isSome || o.asCallable.isSome with
  | true => simp
  | false =>
    refine ⟨by simp, fun n hn => ?_⟩
    obtain ⟨q, hq, rfl⟩ := Option.map_eq_some_iff.mp hn
    exact ⟨q, hq, rfl⟩

theorem Reachable.names {t : SymbolTable} (h : Reachable t) : Names t where
  onFile i d f hd hp hf := by
    have hname := h.namedByPlace.onFile i d f hd hp hf
    rcases h.arena.rooted i d hd hp with ⟨hnone, -⟩ | ⟨g, file, hg, hfile, hk⟩
    · rw [hf] at hnone
      exact absurd hnone (by simp)
    · have hfg : f = g := Option.some.inj (hf.symm.trans hg)
      exact ⟨file, hfg ▸ hfile, hk ▸ hname⟩
  inside i d p hd hp := by
    obtain ⟨-, o, ho, -⟩ := h.arena.nested i d p hd hp
    exact ⟨o, ho, h.namedByPlace.inside_iff hd hp ho⟩
  belowFunction p o i ho hc hi := by
    refine h.namedByPlace.below_function h.arena hi fun o' ho' => ?_
    rwa [← Option.some.inj (ho.symm.trans ho')]
  first := h.lookup?_eq_find?.lookup?_eq_some_iff
  absent := h.lookup?_eq_find?.lookup?_eq_none_iff

/-- **Names and the index agree in every reachable table, and no change takes an answer
of the index back.** -/
theorem names_of_reachable {t : SymbolTable} (h : Reachable t) :
    Names t ∧ ∀ changes, AnswersStay t (t.run changes) :=
  ⟨h.names, answersStay_run t⟩

/-- The table `tree`: the local class `Step` and what stands in it have no name, and
a second class of the name `graph.Tree` leaves the first one its name. -/
theorem names_of_reachable_tree : Reachable tree ∧ Names tree ∧
    AnswersStay tree (tree.run [.declare (.file 0) (.classLike "Tree" .interfaceType)]) :=
  ⟨reachable_tree, (names_of_reachable reachable_tree).1,
    (names_of_reachable reachable_tree).2 _⟩

end SymbolTable
end SymbolGraph
