/-
# How a table grows

A table changes in two ways: it gets a source file, or it gets a declaration.
A change that names a place the table does not have is refused, and the table
stays as it is. The tables of a program are those that some list of changes
makes out of the built-in classes (`Reachable`), and what holds of every one of
them is proved along that list: of the empty table, then for each built-in
class, each file and each declaration (`Reachable.induction`).

What a placed declaration changes is said once, through `decl?`, `file?` and the
index (`PlacedOnFile`, `PlacedInside`); everything about reachable tables is
derived from that. Handles are unbounded here, so the statements need no bound
on the size of a table; they are statements about handles of 32 bits as long as
the table has no more entries than there are handles.

Key definitions: `Change`, `SymbolTable.run`, `Reachable`, `Adds`, `PlacedOnFile`,
`PlacedInside`.
Key theorems: `placedOnFile`, `placedInside`, `Reachable.induction`,
`Reachable.run`.
-/
import SymbolGraph.SymbolTable.Search

namespace SymbolGraph

/-- A change to a table. -/
inductive Change
  | addFile (path package : String)
  | declare (place : Place) (draft : Draft)

namespace SymbolTable

/-- The table after a change; a refused change leaves it as it is. -/
def change (t : SymbolTable) : Change → SymbolTable
  | .addFile path package => t.addFile path package
  | .declare place draft => (t.declare? place draft).getD t

/-- The table after some changes, one after the other. -/
def run (t : SymbolTable) (changes : List Change) : SymbolTable := changes.foldl change t

/-- The tables that a list of changes makes out of the built-in classes. -/
def Reachable (t : SymbolTable) : Prop := ∃ changes, builtin.run changes = t

/-- The qualified name of the declaration with a handle. -/
def qualifiedName? (t : SymbolTable) (id : DeclId) : Option String :=
  (t.decl? id).bind (·.qualifiedName)

theorem lt_size_of_decl? {t : SymbolTable} {i : DeclId} {d : Declaration}
    (h : t.decl? i = some d) : i < t.size :=
  (Array.getElem?_eq_some_iff.mp h).1

theorem decl?_of_lt {t : SymbolTable} {i : DeclId} (h : i < t.size) : ∃ d, t.decl? i = some d :=
  ⟨t.decls[i], Array.getElem?_eq_getElem h⟩

/-! ### What each part of a change does -/

@[simp] theorem decl?_empty (i : DeclId) : empty.decl? i = none := rfl
@[simp] theorem file?_empty (f : FileId) : empty.file? f = none := rfl
@[simp] theorem size_empty : empty.size = 0 := rfl

@[simp] theorem size_push (t : SymbolTable) (d : Declaration) : (t.push d).size = t.size + 1 :=
  Array.size_push d

theorem decl?_push (t : SymbolTable) (d : Declaration) (i : DeclId) :
    (t.push d).decl? i = if i = t.size then some d else t.decl? i :=
  Array.getElem?_push

@[simp] theorem file?_push (t : SymbolTable) (d : Declaration) (f : FileId) :
    (t.push d).file? f = t.file? f := rfl

@[simp] theorem decl?_addFile (t : SymbolTable) (path package : String) (i : DeclId) :
    (t.addFile path package).decl? i = t.decl? i := rfl

@[simp] theorem size_addFile (t : SymbolTable) (path package : String) :
    (t.addFile path package).size = t.size := rfl

@[simp] theorem lookup?_addFile (t : SymbolTable) (path package name : String) :
    (t.addFile path package).lookup? name = t.lookup? name := rfl

theorem file?_addFile (t : SymbolTable) (path package : String) (f : FileId) :
    (t.addFile path package).file? f =
      if f = t.files.size then some (SourceFile.atPath path package) else t.file? f :=
  Array.getElem?_push

/-- A file's handle stays good when another file comes. -/
theorem file?_addFile_of_some {t : SymbolTable} {f : FileId} {file : SourceFile}
    (path package : String) (h : t.file? f = some file) :
    (t.addFile path package).file? f = some file := by
  have hlt : f < t.files.size := (Array.getElem?_eq_some_iff.mp h).1
  rw [file?_addFile, if_neg (Nat.ne_of_lt hlt), h]

/-! ### Entering a child changes its owner's lists only -/

variable (o : Declaration) (b : Bool) (id : DeclId)

/-- Of the lists of an owner at most one gets the new handle. -/
theorem withChild_cases : o.withChild b id = o ∨
    o.withChild b id = { o with members := o.members ++ [id] } ∨
    o.withChild b id = { o with typeParameters := o.typeParameters ++ [id] } := by
  unfold Declaration.withChild
  split
  · cases b
    · exact Or.inr (Or.inl rfl)
    · exact Or.inr (Or.inr rfl)
  · cases b
    · exact Or.inl rfl
    · exact Or.inr (Or.inr rfl)
  · exact Or.inl rfl
  · exact Or.inl rfl

/-- The declaration `d'` is `d`, but for what is listed as placed inside it. -/
structure SameButLists (d d' : Declaration) : Prop where
  draft : d'.toDraft = d.toDraft
  qualifiedName : d'.qualifiedName = d.qualifiedName
  packageName : d'.packageName = d.packageName
  parent : d'.parent = d.parent
  file : d'.file = d.file

theorem SameButLists.refl (d : Declaration) : SameButLists d d := ⟨rfl, rfl, rfl, rfl, rfl⟩

theorem withChild_sameButLists : SameButLists o (o.withChild b id) := by
  rcases withChild_cases o b id with h | h | h <;> rw [h] <;> exact ⟨rfl, rfl, rfl, rfl, rfl⟩

/-- A class lists what is no type parameter among its members. -/
theorem withChild_members (h : o.asClass.isSome) :
    (o.withChild b id).members = if b then o.members else o.members ++ [id] := by
  unfold Declaration.withChild
  cases hs : o.shape with
  | classLike c => cases b <;> rfl
  | callable c => simp [Draft.asClass, hs] at h
  | property p => simp [Draft.asClass, hs] at h
  | typeParameter p => simp [Draft.asClass, hs] at h

/-- A class and a function list the type parameters apart. -/
theorem withChild_typeParameters (h : o.asClass.isSome ∨ o.asCallable.isSome) :
    (o.withChild b id).typeParameters =
      if b then o.typeParameters ++ [id] else o.typeParameters := by
  unfold Declaration.withChild
  cases hs : o.shape with
  | classLike c => cases b <;> rfl
  | callable c => cases b <;> rfl
  | property p => simp [Draft.asClass, Draft.asCallable, hs] at h
  | typeParameter p => simp [Draft.asClass, Draft.asCallable, hs] at h

/-! ### One declaration more

Most of what is said about a declaration does not look at the lists of what
stands inside it. For all of that, the three ways to add a declaration are one. -/

/-- The table `t'` is `t` with the declaration `new` behind all others, the lists apart. -/
structure Adds (t t' : SymbolTable) (new : Declaration) : Prop where
  size : t'.size = t.size + 1
  added : t'.decl? t.size = some new
  kept : ∀ i e, t.decl? i = some e → ∃ e', t'.decl? i = some e' ∧ SameButLists e e'
  index : t'.index = enterName t.index new.qualifiedName t.size

theorem adds_push (t : SymbolTable) (d : Declaration) : Adds t (t.push d) d where
  size := size_push t d
  added := by rw [decl?_push, if_pos rfl]
  kept i e he := by
    refine ⟨e, ?_, SameButLists.refl e⟩
    rw [decl?_push, if_neg (Nat.ne_of_lt (lt_size_of_decl? he)), he]
  index := rfl

namespace Adds

variable {t t' : SymbolTable} {new : Declaration}

/-- A declaration of the larger table is the new one, or was there before. -/
theorem cases (h : Adds t t' new) {i : DeclId} {e : Declaration} (he : t'.decl? i = some e) :
    (i = t.size ∧ e = new) ∨ ∃ e', t.decl? i = some e' ∧ SameButLists e' e := by
  have hi : i < t.size + 1 := h.size ▸ lt_size_of_decl? he
  rcases Nat.lt_succ_iff_lt_or_eq.mp hi with hlt | rfl
  · obtain ⟨e', he'⟩ := decl?_of_lt hlt
    obtain ⟨e'', h1, h2⟩ := h.kept i e' he'
    have heq : e'' = e := Option.some.inj (h1.symm.trans he)
    exact Or.inr ⟨e', he', heq ▸ h2⟩
  · exact Or.inl ⟨rfl, Option.some.inj (he.symm.trans h.added)⟩

/-- The declarations of a kind that does not look at the lists are those of before, and
the new one if it is of the kind. -/
theorem exists_iff (h : Adds t t' new) {q : Declaration → Prop}
    (hq : ∀ e e', SameButLists e e' → (q e ↔ q e')) (i : DeclId) :
    (∃ e, t'.decl? i = some e ∧ q e) ↔
      (∃ e, t.decl? i = some e ∧ q e) ∨ (i = t.size ∧ q new) := by
  constructor
  · rintro ⟨e, he, hqe⟩
    rcases h.cases he with ⟨rfl, rfl⟩ | ⟨e', he', hs⟩
    · exact Or.inr ⟨rfl, hqe⟩
    · exact Or.inl ⟨e', he', (hq e' e hs).mpr hqe⟩
  · rintro (⟨e, he, hqe⟩ | ⟨rfl, hqe⟩)
    · obtain ⟨e', he', hs⟩ := h.kept i e he
      exact ⟨e', he', (hq e e' hs).mp hqe⟩
    · exact ⟨new, h.added, hqe⟩

end Adds

/-! ### Placing a draft -/

/-- What the table `t'` has that `t` had not, when the draft `d` went on the file `f`. -/
structure PlacedOnFile (t t' : SymbolTable) (f : FileId) (file : SourceFile) (d : Draft) : Prop where
  /-- The file is in the table. -/
  found : t.file? f = some file
  size : t'.size = t.size + 1
  decl : ∀ i, t'.decl? i = if i = t.size then some (onFile f file d) else t.decl? i
  files : ∀ g, t'.file? g =
    if g = f then some { file with declarations := file.declarations ++ [t.size] } else t.file? g
  index : t'.index = enterName t.index (onFile f file d).qualifiedName t.size

/-- What the table `t'` has that `t` had not, when the draft `d` went inside `owner`. -/
structure PlacedInside (t t' : SymbolTable) (p : DeclId) (owner : Declaration) (d : Draft) :
    Prop where
  /-- The owner is in the table. -/
  found : t.decl? p = some owner
  size : t'.size = t.size + 1
  decl : ∀ i, t'.decl? i =
    if i = t.size then some (insideOf p owner d)
    else if i = p then some (owner.withChild d.asTypeParameter.isSome t.size) else t.decl? i
  files : t'.files = t.files
  index : t'.index = enterName t.index (insideOf p owner d).qualifiedName t.size

theorem placedOnFile {t t' : SymbolTable} {f : FileId} {d : Draft}
    (h : t.declare? (.file f) d = some t') : ∃ file, PlacedOnFile t t' f file d := by
  simp only [declare?, placed?, Option.map_map, Option.map_eq_some_iff, Function.comp_apply] at h
  obtain ⟨file, hfile, rfl⟩ := h
  refine ⟨file, hfile, size_push t _, fun i => ?_, fun g => ?_, rfl⟩
  · exact decl?_push t _ i
  · have hlt : f < t.files.size := (Array.getElem?_eq_some_iff.mp hfile).1
    have hget : t.files[f]? = some file := hfile
    simp only [enterChild, push, file?, Array.getElem?_modify]
    by_cases hg : f = g
    · subst hg; simp [hget]
    · rw [if_neg hg, if_neg (Ne.symm hg)]

theorem placedInside {t t' : SymbolTable} {p : DeclId} {d : Draft}
    (h : t.declare? (.inside p) d = some t') : ∃ owner, PlacedInside t t' p owner d := by
  simp only [declare?, placed?, Option.map_map, Option.map_eq_some_iff, Function.comp_apply] at h
  obtain ⟨owner, howner, rfl⟩ := h
  have hlt : p < t.size := lt_size_of_decl? howner
  refine ⟨owner, howner, ?_, fun i => ?_, rfl, rfl⟩
  · simp [enterChild, size, push]
  · have hpush := decl?_push t (insideOf p owner d)
    simp only [enterChild, decl?, Array.getElem?_modify] at hpush ⊢
    rw [hpush]
    by_cases hn : i = t.size
    · subst hn
      rw [if_neg (Nat.ne_of_lt hlt), if_pos rfl, if_pos rfl]
    · by_cases hp : i = p
      · subst hp
        rw [if_pos rfl, if_neg hn, if_neg hn, if_pos rfl]
        exact congrArg _ howner
      · rw [if_neg (Ne.symm hp), if_neg hn, if_neg hn, if_neg hp]

namespace PlacedOnFile

variable {t t' : SymbolTable} {f : FileId} {file : SourceFile} {d : Draft}

/-- What was in the table stays as it was. -/
theorem decl_old (h : PlacedOnFile t t' f file d) {i : DeclId} (hi : i < t.size) :
    t'.decl? i = t.decl? i := by
  rw [h.decl, if_neg (Nat.ne_of_lt hi)]

theorem adds (h : PlacedOnFile t t' f file d) : Adds t t' (onFile f file d) where
  size := h.size
  added := by rw [h.decl, if_pos rfl]
  kept i e he := ⟨e, (h.decl_old (lt_size_of_decl? he)).trans he, SameButLists.refl e⟩
  index := h.index

end PlacedOnFile

namespace PlacedInside

variable {t t' : SymbolTable} {p : DeclId} {owner : Declaration} {d : Draft}

theorem decl_owner (h : PlacedInside t t' p owner d) :
    t'.decl? p = some (owner.withChild d.asTypeParameter.isSome t.size) := by
  rw [h.decl, if_neg (Nat.ne_of_lt (lt_size_of_decl? h.found)), if_pos rfl]

/-- What was in the table stays as it was, the owner apart. -/
theorem decl_old (h : PlacedInside t t' p owner d) {i : DeclId} (hi : i < t.size) (hp : i ≠ p) :
    t'.decl? i = t.decl? i := by
  rw [h.decl, if_neg (Nat.ne_of_lt hi), if_neg hp]

theorem file? (h : PlacedInside t t' p owner d) (f : FileId) : t'.file? f = t.file? f := by
  unfold SymbolTable.file?
  rw [h.files]

theorem adds (h : PlacedInside t t' p owner d) : Adds t t' (insideOf p owner d) where
  size := h.size
  added := by rw [h.decl, if_pos rfl]
  kept i e he := by
    by_cases hp : i = p
    · subst hp
      have heq : owner = e := Option.some.inj (h.found.symm.trans he)
      exact ⟨_, h.decl_owner, heq ▸ withChild_sameButLists _ _ _⟩
    · exact ⟨e, (h.decl_old (lt_size_of_decl? he) hp).trans he, SameButLists.refl e⟩
  index := h.index

end PlacedInside

/-- Wherever a draft is placed, the table has one declaration more. -/
theorem adds_of_declare? {t t' : SymbolTable} {place : Place} {d : Draft}
    (h : t.declare? place d = some t') : ∃ new, Adds t t' new := by
  cases place with
  | file f =>
    obtain ⟨file, hp⟩ := placedOnFile h
    exact ⟨_, hp.adds⟩
  | inside p =>
    obtain ⟨owner, hp⟩ := placedInside h
    exact ⟨_, hp.adds⟩

/-! ### What holds of every reachable table -/

theorem run_append (t : SymbolTable) (cs cs' : List Change) :
    t.run (cs ++ cs') = (t.run cs).run cs' :=
  List.foldl_append

/-- What survives a new file and a new declaration survives every change. -/
theorem change_induction {P : SymbolTable → Prop}
    (file : ∀ t path package, P t → P (t.addFile path package))
    (decl : ∀ t t' place d, P t → t.declare? place d = some t' → P t')
    {t : SymbolTable} (c : Change) (h : P t) : P (t.change c) := by
  cases c with
  | addFile path package => exact file t path package h
  | declare place d =>
    simp only [change]
    cases hd : t.declare? place d with
    | none => exact h
    | some t' => exact decl t t' place d h hd

/-- What survives a new file and a new declaration survives a list of changes. -/
theorem run_induction {P : SymbolTable → Prop}
    (file : ∀ t path package, P t → P (t.addFile path package))
    (decl : ∀ t t' place d, P t → t.declare? place d = some t' → P t') :
    ∀ (cs : List Change) {t : SymbolTable}, P t → P (t.run cs)
  | [], _, h => h
  | c :: cs, _, h => run_induction file decl cs (change_induction file decl c h)

/-- What survives a built-in class and a new declaration holds of the table to begin with. -/
theorem builtin_induction {P : SymbolTable → Prop} (empty : P empty)
    (builtinClass : ∀ t name, P t → P (t.push (builtinClass name)))
    (decl : ∀ t t' place d, P t → t.declare? place d = some t' → P t') : P builtin := by
  suffices ∀ (names : List String) (t : SymbolTable), P t → P (names.foldl addBuiltin t) from
    this Builtin.all _ empty
  intro names
  induction names with
  | nil => exact fun _ h => h
  | cons name names ih =>
    intro t h
    refine ih _ ?_
    have h1 := builtinClass t name h
    unfold addBuiltin
    simp only
    split
    · cases hd : (t.push (SymbolTable.builtinClass name)).declare? (.inside t.size)
          (.typeParameter Builtin.arrayParameter) with
      | none => exact h1
      | some t' => exact decl _ t' _ _ h1 hd
    · exact h1

namespace Reachable

/-- A change of a reachable table, and any number of them, lead to a reachable table. -/
theorem run {t : SymbolTable} (h : Reachable t) (cs : List Change) : Reachable (t.run cs) := by
  obtain ⟨cs', rfl⟩ := h
  exact ⟨cs' ++ cs, run_append _ cs' cs⟩

/-- **What every reachable table satisfies**: a property of the empty table that
survives each built-in class, each new file and each new declaration. -/
theorem induction {P : SymbolTable → Prop} (empty : P SymbolTable.empty)
    (builtinClass : ∀ t name, P t → P (t.push (builtinClass name)))
    (file : ∀ t path package, P t → P (t.addFile path package))
    (decl : ∀ t t' place d, P t → t.declare? place d = some t' → P t')
    {t : SymbolTable} (h : Reachable t) : P t := by
  obtain ⟨cs, rfl⟩ := h
  exact run_induction file decl cs (builtin_induction empty builtinClass decl)

end Reachable

/-! ### A table to look at

A class whose supertype is its own nested interface, and the interface's is the
class; a type parameter bounded by the class; a function that returns what
nobody declared and holds a local class. -/

/-- The changes that make the table `tree`. -/
def treeChanges : List Change :=
  [.addFile "src/Tree.kt" "graph",
   .declare (.file 0)
     ((Draft.classLike "Tree" .classType).withSuperType (.named "graph.Tree.Node")),
   .declare (.inside 14) ((Draft.typeParameter "T").withBound (.named "graph.Tree")),
   .declare (.inside 14)
     (((Draft.classLike "Node" .interfaceType).withSuperType (.decl 14)).annotated
       (.named "graph.Tree")),
   .declare (.inside 14)
     (Draft.function "walk" [{ name := "to", type := .decl 16 }] (some (.decl 99))),
   .declare (.inside 17) (Draft.classLike "Step" .classType),
   .declare (.inside 18) (Draft.property "tree" (.named "graph.Tree"))]

/-- A small table with circles in it. -/
def tree : SymbolTable := builtin.run treeChanges

theorem reachable_tree : Reachable tree := ⟨treeChanges, rfl⟩

end SymbolTable
end SymbolGraph
