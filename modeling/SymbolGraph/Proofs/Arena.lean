/-
# Owners and the lists of what they contain agree

A declaration names the one around it, and a file, a class or a function lists
what was placed in it. The two are written at the same moment and never again,
so they agree in every reachable table (`Arena`): a declaration comes after its
owner and lies in its file and its package, and a list holds exactly the
declarations that name its owner, in the order they came. A draft that is placed
leaves all declarations and files as they were, but for its own handle at the
end of one list (`ChangesOnlyOwner`).

Key definitions: `ListsExactly`, `Arena`, `Enters`, `ChangesOnlyOwner`.
Key theorems: `Enters.arena`, `Reachable.arena`, `arena_of_reachable`.
-/
import SymbolGraph.Proofs.Growth

namespace SymbolGraph
namespace SymbolTable

/-- A list holds exactly the handles with a property, in increasing order. -/
def ListsExactly (ids : List DeclId) (p : DeclId → Prop) : Prop :=
  ids.Pairwise (· < ·) ∧ ∀ i, i ∈ ids ↔ p i

namespace ListsExactly

variable {ids : List DeclId} {p q : DeclId → Prop}

theorem nil (h : ∀ i, ¬p i) : ListsExactly [] p :=
  ⟨List.Pairwise.nil, fun i => by simp [h i]⟩

/-- A handle above all others goes to the end, if it has the property. -/
theorem snocIf (h : ListsExactly ids p) {n : DeclId} (hn : ∀ i, p i → i < n) {b : Prop}
    [Decidable b] (hq : ∀ i, q i ↔ p i ∨ (i = n ∧ b)) :
    ListsExactly (if b then ids ++ [n] else ids) q := by
  by_cases hb : b
  · rw [if_pos hb]
    refine ⟨List.pairwise_append.mpr ⟨h.1, List.pairwise_singleton _ n, ?_⟩, fun i => ?_⟩
    · intro i hi j hj
      rw [List.mem_singleton] at hj
      subst hj
      exact hn i ((h.2 i).mp hi)
    · rw [List.mem_append, List.mem_singleton, h.2 i, hq i, and_iff_left hb]
  · rw [if_neg hb]
    refine ⟨h.1, fun i => ?_⟩
    rw [h.2 i, hq i, or_iff_left fun hi => hb hi.2]

end ListsExactly

/-! ### The invariant -/

/-- The declaration `i` stands at the top level of the file `f`. -/
def TopLevelOf (t : SymbolTable) (f : FileId) (i : DeclId) : Prop :=
  ∃ d, t.decl? i = some d ∧ d.parent = none ∧ d.file = some f

/-- The declaration `i` is no type parameter and stands inside `p`. -/
def MemberOf (t : SymbolTable) (p i : DeclId) : Prop :=
  ∃ d, t.decl? i = some d ∧ d.parent = some p ∧ d.asTypeParameter = none

/-- The declaration `i` is a type parameter and stands inside `p`. -/
def TypeParameterOf (t : SymbolTable) (p i : DeclId) : Prop :=
  ∃ d, t.decl? i = some d ∧ d.parent = some p ∧ d.asTypeParameter.isSome

/-- The links from declarations to what surrounds them, and the lists back, agree. -/
structure Arena (t : SymbolTable) : Prop where
  /-- A declaration comes after its owner, in the same file and the same package. -/
  nested : ∀ i d p, t.decl? i = some d → d.parent = some p →
    p < i ∧ ∃ o, t.decl? p = some o ∧ d.file = o.file ∧ d.packageName = o.packageName
  /-- A declaration without an owner is built in, or has a file and the file's package. -/
  rooted : ∀ i d, t.decl? i = some d → d.parent = none →
    (d.file = none ∧ d.packageName = Builtin.package) ∨
      ∃ f file, d.file = some f ∧ t.file? f = some file ∧ d.packageName = file.packageName
  /-- A file lists its top-level declarations. -/
  ofFile : ∀ f, ListsExactly (t.declarationsIn f) (TopLevelOf t f)
  /-- A class lists its members. -/
  members : ∀ p o, t.decl? p = some o → o.asClass.isSome → ListsExactly o.members (MemberOf t p)
  /-- A class and a function list their type parameters. -/
  typeParameters : ∀ p o, t.decl? p = some o → o.asClass.isSome ∨ o.asCallable.isSome →
    ListsExactly o.typeParameters (TypeParameterOf t p)

theorem TopLevelOf.lt_size {t : SymbolTable} {f : FileId} {i : DeclId} (h : TopLevelOf t f i) :
    i < t.size := by
  obtain ⟨d, hd, -⟩ := h
  exact lt_size_of_decl? hd

theorem MemberOf.lt_size {t : SymbolTable} {p i : DeclId} (h : MemberOf t p i) : i < t.size := by
  obtain ⟨d, hd, -⟩ := h
  exact lt_size_of_decl? hd

theorem TypeParameterOf.lt_size {t : SymbolTable} {p i : DeclId} (h : TypeParameterOf t p i) :
    i < t.size := by
  obtain ⟨d, hd, -⟩ := h
  exact lt_size_of_decl? hd

/-- What stands inside a declaration comes after it, so nothing stands inside one
that is not there yet. -/
theorem Arena.no_child {t : SymbolTable} (h : Arena t) {p i : DeclId} {d : Declaration}
    (hd : t.decl? i = some d) (hp : d.parent = some p) : p < t.size :=
  Nat.lt_trans (h.nested i d p hd hp).1 (lt_size_of_decl? hd)

/-! ### Every change keeps it -/

/-- The new declaration of `t'` stands where it may, and is entered in the list of what
it stands in and in no other. -/
structure Enters (t t' : SymbolTable) (new : Declaration) : Prop extends Adds t t' new where
  owner : ∀ p, new.parent = some p →
    ∃ o, t.decl? p = some o ∧ new.file = o.file ∧ new.packageName = o.packageName
  root : new.parent = none → (new.file = none ∧ new.packageName = Builtin.package) ∨
    ∃ f file, new.file = some f ∧ t.file? f = some file ∧ new.packageName = file.packageName
  files : ∀ f file, t.file? f = some file →
    ∃ file', t'.file? f = some file' ∧ file'.packageName = file.packageName
  childless : new.members = [] ∧ new.typeParameters = []
  top : ∀ f, t'.declarationsIn f =
    if new.parent = none ∧ new.file = some f then t.declarationsIn f ++ [t.size]
    else t.declarationsIn f
  members : ∀ p o o', t.decl? p = some o → t'.decl? p = some o' → o.asClass.isSome →
    o'.members = if new.parent = some p ∧ new.asTypeParameter = none then o.members ++ [t.size]
      else o.members
  typeParameters : ∀ p o o', t.decl? p = some o → t'.decl? p = some o' →
    o.asClass.isSome ∨ o.asCallable.isSome →
    o'.typeParameters = if new.parent = some p ∧ new.asTypeParameter.isSome
      then o.typeParameters ++ [t.size] else o.typeParameters

namespace Adds

variable {t t' : SymbolTable} {new : Declaration}

theorem topLevelOf_iff (h : Adds t t' new) (f : FileId) (i : DeclId) : TopLevelOf t' f i ↔
    TopLevelOf t f i ∨ (i = t.size ∧ new.parent = none ∧ new.file = some f) :=
  h.exists_iff (fun e e' hs => by rw [hs.parent, hs.file]) i

theorem memberOf_iff (h : Adds t t' new) (p i : DeclId) : MemberOf t' p i ↔
    MemberOf t p i ∨ (i = t.size ∧ new.parent = some p ∧ new.asTypeParameter = none) :=
  h.exists_iff (fun e e' hs => by rw [hs.parent, hs.draft]) i

theorem typeParameterOf_iff (h : Adds t t' new) (p i : DeclId) : TypeParameterOf t' p i ↔
    TypeParameterOf t p i ∨ (i = t.size ∧ new.parent = some p ∧ new.asTypeParameter.isSome) :=
  h.exists_iff (fun e e' hs => by rw [hs.parent, hs.draft]) i

end Adds

namespace Enters

variable {t t' : SymbolTable} {new : Declaration}

/-- Nothing surrounds itself. -/
theorem parent_ne (h : Enters t t' new) : new.parent ≠ some t.size := fun hp => by
  obtain ⟨o, ho, -⟩ := h.owner t.size hp
  exact Nat.lt_irrefl _ (lt_size_of_decl? ho)

/-- A child of the new declaration would have been placed before it. -/
theorem no_child (h : Enters t t' new) (ha : Arena t) (i : DeclId) :
    ¬MemberOf t' t.size i ∧ ¬TypeParameterOf t' t.size i := by
  refine ⟨fun hm => ?_, fun hm => ?_⟩
  · rcases (h.memberOf_iff t.size i).mp hm with ⟨e, he, hp, -⟩ | ⟨-, hp, -⟩
    · exact Nat.lt_irrefl _ (ha.no_child he hp)
    · exact h.parent_ne hp
  · rcases (h.typeParameterOf_iff t.size i).mp hm with ⟨e, he, hp, -⟩ | ⟨-, hp, -⟩
    · exact Nat.lt_irrefl _ (ha.no_child he hp)
    · exact h.parent_ne hp

/-- **A declaration that is entered where it belongs keeps the links and the lists in
agreement.** -/
theorem arena (h : Enters t t' new) (ha : Arena t) : Arena t' where
  nested i d p hd hp := by
    rcases h.cases hd with ⟨rfl, rfl⟩ | ⟨e, he, hs⟩
    · obtain ⟨o, ho, hf, hk⟩ := h.owner p hp
      obtain ⟨o', ho', hs⟩ := h.kept p o ho
      exact ⟨lt_size_of_decl? ho, o', ho', hf.trans hs.file.symm, hk.trans hs.packageName.symm⟩
    · obtain ⟨hlt, o, ho, hf, hk⟩ := ha.nested i e p he (hs.parent ▸ hp)
      obtain ⟨o', ho', hs'⟩ := h.kept p o ho
      exact ⟨hlt, o', ho', hs.file.trans (hf.trans hs'.file.symm),
        hs.packageName.trans (hk.trans hs'.packageName.symm)⟩
  rooted i d hd hp := by
    have hroot : (d.file = none ∧ d.packageName = Builtin.package) ∨
        ∃ f file, d.file = some f ∧ t.file? f = some file ∧ d.packageName = file.packageName := by
      rcases h.cases hd with ⟨rfl, rfl⟩ | ⟨e, he, hs⟩
      · exact h.root hp
      · rw [hs.file, hs.packageName]
        exact ha.rooted i e he (hs.parent ▸ hp)
    rcases hroot with hb | ⟨f, file, hf, hfile, hk⟩
    · exact Or.inl hb
    · obtain ⟨file', hfile', hk'⟩ := h.files f file hfile
      exact Or.inr ⟨f, file', hf, hfile', hk.trans hk'.symm⟩
  ofFile f := by
    rw [h.top f]
    exact (ha.ofFile f).snocIf (fun i hi => hi.lt_size) (h.topLevelOf_iff f)
  members p o' ho' hc := by
    rcases h.cases ho' with ⟨rfl, rfl⟩ | ⟨o, ho, hs⟩
    · rw [h.childless.1]
      exact ListsExactly.nil fun i => (h.no_child ha i).1
    · rw [hs.draft] at hc
      rw [h.members p o o' ho ho' hc]
      exact (ha.members p o ho hc).snocIf (fun i hi => hi.lt_size) (h.memberOf_iff p)
  typeParameters p o' ho' hc := by
    rcases h.cases ho' with ⟨rfl, rfl⟩ | ⟨o, ho, hs⟩
    · rw [h.childless.2]
      exact ListsExactly.nil fun i => (h.no_child ha i).2
    · rw [hs.draft] at hc
      rw [h.typeParameters p o o' ho ho' hc]
      exact (ha.typeParameters p o ho hc).snocIf (fun i hi => hi.lt_size)
        (h.typeParameterOf_iff p)

end Enters

theorem enters_builtinClass (t : SymbolTable) (name : String) :
    Enters t (t.push (builtinClass name)) (builtinClass name) where
  toAdds := adds_push t _
  owner p hp := by simp [builtinClass] at hp
  root _ := Or.inl ⟨rfl, rfl⟩
  files f file hfile := ⟨file, hfile, rfl⟩
  childless := ⟨rfl, rfl⟩
  top f := by simp [builtinClass, declarationsIn]
  members p o o' ho ho' _ := by
    rw [decl?_push, if_neg (Nat.ne_of_lt (lt_size_of_decl? ho)), ho] at ho'
    rw [← Option.some.inj ho', if_neg (by simp [builtinClass])]
  typeParameters p o o' ho ho' _ := by
    rw [decl?_push, if_neg (Nat.ne_of_lt (lt_size_of_decl? ho)), ho] at ho'
    rw [← Option.some.inj ho', if_neg (by simp [builtinClass])]

theorem PlacedOnFile.enters {t t' : SymbolTable} {f : FileId} {file : SourceFile} {d : Draft}
    (h : PlacedOnFile t t' f file d) : Enters t t' (onFile f file d) where
  toAdds := h.adds
  owner p hp := by simp [onFile] at hp
  root _ := Or.inr ⟨f, file, rfl, h.found, rfl⟩
  files g s hs := by
    by_cases hg : g = f
    · subst hg
      have heq : file = s := Option.some.inj (h.found.symm.trans hs)
      exact ⟨_, (h.files g).trans (if_pos rfl), by rw [heq]⟩
    · exact ⟨s, ((h.files g).trans (if_neg hg)).trans hs, rfl⟩
  childless := ⟨rfl, rfl⟩
  top g := by
    unfold declarationsIn
    rw [h.files g]
    by_cases hg : g = f
    · subst hg
      rw [if_pos rfl, if_pos ⟨rfl, rfl⟩, h.found]
    · rw [if_neg hg, if_neg fun hc => hg (Option.some.inj hc.2).symm]
  members p o o' ho ho' _ := by
    have heq : o = o' := Option.some.inj ((h.decl_old (lt_size_of_decl? ho) ▸ ho).symm.trans ho')
    rw [heq, if_neg (by simp [onFile])]
  typeParameters p o o' ho ho' _ := by
    have heq : o = o' := Option.some.inj ((h.decl_old (lt_size_of_decl? ho) ▸ ho).symm.trans ho')
    rw [heq, if_neg (by simp [onFile])]

namespace PlacedInside

variable {t t' : SymbolTable} {p : DeclId} {owner : Declaration} {d : Draft}

/-- A declaration of both tables gets the new handle as a child, if it is the owner. -/
theorem decl_both (h : PlacedInside t t' p owner d) {i : DeclId} {o o' : Declaration}
    (ho : t.decl? i = some o) (ho' : t'.decl? i = some o') :
    (i = p ∧ o' = o.withChild d.asTypeParameter.isSome t.size) ∨ (i ≠ p ∧ o' = o) := by
  by_cases hi : i = p
  · subst hi
    have heq : owner = o := Option.some.inj (h.found.symm.trans ho)
    exact Or.inl ⟨rfl, heq ▸ Option.some.inj (ho'.symm.trans h.decl_owner)⟩
  · have hold := (h.decl_old (lt_size_of_decl? ho) hi).trans ho
    exact Or.inr ⟨hi, Option.some.inj (ho'.symm.trans hold)⟩

theorem enters (h : PlacedInside t t' p owner d) : Enters t t' (insideOf p owner d) where
  toAdds := h.adds
  owner q hq := ⟨owner, Option.some.inj hq ▸ h.found, rfl, rfl⟩
  root hn := by simp [insideOf] at hn
  files f file hfile := ⟨file, (h.file? f).trans hfile, rfl⟩
  childless := ⟨rfl, rfl⟩
  top f := by
    unfold declarationsIn
    rw [h.file? f, if_neg (by simp [insideOf])]
  members q o o' ho ho' hc := by
    rcases h.decl_both ho ho' with ⟨rfl, rfl⟩ | ⟨hq, rfl⟩
    · rw [withChild_members o _ _ hc]
      cases ht : d.asTypeParameter with
      | none => exact (if_pos ⟨rfl, ht⟩).symm
      | some p => exact (if_neg fun hn => by simp [insideOf, ht] at hn).symm
    · rw [if_neg fun hn => hq (Option.some.inj hn.1).symm]
  typeParameters q o o' ho ho' hc := by
    rcases h.decl_both ho ho' with ⟨rfl, rfl⟩ | ⟨hq, rfl⟩
    · rw [withChild_typeParameters o _ _ hc]
      cases ht : d.asTypeParameter with
      | none => exact (if_neg fun hn => by simp [insideOf, ht] at hn).symm
      | some p => exact (if_pos ⟨rfl, by simp [insideOf, ht]⟩).symm
    · rw [if_neg fun hn => hq (Option.some.inj hn.1).symm]

end PlacedInside

theorem Arena.addFile {t : SymbolTable} (h : Arena t) (path package : String) :
    Arena (t.addFile path package) where
  nested := h.nested
  rooted i d hd hp := by
    rcases h.rooted i d hd hp with hb | ⟨f, file, hf, hfile, hk⟩
    · exact Or.inl hb
    · exact Or.inr ⟨f, file, hf, file?_addFile_of_some path package hfile, hk⟩
  ofFile f := by
    have hlist : (t.addFile path package).declarationsIn f = t.declarationsIn f := by
      unfold declarationsIn
      rw [file?_addFile]
      by_cases hf : f = t.files.size
      · have hnone : t.file? f = none := Array.getElem?_eq_none (Nat.le_of_eq hf.symm)
        rw [if_pos hf, hnone]
        rfl
      · rw [if_neg hf]
    rw [hlist]
    exact h.ofFile f
  members := h.members
  typeParameters := h.typeParameters

theorem arena_empty : Arena empty where
  nested i d p h := by simp at h
  rooted i d h := by simp at h
  ofFile f := ListsExactly.nil fun i h => absurd h.lt_size (Nat.not_lt_zero i)
  members p o h := by simp at h
  typeParameters p o h := by simp at h

theorem Arena.declare {t t' : SymbolTable} (h : Arena t) {place : Place} {d : Draft}
    (hd : t.declare? place d = some t') : Arena t' := by
  cases place with
  | file f =>
    obtain ⟨file, hp⟩ := placedOnFile hd
    exact hp.enters.arena h
  | inside p =>
    obtain ⟨owner, hp⟩ := placedInside hd
    exact hp.enters.arena h

/-- The links and the lists of a reachable table agree. -/
theorem Reachable.arena {t : SymbolTable} (h : Reachable t) : Arena t :=
  h.induction arena_empty (fun t name ht => (enters_builtinClass t name).arena ht)
    (fun _ path package ht => ht.addFile path package) (fun _ _ _ _ ht hd => ht.declare hd)

/-! ### What placing a draft leaves alone -/

/-- The table `t'` has one declaration more than `t`. Everything else is as it was, but
for the new handle at the end of at most one list of what the draft was placed in. -/
structure ChangesOnlyOwner (t t' : SymbolTable) (place : Place) : Prop where
  size : t'.size = t.size + 1
  fileCount : t'.files.size = t.files.size
  decl : ∀ i o, t.decl? i = some o → ∃ o', t'.decl? i = some o' ∧
    (o' = o ∨ place = .inside i ∧
      (o' = { o with members := o.members ++ [t.size] } ∨
        o' = { o with typeParameters := o.typeParameters ++ [t.size] }))
  file : ∀ f s, t.file? f = some s → ∃ s', t'.file? f = some s' ∧
    (s' = s ∨ place = .file f ∧ s' = { s with declarations := s.declarations ++ [t.size] })

theorem PlacedOnFile.changesOnlyOwner {t t' : SymbolTable} {f : FileId} {file : SourceFile}
    {d : Draft} (h : PlacedOnFile t t' f file d) (hcount : t'.files.size = t.files.size) :
    ChangesOnlyOwner t t' (.file f) where
  size := h.size
  fileCount := hcount
  decl i o ho := ⟨o, (h.decl_old (lt_size_of_decl? ho)).trans ho, Or.inl rfl⟩
  file g s hs := by
    by_cases hg : g = f
    · subst hg
      have heq : file = s := Option.some.inj (h.found.symm.trans hs)
      subst heq
      exact ⟨_, (h.files g).trans (if_pos rfl), Or.inr ⟨rfl, rfl⟩⟩
    · exact ⟨s, ((h.files g).trans (if_neg hg)).trans hs, Or.inl rfl⟩

theorem PlacedInside.changesOnlyOwner {t t' : SymbolTable} {p : DeclId} {owner : Declaration}
    {d : Draft} (h : PlacedInside t t' p owner d) : ChangesOnlyOwner t t' (.inside p) where
  size := h.size
  fileCount := by rw [h.files]
  decl i o ho := by
    obtain ⟨o', ho', -⟩ := h.adds.kept i o ho
    refine ⟨o', ho', ?_⟩
    rcases h.decl_both ho ho' with ⟨rfl, rfl⟩ | ⟨-, rfl⟩
    · rcases withChild_cases o d.asTypeParameter.isSome t.size with hc | hc
      · exact Or.inl hc
      · exact Or.inr ⟨rfl, hc⟩
    · exact Or.inl rfl
  file f s hs := ⟨s, (h.file? f).trans hs, Or.inl rfl⟩

/-- No change but a new file changes the number of files. -/
theorem files_size_of_declare? {t t' : SymbolTable} {place : Place} {d : Draft}
    (h : t.declare? place d = some t') : t'.files.size = t.files.size := by
  obtain ⟨decl, -, rfl⟩ := Option.map_eq_some_iff.mp h
  cases place with
  | file f => exact Array.size_modify
  | inside p => rfl

theorem changesOnlyOwner_of_declare? {t t' : SymbolTable} {place : Place} {d : Draft}
    (h : t.declare? place d = some t') : ChangesOnlyOwner t t' place := by
  cases place with
  | file f =>
    obtain ⟨file, hp⟩ := placedOnFile h
    exact hp.changesOnlyOwner (files_size_of_declare? h)
  | inside p =>
    obtain ⟨owner, hp⟩ := placedInside h
    exact hp.changesOnlyOwner

/-- Only built-in classes have neither an owner nor a file. -/
def FilelessBuiltin (t : SymbolTable) : Prop :=
  ∀ i d, t.decl? i = some d → d.parent = none → d.file = none → i < builtin.size

theorem FilelessBuiltin.declare {t t' : SymbolTable} (h : FilelessBuiltin t) {place : Place}
    {d : Draft} (hd : t.declare? place d = some t') : FilelessBuiltin t' := by
  intro i e hi hparent hfile
  cases place with
  | file f =>
    obtain ⟨file, hp⟩ := placedOnFile hd
    rcases hp.adds.cases hi with ⟨-, rfl⟩ | ⟨e', he', hs⟩
    · simp [onFile] at hfile
    · exact h i e' he' (hs.parent ▸ hparent) (hs.file ▸ hfile)
  | inside p =>
    obtain ⟨owner, hp⟩ := placedInside hd
    rcases hp.adds.cases hi with ⟨-, rfl⟩ | ⟨e', he', hs⟩
    · simp [insideOf] at hparent
    · exact h i e' he' (hs.parent ▸ hparent) (hs.file ▸ hfile)

theorem Reachable.filelessBuiltin {t : SymbolTable} (h : Reachable t) : FilelessBuiltin t := by
  obtain ⟨cs, rfl⟩ := h
  have base : FilelessBuiltin builtin := fun i d hd _ _ => lt_size_of_decl? hd
  exact run_induction (fun _ _ _ ht => ht) (fun _ _ _ _ ht hd => ht.declare hd) cs base

/-- **Links and lists agree in every reachable table.** Each declaration comes after its
owner, in its file and its package; only built-in classes have neither owner nor file;
each list holds exactly what stands in its bearer, in order; and a further draft
changes nothing but one list of its owner. -/
theorem arena_of_reachable {t : SymbolTable} (h : Reachable t) :
    Arena t ∧ FilelessBuiltin t ∧
      ∀ place d t', t.declare? place d = some t' → ChangesOnlyOwner t t' place :=
  ⟨h.arena, h.filelessBuiltin, fun _ _ _ hd => changesOnlyOwner_of_declare? hd⟩

/-- The table `tree`, and a further member placed in its class. -/
theorem arena_of_reachable_tree : Reachable tree ∧ Arena tree ∧
    ∃ t', tree.declare? (.inside 14) (.property "leaf" (.named "graph.Tree")) = some t' ∧
      ChangesOnlyOwner tree t' (.inside 14) := by
  obtain ⟨harena, -, hdeclare⟩ := arena_of_reachable reachable_tree
  have hplaced : (tree.declare? (.inside 14) (.property "leaf" (.named "graph.Tree"))).isSome := by
    rw [declare?_isSome_iff]
    decide +kernel
  obtain ⟨t', ht⟩ := Option.isSome_iff_exists.mp hplaced
  exact ⟨reachable_tree, harena, t', ht, hdeclare _ _ t' ht⟩

end SymbolTable
end SymbolGraph
