/-
# A file flattened

The declarations of a file are taken off a stack one by one, and the members of a class
are pushed when the class is taken, the last one first (`Checked.flatten`). Read from its
top, the stack is what waits in a depth-first walk. A member comes after its class and is
a member of no other, so the members make a forest (`Arena.forest`) and the loop ends with
the listing of each top-level declaration after the other: a declaration first, and then
what is listed for its members (`preorder_eq`).

Type parameters are no members, and what stands in a function is not listed in it. So a
declaration is listed if all around it are classes and it is no type parameter of one
(`ListedIn`). It is listed in its own file, once, and the listings of all files together
convert each declaration once.

Key definitions: `Checked.flatten`, `SymbolTable.preorder`, `SymbolTable.ListedIn`.
Key theorems: `Arena.forest`, `Checked.flatten_eq`, `mem_allDeclarations_iff`,
`allDeclarations_inOrder`.
-/
import SymbolGraph.Proofs.Annotated
import SymbolGraph.Proofs.Forests

namespace SymbolGraph

theorem Draft.asTypeParameter_of_asClass {d : Draft} {c : ClassShape} (h : d.asClass = some c) :
    d.asTypeParameter = none := by
  rw [asTypeParameter, asClass_eq_some_iff.mp h]

theorem SymbolTable.membersOf_of_decl? {t : SymbolTable} {i : DeclId} {d : Declaration}
    (hd : t.decl? i = some d) : t.membersOf i = if d.asClass.isSome then d.members else [] := by
  rw [membersOf, hd]

theorem SymbolTable.membersOf_of_decl?_eq_none {t : SymbolTable} {i : DeclId}
    (hd : t.decl? i = none) : t.membersOf i = [] := by
  rw [membersOf, hd]

/-! ### The stack -/

namespace Checked

/-- The declarations taken so far, and those on a stack with all inside them. The last
declaration on the stack is taken, and its members are pushed if it is a class. -/
def flatten (t : SymbolTable) : Nat → List DeclId → List DeclId → Except Fault (List DeclId)
  | 0, _, _ => .error .exhausted
  | fuel + 1, taken, stack =>
    match stack.getLast? with
    | none => return taken
    | some id => do
      let d ← get t id
      let members := if d.asClass.isSome then d.members else []
      flatten t fuel (taken ++ [id]) (stack.dropLast ++ members.reverse)

variable {t : SymbolTable}

theorem flatten_nil (fuel : Nat) (taken : List DeclId) :
    flatten t (fuel + 1) taken [] = .ok taken := rfl

/-- The members of what is on top come to lie on top, the first one uppermost. -/
theorem flatten_reverse_cons {id : DeclId} (hid : id < t.size) (fuel : Nat)
    (taken waiting : List DeclId) :
    flatten t (fuel + 1) taken (id :: waiting).reverse =
      flatten t fuel (taken ++ [id]) (t.membersOf id ++ waiting).reverse := by
  obtain ⟨d, hd⟩ := SymbolTable.decl?_of_lt hid
  rw [List.reverse_append, SymbolTable.membersOf_of_decl? hd, List.reverse_cons, flatten,
    List.getLast?_concat, List.dropLast_concat]
  simp only [get_eq hd]
  rfl

/-- **The loop takes what waits in the order of the listings.** -/
theorem flatten_eq (h : Walk.Forest t.membersOf t.size) : ∀ (fuel : Nat)
    (taken waiting : List DeclId), (∀ i ∈ waiting, i < t.size) →
      (waiting.flatMap (Walk.preorder t.membersOf t.size)).length < fuel →
      flatten t fuel taken waiting.reverse =
        .ok (taken ++ waiting.flatMap (Walk.preorder t.membersOf t.size))
  | fuel + 1, taken, [], _, _ => by
    rw [List.flatMap_nil, List.append_nil]
    exact flatten_nil fuel taken
  | fuel + 1, taken, id :: waiting, hwaiting, hfuel => by
    have hnext : ∀ i ∈ t.membersOf id ++ waiting, i < t.size := by
      intro i hi
      rcases List.mem_append.mp hi with hi | hi
      · exact (h.above id i hi).2
      · exact hwaiting i (List.mem_cons_of_mem _ hi)
    rw [h.flatMap_cons, List.length_cons] at hfuel
    rw [flatten_reverse_cons (hwaiting id List.mem_cons_self), h.flatMap_cons,
      flatten_eq h fuel _ _ hnext (by omega), List.append_assoc]
    rfl

end Checked

namespace SymbolTable

variable {t : SymbolTable} {f g : FileId} {i j : DeclId}

/-! ### The forest of a table -/

/-- The declaration `i` is a class. -/
def IsClass (t : SymbolTable) (i : DeclId) : Prop := ∃ d, t.decl? i = some d ∧ d.asClass.isSome

/-- A declaration and all that is listed inside it. -/
def preorder (t : SymbolTable) : DeclId → List DeclId := Walk.preorder t.membersOf t.size

theorem Arena.mem_membersOf_iff (h : Arena t) :
    j ∈ t.membersOf i ↔ IsClass t i ∧ MemberOf t i j := by
  unfold IsClass
  cases hi : t.decl? i with
  | none => simp [membersOf_of_decl?_eq_none hi]
  | some d =>
    rw [membersOf_of_decl? hi]
    by_cases hc : d.asClass.isSome
    · rw [if_pos hc, (h.members i d hi hc).2 j]
      exact ⟨fun hj => ⟨⟨d, rfl, hc⟩, hj⟩, fun hj => hj.2⟩
    · simp [hc]

theorem Arena.pairwise_membersOf (h : Arena t) (i : DeclId) :
    (t.membersOf i).Pairwise (· < ·) := by
  cases hi : t.decl? i with
  | none =>
    rw [membersOf_of_decl?_eq_none hi]
    exact List.Pairwise.nil
  | some d =>
    rw [membersOf_of_decl? hi]
    by_cases hc : d.asClass.isSome
    · rw [if_pos hc]
      exact (h.members i d hi hc).1
    · rw [if_neg hc]
      exact List.Pairwise.nil

theorem nodup_of_increasing {ids : List DeclId} (h : ids.Pairwise (· < ·)) : ids.Nodup :=
  h.imp Nat.ne_of_lt

/-- **The members of a table make a forest.** -/
theorem Arena.forest (h : Arena t) : Walk.Forest t.membersOf t.size where
  above i j hj := by
    obtain ⟨-, d, hd, hparent, -⟩ := h.mem_membersOf_iff.mp hj
    exact ⟨(h.nested j d i hd hparent).1, lt_size_of_decl? hd⟩
  nodup i := nodup_of_increasing (h.pairwise_membersOf i)
  single i j k hi hj := by
    obtain ⟨-, d, hd, hparent, -⟩ := h.mem_membersOf_iff.mp hi
    obtain ⟨-, d', hd', hparent', -⟩ := h.mem_membersOf_iff.mp hj
    obtain rfl := Option.some.inj (hd.symm.trans hd')
    exact Option.some.inj (hparent.symm.trans hparent')

/-- A declaration comes first, then the listings of its members, if it is a class. -/
theorem Arena.preorder_eq (h : Arena t) {d : Declaration} (hd : t.decl? i = some d) :
    t.preorder i = i :: if d.asClass.isSome then d.members.flatMap t.preorder else [] := by
  rw [preorder, h.forest.preorder_eq, membersOf_of_decl? hd]
  split <;> rfl

/-! ### The top level of a file -/

theorem Arena.mem_declarationsIn_iff (h : Arena t) : i ∈ t.declarationsIn f ↔ TopLevelOf t f i :=
  (h.ofFile f).2 i

/-- What stands at the top level stands in nothing. -/
theorem Arena.apart_declarationsIn (h : Arena t) (f : FileId) :
    Walk.Apart t.membersOf (t.declarationsIn f) := by
  intro i _ j hj hij
  rcases Relation.ReflTransGen.cases_tail hij with heq | ⟨k, -, hkj⟩
  · exact heq.symm
  · obtain ⟨d, hd, hnone, -⟩ := h.mem_declarationsIn_iff.mp hj
    obtain ⟨-, d', hd', hparent, -⟩ := h.mem_membersOf_iff.mp hkj
    obtain rfl := Option.some.inj (hd.symm.trans hd')
    rw [hnone] at hparent
    exact absurd hparent (by simp)

theorem Arena.nodup_declarationsIn (h : Arena t) (f : FileId) : (t.declarationsIn f).Nodup :=
  nodup_of_increasing (h.ofFile f).1

theorem Arena.lt_of_mem_declarationsIn (h : Arena t) : ∀ i ∈ t.declarationsIn f, i < t.size :=
  fun _ hi => (h.mem_declarationsIn_iff.mp hi).lt_size

theorem Arena.length_preorders_le (h : Arena t) (f : FileId) :
    ((t.declarationsIn f).flatMap (Walk.preorder t.membersOf t.size)).length ≤ t.size :=
  h.forest.length_flatMap_le (h.nodup_declarationsIn f) (h.apart_declarationsIn f)
    h.lt_of_mem_declarationsIn

/-- **The declarations of a file are the listings of its top level.** -/
theorem Arena.allDeclarations_eq (h : Arena t) (f : FileId) :
    t.allDeclarations f = (t.declarationsIn f).flatMap t.preorder :=
  h.forest.depthFirst_eq t.size _ (h.length_preorders_le f)

theorem Arena.nodup_allDeclarations (h : Arena t) (f : FileId) : (t.allDeclarations f).Nodup := by
  rw [h.allDeclarations_eq]
  exact h.forest.nodup_flatMap (h.nodup_declarationsIn f) (h.apart_declarationsIn f)

/-! ### What is listed -/

/-- The declaration `i` is of the file `f`, all around it are classes, and it stands in
nothing or is no type parameter. -/
def ListedIn (t : SymbolTable) (f : FileId) (i : DeclId) : Prop :=
  ∃ d, t.decl? i = some d ∧ d.file = some f ∧ (d.parent = none ∨ d.asTypeParameter = none) ∧
    ∀ a, Below t a i → IsClass t a

/-- Around what stands in a declaration are that declaration and all around it. -/
theorem below_iff {d : Declaration} {p a : DeclId} (hd : t.decl? i = some d)
    (hp : d.parent = some p) : Below t a i ↔ a = p ∨ Below t a p := by
  have hparent : t.parent? i = some p := by rw [parent?, hd, Option.bind_some, hp]
  unfold Below
  rw [Relation.TransGen.tail'_iff]
  constructor
  · rintro ⟨q, haq, hq⟩
    rw [hparent] at hq
    rw [← Option.some.inj hq] at haq
    rcases Relation.reflTransGen_iff_eq_or_transGen.mp haq with heq | habove
    · exact Or.inl heq.symm
    · exact Or.inr habove
  · rintro (rfl | habove)
    · exact ⟨a, Relation.ReflTransGen.refl, hparent⟩
    · exact ⟨p, habove.to_reflTransGen, hparent⟩

theorem not_below {d : Declaration} {a : DeclId} (hd : t.decl? i = some d)
    (hp : d.parent = none) : ¬ Below t a i := by
  intro habove
  obtain ⟨q, -, hq⟩ := Relation.TransGen.tail'_iff.mp habove
  rw [parent?, hd, Option.bind_some, hp] at hq
  exact absurd hq (by simp)

/-- The top level of a file is listed in it. -/
theorem TopLevelOf.listedIn (h : TopLevelOf t f i) : ListedIn t f i := by
  obtain ⟨d, hd, hp, hf⟩ := h
  exact ⟨d, hd, hf, Or.inl hp, fun a ha => absurd ha (not_below hd hp)⟩

/-- The members of a listed class are listed in the same file. -/
theorem ListedIn.member (h : Arena t) (hi : ListedIn t f i) (hj : j ∈ t.membersOf i) :
    ListedIn t f j := by
  obtain ⟨hclass, d, hd, hp, hparam⟩ := h.mem_membersOf_iff.mp hj
  obtain ⟨o, ho, hf, -, haround⟩ := hi
  obtain ⟨-, o', ho', hfile, -⟩ := h.nested j d i hd hp
  obtain rfl := Option.some.inj (ho.symm.trans ho')
  refine ⟨d, hd, by rw [hfile, hf], Or.inr hparam, fun a ha => ?_⟩
  rcases (below_iff hd hp).mp ha with rfl | ha
  · exact hclass
  · exact haround a ha

/-- A listed declaration stands at the top level, or is a member of a listed class. -/
theorem ListedIn.cases (h : Arena t) (hi : ListedIn t f i) :
    TopLevelOf t f i ∨ ∃ p, p < i ∧ ListedIn t f p ∧ i ∈ t.membersOf p := by
  obtain ⟨d, hd, hf, hkind, haround⟩ := hi
  cases hp : d.parent with
  | none => exact Or.inl ⟨d, hd, hp, hf⟩
  | some p =>
    obtain ⟨hlt, o, ho, hfile, -⟩ := h.nested i d p hd hp
    have hparam : d.asTypeParameter = none := hkind.resolve_left (by simp [hp])
    have hclass : IsClass t p := haround p ((below_iff hd hp).mpr (Or.inl rfl))
    refine Or.inr ⟨p, hlt, ⟨o, ho, by rw [← hfile, hf], Or.inr ?_, fun a ha => ?_⟩, ?_⟩
    · obtain ⟨o', ho', hc⟩ := hclass
      obtain ⟨c, hc⟩ := Option.isSome_iff_exists.mp hc
      obtain rfl := Option.some.inj (ho.symm.trans ho')
      exact Draft.asTypeParameter_of_asClass hc
    · exact haround a ((below_iff hd hp).mpr (Or.inr ha))
    · exact h.mem_membersOf_iff.mpr ⟨hclass, d, hd, hp, hparam⟩

theorem ListedIn.of_leadsTo (h : Arena t) (hi : ListedIn t f i)
    (hij : Walk.LeadsTo t.membersOf i j) : ListedIn t f j := by
  induction hij with
  | refl => exact hi
  | tail _ hstep ih => exact ih.member h hstep

/-- A listed declaration is met on the way down from the top level. -/
theorem ListedIn.exists_leadsTo (h : Arena t) (hi : ListedIn t f i) :
    ∃ r, TopLevelOf t f r ∧ Walk.LeadsTo t.membersOf r i := by
  induction i using Nat.strong_induction_on with
  | _ i ih =>
    rcases hi.cases h with htop | ⟨p, hlt, hp, hmember⟩
    · exact ⟨i, htop, Relation.ReflTransGen.refl⟩
    · obtain ⟨r, hr, hrp⟩ := ih p hlt hp
      exact ⟨r, hr, hrp.tail hmember⟩

/-- **The declarations of a file are those of it around which there are only classes, and
which stand in nothing or are no type parameters.** -/
theorem Arena.mem_allDeclarations_iff (h : Arena t) : i ∈ t.allDeclarations f ↔ ListedIn t f i := by
  rw [h.allDeclarations_eq]
  refine h.forest.mem_flatMap_iff.trans ⟨?_, fun hi => ?_⟩
  · rintro ⟨r, hr, hri⟩
    exact (h.mem_declarationsIn_iff.mp hr).listedIn.of_leadsTo h hri
  · obtain ⟨r, hr, hri⟩ := hi.exists_leadsTo h
    exact ⟨r, h.mem_declarationsIn_iff.mpr hr, hri⟩

/-- No declaration is listed in two files. -/
theorem Arena.disjoint_allDeclarations (h : Arena t) (hfg : f ≠ g) :
    (t.allDeclarations f).Disjoint (t.allDeclarations g) := by
  intro i hf hg
  obtain ⟨d, hd, hfile, -⟩ := h.mem_allDeclarations_iff.mp hf
  obtain ⟨d', hd', hfile', -⟩ := h.mem_allDeclarations_iff.mp hg
  obtain rfl := Option.some.inj (hd.symm.trans hd')
  exact hfg (Option.some.inj (hfile.symm.trans hfile'))

/-! ### All files -/

/-- The declarations listed in the files of a table, one file after the other. -/
def rootDeclarations (t : SymbolTable) : List DeclId :=
  (List.range t.files.size).flatMap t.allDeclarations

theorem Arena.nodup_rootDeclarations (h : Arena t) : t.rootDeclarations.Nodup :=
  List.nodup_flatMap.mpr ⟨fun f _ => h.nodup_allDeclarations f,
    List.nodup_range.imp fun hne => h.disjoint_allDeclarations hne⟩

theorem Arena.lt_of_mem_rootDeclarations (h : Arena t) : ∀ i ∈ t.rootDeclarations, i < t.size := by
  intro i hi
  obtain ⟨f, -, hf⟩ := List.mem_flatMap.mp hi
  obtain ⟨d, hd, -⟩ := h.mem_allDeclarations_iff.mp hf
  exact lt_size_of_decl? hd

/-- **A file is flattened in order, and lists each declaration once.** The loop over the
stack ends. It gives the listings of the top level one after the other, where a declaration
comes first and then, if it is a class, the listing of each member; no declaration comes
twice, and those that come are those of the file around which there are only classes and
which stand in nothing or are no type parameters. No declaration comes in two files, so all
files together have an element for each of theirs, and for each one only. -/
theorem allDeclarations_inOrder (h : Reachable t) (f : FileId) :
    (∀ fuel, t.size < fuel →
      Checked.flatten t fuel [] (t.declarationsIn f).reverse = .ok (t.allDeclarations f)) ∧
    t.allDeclarations f = (t.declarationsIn f).flatMap t.preorder ∧
    (∀ i d, t.decl? i = some d →
      t.preorder i = i :: if d.asClass.isSome then d.members.flatMap t.preorder else []) ∧
    (t.allDeclarations f).Nodup ∧
    (∀ i, i ∈ t.allDeclarations f ↔ ListedIn t f i) ∧
    (∀ g, f ≠ g → (t.allDeclarations f).Disjoint (t.allDeclarations g)) ∧
    t.rootDeclarations.Nodup ∧
    List.Forall₂ (fun i e => t.element? .full i = some e) t.rootDeclarations t.rootElements := by
  have harena := h.arena
  refine ⟨fun fuel hfuel => ?_, harena.allDeclarations_eq f, fun i d hd => harena.preorder_eq hd,
    harena.nodup_allDeclarations f, fun i => harena.mem_allDeclarations_iff,
    fun g hfg => harena.disjoint_allDeclarations hfg, harena.nodup_rootDeclarations, ?_⟩
  · have hlength := harena.length_preorders_le f
    rw [harena.allDeclarations_eq]
    exact Checked.flatten_eq harena.forest fuel [] _ harena.lt_of_mem_declarationsIn (by omega)
  · exact forall₂_elements harena.lt_of_mem_rootDeclarations

/-- In the table `tree` the class is listed with its interface and its function, and neither
its type parameter nor the class inside the function is. -/
theorem allDeclarations_inOrder_tree : Reachable tree ∧
    Checked.flatten tree 21 [] [14] = .ok [14, 16, 17] ∧
    [14].flatMap tree.preorder = [14, 16, 17] ∧
    ListedIn tree 0 16 ∧ ¬ ListedIn tree 0 15 ∧ ¬ ListedIn tree 0 18 ∧
    tree.rootElements.length = 3 := by
  have hall : tree.allDeclarations 0 = [14, 16, 17] := by decide +kernel
  have htop : tree.declarationsIn 0 = [14] := by decide +kernel
  have hroots : tree.rootDeclarations = [14, 16, 17] := by decide +kernel
  obtain ⟨hends, hlisted, -, -, hmem, -, -, helements⟩ := allDeclarations_inOrder reachable_tree 0
  have hloop := hends 21 (by decide +kernel)
  rw [htop, hall] at hlisted hloop
  simp only [hall] at hmem
  rw [hroots] at helements
  have hparameter : ¬ ListedIn tree 0 15 := mt (hmem 15).mpr (by decide)
  have hlocal : ¬ ListedIn tree 0 18 := mt (hmem 18).mpr (by decide)
  exact ⟨reachable_tree, hloop, hlisted.symm, (hmem 16).mp (by decide), hparameter, hlocal,
    helements.length_eq.symm⟩

end SymbolTable
end SymbolGraph
