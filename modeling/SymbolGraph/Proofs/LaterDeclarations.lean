/-
# Later declarations leave earlier elements as they are

References are looked up when a declaration is converted, so a declaration that comes
later may change what an earlier one is converted to: a reference may name it, or hold
the handle it gets. If nothing written in the table does, the earlier declarations keep
their elements at every depth (`PlacedOnFile.readsAlike`). A name that is taken
does no harm even where it is mentioned, because the index keeps its first answer.

The new declaration stands at the top level of a file, so it is entered in the list of
the file and in no declaration, and a conversion reads only the names of a file. The
rest is that a conversion looks up what is mentioned and nothing else
(`ReadsAlike.element?_eq`). A new file does no harm at all, so any number of such
declarations does none, with files in between (`elements_stay_run`), and a single one
does none as a run of one change (`elements_stay_declare`).

Key definitions: `NotAwaited`, `Harmless`, `HarmlessRun`.
Key theorems: `Harmless.readsAlike`, `elements_stay_run`, `elements_stay_declare`.
-/
import SymbolGraph.Proofs.Mentioned

namespace SymbolGraph
namespace SymbolTable

open QualifiedName (qualify)

variable {t t' : SymbolTable}

/-- Nothing written in the table waits for the next declaration to be one of this name: the
name is taken or not mentioned, and the next handle is not mentioned. -/
structure NotAwaited (t : SymbolTable) (name : String) : Prop where
  name : (t.lookup? name).isSome ∨ .named name ∉ t.mentioned
  handle : .decl t.size ∉ t.mentioned

/-! ### One declaration more -/

namespace PlacedOnFile

variable {f : FileId} {file : SourceFile} {d : Draft}

/-- The list of a file grows; its names stay. -/
theorem fileRef?_eq (h : PlacedOnFile t t' f file d) (e : Declaration) :
    t'.fileRef? e = t.fileRef? e := by
  unfold fileRef?
  cases hg : e.file with
  | none => rfl
  | some g =>
    rw [Option.bind_some, Option.bind_some, h.files g]
    by_cases hgf : g = f
    · subst hgf
      rw [if_pos rfl, h.found]
      rfl
    · rw [if_neg hgf]

/-- What is mentioned points where it pointed before, if it did not wait for the new
declaration. -/
theorem answersAlike (h : PlacedOnFile t t' f file d)
    (ha : t.NotAwaited (qualify file.packageName d.name)) : AnswersAlike t t' t.mentioned := by
  intro x hx
  cases x with
  | named name =>
    have hlookup : t'.lookup? name = (t.lookup? name).or
        (if some (qualify file.packageName d.name) = some name then some t.size else none) :=
      h.adds.lookup? name
    show t'.lookup? name = t.lookup? name
    rw [hlookup]
    by_cases hname : qualify file.packageName d.name = name
    · subst hname
      obtain ⟨i, hi⟩ := Option.isSome_iff_exists.mp (ha.name.resolve_right fun hn => hn hx)
      rw [hi, Option.some_or]
    · rw [if_neg fun heq => hname (Option.some.inj heq), Option.or_none]
  | decl i =>
    have hne : i ≠ t.size := fun heq => ha.handle (heq ▸ hx)
    have hlt : i < t'.size ↔ i < t.size := by
      rw [h.size, Nat.lt_succ_iff_lt_or_eq, or_iff_left hne]
    show (if i < t'.size then some i else none) = if i < t.size then some i else none
    simp only [hlt]

theorem readsAlike (h : PlacedOnFile t t' f file d) (hc : Closed t)
    (ha : t.NotAwaited (qualify file.packageName d.name)) : ReadsAlike t t' where
  closed := hc
  decl _ hi := h.decl_old hi
  fileRef _ e _ := h.fileRef?_eq e
  answers := h.answersAlike ha

end PlacedOnFile

/-! ### Any number of declarations and files -/

/-- The file of a declaration is in the table: that of a top-level declaration by itself,
that of another because its owner's is. -/
theorem Arena.exists_file (h : Arena t) {f : FileId} : ∀ (i : DeclId) (d : Declaration),
    t.decl? i = some d → d.file = some f → ∃ file, t.file? f = some file := by
  intro i
  induction i using Nat.strongRecOn with
  | ind i ih =>
    intro d hd hf
    cases hp : d.parent with
    | none =>
      rcases h.rooted i d hd hp with ⟨hnone, -⟩ | ⟨g, file, hg, hfile, -⟩
      · exact absurd (hf.symm.trans hnone) (by simp)
      · obtain rfl : f = g := Option.some.inj (hf.symm.trans hg)
        exact ⟨file, hfile⟩
    | some p =>
      obtain ⟨hlt, o, ho, hfile, -⟩ := h.nested i d p hd hp
      exact ih p hlt o ho (hfile ▸ hf)

/-- A new file is read by no conversion. -/
theorem Reachable.readsAlike_addFile (h : Reachable t) (path package : String) :
    ReadsAlike t (t.addFile path package) where
  closed := h.closed
  decl _ _ := rfl
  fileRef i d hd := by
    unfold fileRef?
    cases hf : d.file with
    | none => rfl
    | some f =>
      obtain ⟨file, hfile⟩ := h.arena.exists_file i d hd hf
      rw [Option.bind_some, Option.bind_some, hfile, file?_addFile_of_some path package hfile]
  answers _ _ := rfl

/-- A change after which all elements are as they were: a file, or a declaration on a file
that nothing waits for. -/
def Harmless (t : SymbolTable) : Change → Prop
  | .addFile _ _ => True
  | .declare (.file f) d =>
    ∀ file, t.file? f = some file → t.NotAwaited (qualify file.packageName d.name)
  | .declare (.inside _) _ => False

/-- Each change is harmless to the table it comes to. -/
def HarmlessRun (t : SymbolTable) : List Change → Prop
  | [] => True
  | c :: cs => t.Harmless c ∧ (t.change c).HarmlessRun cs

/-- A harmless change that is refused leaves the table as it is. -/
theorem Harmless.readsAlike (h : Reachable t) {c : Change} (hc : t.Harmless c) :
    t.change c = t ∨ ReadsAlike t (t.change c) := by
  cases c with
  | addFile path package => exact Or.inr (h.readsAlike_addFile path package)
  | declare place d =>
    cases place with
    | inside p => exact hc.elim
    | file f =>
      simp only [change]
      cases hd : t.declare? (.file f) d with
      | none => exact Or.inl rfl
      | some t' =>
        obtain ⟨file, hplaced⟩ := placedOnFile hd
        exact Or.inr (hplaced.readsAlike h.closed (hc file hplaced.found))

/-- **Harmless changes, however many, leave all elements as they are.** -/
theorem elements_stay_run (h : Reachable t) {cs : List Change} (hcs : t.HarmlessRun cs) {i : DeclId}
    (hi : i < t.size) (depth : Depth) : (t.run cs).element? depth i = t.element? depth i := by
  induction cs generalizing t with
  | nil => rfl
  | cons c cs ih =>
    obtain ⟨hc, hrest⟩ := hcs
    have hreach : Reachable (t.change c) := h.run [c]
    show ((t.change c).run cs).element? depth i = t.element? depth i
    rcases hc.readsAlike h with hrefused | halike
    · rw [hrefused] at hrest ⊢
      exact ih h hrest hi
    · rw [ih hreach hrest (Nat.lt_of_lt_of_le hi halike.size_le), halike.element?_eq depth hi]

/-- **A later declaration that nothing waits for leaves all elements as they are.** It may be
of any kind, and what it refers to itself does not matter. -/
theorem elements_stay_declare (h : Reachable t) {f : FileId} {file : SourceFile}
    (hfile : t.file? f = some file) (d : Draft)
    (hname : (t.lookup? (qualify file.packageName d.name)).isSome ∨
      Target.named (qualify file.packageName d.name) ∉ t.mentioned)
    (hhandle : Target.decl t.size ∉ t.mentioned) :
    ∃ t', t.declare? (.file f) d = some t' ∧
      ∀ i < t.size, ∀ depth, ∃ e, t.element? depth i = some e ∧ t'.element? depth i = some e := by
  obtain ⟨t', ht'⟩ : ∃ t', t.declare? (.file f) d = some t' := by
    rw [← Option.isSome_iff_exists, declare?_isSome_iff, hasPlace, decide_eq_true_eq]
    exact (Array.getElem?_eq_some_iff.mp hfile).1
  have hrun : t.run [.declare (.file f) d] = t' := by
    show (t.declare? (.file f) d).getD t = t'
    rw [ht', Option.getD_some]
  have hharmless : t.HarmlessRun [.declare (.file f) d] := by
    refine ⟨fun file' hfile' => ?_, trivial⟩
    obtain rfl : file = file' := Option.some.inj (hfile.symm.trans hfile')
    exact ⟨hname, hhandle⟩
  refine ⟨t', ht', fun i hi depth => ?_⟩
  obtain ⟨_, hd⟩ := decl?_of_lt hi
  obtain ⟨e, he, -⟩ := exists_element? depth hd
  have hstay : t'.element? depth i = t.element? depth i :=
    hrun ▸ elements_stay_run h hharmless hi depth
  exact ⟨e, he, hstay.trans he⟩

/-- The table `tree` mentions `graph.Tree`, and a second declaration of that name changes
nothing about the first. -/
theorem elements_stay_declare_tree : Target.named "graph.Tree" ∈ tree.mentioned ∧
    ∃ t', tree.declare? (.file 0) (Draft.function "Tree" [] (some (.named "graph.Leaf"))) =
        some t' ∧
      ∃ e, tree.element? .full 14 = some e ∧ t'.element? .full 14 = some e := by
  have hfile : tree.file? 0 = some ⟨"Tree.kt", "src/Tree.kt", "graph", [14]⟩ := by decide +kernel
  have hsize : 14 < tree.size := by decide +kernel
  obtain ⟨t', ht', helements⟩ := elements_stay_declare reachable_tree hfile
    (Draft.function "Tree" [] (some (.named "graph.Leaf"))) (Or.inl (by decide +kernel))
    (by decide +kernel)
  exact ⟨by decide +kernel, t', ht', helements 14 hsize .full⟩

end SymbolTable
end SymbolGraph
