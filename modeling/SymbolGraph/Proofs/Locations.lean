/-
# Where a message points

An element leads back to its file in two ways. It knows the file it was converted with,
which is the file of its declaration, and that is what `containingFile?` answers. A
message about it goes another way: it looks the qualified name up, and so it points at
the declaration that took the name first (`location_of_message`). The two ways agree
where the name has not been taken in another file before. Functions that share a name
need not be in one file, so a message about one of them may name the file of another
(`located_at_overload`).

Key theorems: `SymbolTable.sourceFile?_of_element?`, `SymbolTable.location_of_message`,
`SymbolTable.located_at_overload`.
-/
import SymbolGraph.Lookup
import SymbolGraph.Proofs.Converted
import SymbolGraph.Proofs.Names

namespace SymbolGraph
namespace SymbolTable

variable {t : SymbolTable}

/-! ### The way through the element -/

/-- An element knows the file of its declaration. -/
theorem sourceFile?_of_element? {depth : Depth} {id : DeclId} {d : Declaration} {e : Element}
    (hd : t.decl? id = some d) (he : t.element? depth id = some e) :
    e.sourceFile? = t.fileRef? d := by
  obtain ⟨h, hh, hheaded⟩ := header?_of_element? hd he
  rw [Element.sourceFile?, hh, Option.bind_some, hheaded]
  rfl

theorem qualifiedName?_of_element? {depth : Depth} {id : DeclId} {d : Declaration} {e : Element}
    (hd : t.decl? id = some d) (he : t.element? depth id = some e) :
    e.qualifiedName? = d.qualifiedName := by
  obtain ⟨h, hh, hheaded⟩ := header?_of_element? hd he
  have hname : h.qualifiedName = d.qualifiedName := by
    rw [hheaded]
    rfl
  cases e with
  | stub s => exact absurd hh (by simp [Element.header?])
  | _ => rw [← hname, ← Option.some.inj hh]; rfl

theorem fileRef?_of_fileOf? {id : DeclId} {d : Declaration} {f : SourceFile}
    (hd : t.decl? id = some d) (hf : t.fileOf? id = some f) : t.fileRef? d = some f.ref := by
  have hfile : d.file.bind t.file? = some f := by
    rw [fileOf?, fileIdOf?, hd, Option.bind_some] at hf
    exact hf
  rw [fileRef?, hfile, Option.map_some]

/-- What is known of an element's file comes before a search by name. -/
theorem containingFile?_of_sourceFile? {e : Element} {file : FileRef}
    (h : e.sourceFile? = some file) : t.containingFile? e = some file := by
  rw [containingFile?, h]

/-! ### The way through the index -/

/-- An element is located at the first declaration of its name, and has no location
exactly if it has no name. -/
theorem locate?_eq (h : IndexSearches t) {id : DeclId} {d : Declaration} {e : Element}
    (hd : t.decl? id = some d) (hname : e.qualifiedName? = d.qualifiedName) :
    (t.locate? e = none ↔ d.qualifiedName = none) ∧
      ∀ l, t.locate? e = some l → d.qualifiedName = some l.symbol ∧
        ∃ j, FirstNamed t l.symbol j ∧ l.file = (t.fileOf? j).map SourceFile.filePath := by
  unfold locate?
  rw [hname]
  cases hq : d.qualifiedName with
  | none => simp
  | some q =>
    have hself : t.qualifiedName? id = some q := by
      rw [qualifiedName?, hd, Option.bind_some, hq]
    obtain ⟨j, hj⟩ : ∃ j, t.lookup? q = some j := by
      rw [← Option.ne_none_iff_exists']
      exact fun hnone => (h.lookup?_eq_none_iff q).mp hnone id hself
    simp only [hj]
    refine ⟨by simp, fun l hl => ?_⟩
    obtain rfl := Option.some.inj hl
    exact ⟨rfl, j, (h.lookup?_eq_some_iff q j).mp hj, rfl⟩

/-- The first declaration of a name is the declaration itself or one before it. -/
theorem FirstNamed.le {q : String} {i j : DeclId} (h : FirstNamed t q j)
    (hi : t.qualifiedName? i = some q) : j ≤ i :=
  Nat.le_of_not_lt fun hlt => h.2 i hlt hi

/-! ### The two ways together -/

/-- **An element knows the file of its declaration, and a message about it names the file of
the first declaration of its name**: of its own, where the name was not taken in another
file before. A message about an element without a name has no location. -/
theorem location_of_message (h : Reachable t) {id : DeclId} {d : Declaration} {f : SourceFile}
    (hd : t.decl? id = some d) (hf : t.fileOf? id = some f) (depth : Depth)
    (collected : Collected) (severity : Severity) (text : String) :
    ∃ e m, t.element? depth id = some e ∧ e.sourceFile? = some f.ref ∧
      t.containingFile? e = some f.ref ∧
      t.log collected severity text (some e) = collected ++ [m] ∧ m.severity = severity ∧
      m.message = text ∧ (m.location = none ↔ d.qualifiedName = none) ∧
      ∀ l, m.location = some l → d.qualifiedName = some l.symbol ∧
        (∃ j, FirstNamed t l.symbol j ∧ l.file = (t.fileOf? j).map SourceFile.filePath) ∧
        ((∀ j, j < id → t.qualifiedName? j = some l.symbol →
          (t.fileOf? j).map SourceFile.filePath = some f.filePath) → l.file = some f.filePath) := by
  obtain ⟨e, he, -⟩ := exists_element? depth hd
  have hsource : e.sourceFile? = some f.ref :=
    (sourceFile?_of_element? hd he).trans (fileRef?_of_fileOf? hd hf)
  have hlocate := locate?_eq h.lookup?_eq_find? hd (qualifiedName?_of_element? hd he)
  refine ⟨e, t.message severity text (some e), he, hsource,
    containingFile?_of_sourceFile? hsource, rfl, rfl, rfl, hlocate.1, fun l hl => ?_⟩
  obtain ⟨hname, j, hfirst, hfile⟩ := hlocate.2 l hl
  have hself : t.qualifiedName? id = some l.symbol := by
    rw [qualifiedName?, hd, Option.bind_some, hname]
  refine ⟨hname, ⟨j, hfirst, hfile⟩, fun hbefore => ?_⟩
  rw [hfile]
  rcases Nat.lt_or_eq_of_le (hfirst.le hself) with hlt | rfl
  · exact hbefore j hlt hfirst.1
  · rw [hf, Option.map_some]

/-- In the table `tree` nothing else is called `graph.Tree.walk`, so a message about that
method points at its file. -/
theorem location_of_message_tree : ∃ f e m, tree.fileOf? 17 = some f ∧
    tree.element? .full 17 = some e ∧ tree.containingFile? e = some f.ref ∧
    tree.log [] .warning "never called" (some e) = [m] ∧
    m.location = some ⟨some f.filePath, "graph.Tree.walk"⟩ := by
  obtain ⟨d, hd⟩ : ∃ d, tree.decl? 17 = some d := decl?_of_lt (by decide +kernel)
  obtain ⟨f, hf⟩ : ∃ f, tree.fileOf? 17 = some f :=
    Option.isSome_iff_exists.mp (by decide +kernel)
  have hname : d.qualifiedName = some "graph.Tree.walk" := by
    have hwalk : tree.qualifiedName? 17 = some "graph.Tree.walk" := by decide +kernel
    rwa [qualifiedName?, hd, Option.bind_some] at hwalk
  have hfirst : ∀ j, j < 17 → tree.qualifiedName? j ≠ some "graph.Tree.walk" := by
    decide +kernel
  obtain ⟨e, m, he, -, hfile, hlog, -, -, hnone, hlocation⟩ :=
    location_of_message reachable_tree hd hf .full [] .warning "never called"
  obtain ⟨l, hl⟩ : ∃ l, m.location = some l := by
    rw [← Option.ne_none_iff_exists', ne_eq, hnone, hname]
    simp
  obtain ⟨hsymbol, -, hown⟩ := hlocation l hl
  have hcalled : l.symbol = "graph.Tree.walk" := Option.some.inj (hsymbol.symm.trans hname)
  have hplace : l.file = some f.filePath :=
    hown fun j hj hq => absurd hq (hcalled ▸ hfirst j hj)
  refine ⟨f, e, m, hf, he, hfile, hlog, ?_⟩
  rw [hl, ← hplace, ← hcalled]

/-! ### Overloads in two files -/

/-- The changes that make the table `overloads`. -/
def overloadsChanges : List Change :=
  [.addFile "src/A.kt" "app",
   .addFile "src/B.kt" "app",
   .declare (.file 0) (.function "run" [] none),
   .declare (.file 1) (.function "run" [{ name := "n", type := .named "kotlin.Int" }] none)]

/-- Two files of one package with a function of the same name in each. -/
def overloads : SymbolTable := builtin.run overloadsChanges

theorem reachable_overloads : Reachable overloads := ⟨overloadsChanges, rfl⟩

/-- **A message can name the wrong file**: the second function stands in `src/B.kt`, its
element knows so, and a message about it points to `src/A.kt`. -/
theorem located_at_overload : Reachable overloads ∧
    (overloads.fileOf? 15).map SourceFile.filePath = some "src/B.kt" ∧
    ((overloads.element? .full 15).bind overloads.containingFile?).map FileRef.filePath =
      some "src/B.kt" ∧
    (overloads.element? .full 15).map
        (fun e => (overloads.log [] .error "broken" (some e)).map Diagnostic.text) =
      some ["error: broken (app.run in src/A.kt)"] := by
  refine ⟨reachable_overloads, ?_, ?_, ?_⟩ <;> decide +kernel

end SymbolTable
end SymbolGraph
