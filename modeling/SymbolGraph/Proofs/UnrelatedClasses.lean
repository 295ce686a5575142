/-
# Classes that are taken for each other

Assignability compares names, so it tells two classes apart as far as names do. A
class goes by its qualified name, or by its simple name if it has none
(`Declaration.knownAs`). If one class, in a function or not, can be stored as another,
the other stands above it, or the first or something above it goes by the name of the
other (`above_of_answersTo`). So unrelated classes are mixed up only where a name has a
second declaration. Where two files declare a class under one qualified name, the two
are one class to assignability (`redeclared_clock`).

If the class that is expected has a qualified name, this can be said both ways: another
can be stored as it exactly if the other, or something above the other, bears that name
(`isAssignableTo_named_iff`). A class in a function is compared by its simple name, so
nothing is said here of one whose simple name is the name that is expected.

Key definitions: `Declaration.knownAs`.
Key theorems: `Primitive.unwrap_eq_iff`, `SymbolTable.above_of_answersTo`,
`SymbolTable.isAssignableTo_named_iff`, `SymbolTable.isAssignableTo_by_name`,
`SymbolTable.redeclared_clock`.
-/
import SymbolGraph.Proofs.OwnSupertypes

namespace SymbolGraph

open Primitive (unwrap)

/-- A name that is neither a wrapper's nor a primitive's comes from itself only. -/
theorem Primitive.unwrap_eq_iff {name target : String} (hwrapper : ofWrapper? target = none)
    (hprimitive : ofName? target = none) : unwrap name = target ↔ name = target := by
  constructor
  · intro h
    unfold unwrap at h
    cases hp : ofWrapper? name with
    | none => simpa [hp] using h
    | some p =>
      have hname : p.name = target := by simpa [hp] using h
      rw [← hname, ofName?_name] at hprimitive
      exact absurd hprimitive (by simp)
  · rintro rfl
    rw [unwrap, hwrapper]

theorem Declaration.typeKindOfClass_of_declared {d : Declaration} (h : d.typeKind = .declared) :
    typeKindOfClass d.qualifiedName = .declared := by
  obtain ⟨c, hc⟩ := exists_asClass_of_typeKind h
  rw [typeKind, Draft.asClass_eq_some_iff.mp hc] at h
  exact h

/-- The name that the type of a class goes by: the qualified name, or else the simple one. -/
def Declaration.knownAs (d : Declaration) : String := d.qualifiedName.getD d.name

/-- No class that is a declared type bears the name of a primitive. -/
theorem Declaration.ofName?_of_declared {name : String}
    (h : typeKindOfClass (some name) = .declared) : Primitive.ofName? name = none := by
  unfold typeKindOfClass at h
  grind

namespace SymbolTable

variable {t : SymbolTable}

/-- A class answers to a name that is no wrapper's exactly if it bears it, by its simple name if
it has no other, or carries it. -/
theorem answersTo_iff {id : DeclId} {d : Declaration} {name : String} (hany : name ≠ Builtin.any)
    (hwrapper : Primitive.ofWrapper? name = none) (hprimitive : Primitive.ofName? name = none) :
    t.AnswersTo id d name ↔
      d.qualifiedName.getD d.name = name ∨ name ∈ t.supertypeClosure id := by
  have hself : unwrap name = name := (Primitive.unwrap_eq_iff hwrapper hprimitive).mpr rfl
  unfold AnswersTo
  rw [hself, or_iff_right hany, Primitive.unwrap_eq_iff hwrapper hprimitive]
  simp only [Primitive.unwrap_eq_iff hwrapper hprimitive, exists_eq_right]

/-- A name is the class's own or one above it exactly if the class, or something above it, is
declared under the name. -/
theorem bears_or_above_iff (h : Closed t) {id : DeclId} {d : Declaration} (hd : t.decl? id = some d)
    {name : String} : d.qualifiedName = some name ∨ name ∈ t.supertypeClosure id ↔
      ∃ j, (j = id ∨ t.Above id j) ∧ t.qualifiedName? j = some name := by
  have hown : t.qualifiedName? id = d.qualifiedName := by
    rw [qualifiedName?, hd, Option.bind_some]
  rw [mem_supertypeClosure_iff h (lt_size_of_decl? hd), ← hown]
  constructor
  · rintro (hname | ⟨j, -, habove, hname⟩)
    · exact ⟨id, Or.inl rfl, hname⟩
    · exact ⟨j, Or.inr habove, hname⟩
  · rintro ⟨j, hj, hname⟩
    by_cases hself : j = id
    · exact Or.inl (hself ▸ hname)
    · exact Or.inr ⟨j, hself, hj.resolve_left hself, hname⟩

/-- Steps up from some declarations that do not lead away from these stay among them. -/
theorem Above.mem_of_steps {ids : List DeclId} (h : ∀ i ∈ ids, ∀ j ∈ t.superDecls i, j ∈ ids)
    {a b : DeclId} (ha : a ∈ ids) (habove : t.Above a b) : b ∈ ids := by
  induction habove with
  | single hstep => exact h a ha _ (mem_superDecls_iff.mpr hstep)
  | tail _ hstep ih => exact h _ ih _ (mem_superDecls_iff.mpr hstep)

/-- A class stands above every class that answers to its name, if no other that the name could be
taken from goes by it: neither the class that answers, nor anything else above that. -/
theorem above_of_answersTo (h : Closed t) {a b : DeclId} {da db : Declaration}
    (ha : t.decl? a = some da) (hne : a ≠ b) (htop : db.knownAs ≠ Builtin.any)
    (honly : ∀ j d, (j = a ∨ t.Above a j) → t.decl? j = some d →
      unwrap d.knownAs = unwrap db.knownAs → j = b)
    (hanswers : t.AnswersTo a da db.knownAs) : t.Above a b := by
  rcases hanswers with hany | hown | ⟨n, hn, heq⟩
  · have hname : db.knownAs = Builtin.any :=
      (Primitive.unwrap_eq_iff (by decide) (by decide)).mp hany
    exact absurd hname htop
  · exact absurd (honly a da (Or.inl rfl) ha hown) hne
  · obtain ⟨j, -, habove, hname⟩ := (mem_supertypeClosure_iff h (lt_size_of_decl? ha) n).mp hn
    obtain ⟨d, hd, hq⟩ := Option.bind_eq_some_iff.mp hname
    have hknown : d.knownAs = n := by rw [Declaration.knownAs, hq, Option.getD_some]
    obtain rfl := honly j d (Or.inr habove) hd (hknown ▸ heq)
    exact habove

/-- A class can be stored as a class with a qualified name exactly if it, or something above it,
bears that name. -/
theorem isAssignableTo_named_iff (h : Closed t) {a b : DeclId} {da db : Declaration}
    {name : String} (ha : t.decl? a = some da) (hb : t.decl? b = some db)
    (hka : da.typeKind = .declared) (hkb : db.typeKind = .declared)
    (hname : db.qualifiedName = some name) (hany : name ≠ Builtin.any)
    (hwrapper : Primitive.ofWrapper? name = none)
    (htext : da.qualifiedName = none → da.name ≠ name) (depth depth' : Depth) :
    (t.typeOf depth (.decl a)).isAssignableTo (t.typeOf depth' (.decl b)) = true ↔
      ∃ j, (j = a ∨ t.Above a j) ∧ t.qualifiedName? j = some name := by
  have hprimitive : Primitive.ofName? name = none :=
    Declaration.ofName?_of_declared (hname ▸ Declaration.typeKindOfClass_of_declared hkb)
  have hexpected := typeOf_decl_ofClass hb hkb depth'
  have hbears : da.qualifiedName.getD da.name = name ↔ da.qualifiedName = some name := by
    cases hq : da.qualifiedName with
    | none => simpa [hq] using htext
    | some n => simp
  rw [isAssignableTo_known_iff ha hka depth hexpected.known, hexpected.erasedName, hname,
    Option.getD_some, answersTo_iff hany hwrapper hprimitive, hbears, bears_or_above_iff h ha]

/-- **Classes are related by assignability only as far as names go.** If a class, named or local,
can be stored as another, the other stands above it, unless a second declaration goes by its name,
up to wrappers: the first class itself, or something above that. A class can be stored as one with
a qualified name exactly if it, or something above it, bears that name, at all depths; if no second
declaration bears it, exactly if the class that is expected stands above. Left open is what a class
without a qualified name can be stored as, if its simple name is the name that is expected. -/
theorem isAssignableTo_by_name (h : Reachable t) {a b : DeclId} {da db : Declaration}
    (ha : t.decl? a = some da) (hb : t.decl? b = some db)
    (hka : da.typeKind = .declared) (hkb : db.typeKind = .declared) (hne : a ≠ b)
    (htop : db.knownAs ≠ Builtin.any) (depth depth' : Depth) :
    ((∀ j d, (j = a ∨ t.Above a j) → t.decl? j = some d →
        unwrap d.knownAs = unwrap db.knownAs → j = b) →
      (t.typeOf depth (.decl a)).isAssignableTo (t.typeOf depth' (.decl b)) = true →
        t.Above a b) ∧
    ∀ name, db.qualifiedName = some name → Primitive.ofWrapper? name = none →
      (da.qualifiedName = none → da.name ≠ name) →
      ((t.typeOf depth (.decl a)).isAssignableTo (t.typeOf depth' (.decl b)) = true ↔
        ∃ j, (j = a ∨ t.Above a j) ∧ t.qualifiedName? j = some name) ∧
      ((∀ j, t.qualifiedName? j = some name → j = b) →
        ((t.typeOf depth (.decl a)).isAssignableTo (t.typeOf depth' (.decl b)) = true ↔
          t.Above a b)) := by
  constructor
  · intro honly hstored
    have hexpected := typeOf_decl_ofClass hb hkb depth'
    rw [isAssignableTo_known_iff ha hka depth hexpected.known, hexpected.erasedName] at hstored
    exact above_of_answersTo h.closed ha hne htop honly hstored
  · intro name hname hwrapper htext
    have hany : name ≠ Builtin.any := by
      rwa [Declaration.knownAs, hname, Option.getD_some] at htop
    have hnamed := isAssignableTo_named_iff h.closed ha hb hka hkb hname hany hwrapper htext depth
      depth'
    refine ⟨hnamed, fun honly => hnamed.trans ?_⟩
    constructor
    · rintro ⟨j, hj, hbears⟩
      obtain rfl := honly j hbears
      exact hj.resolve_left fun heq => hne heq.symm
    · intro habove
      exact ⟨b, Or.inr habove, by rw [qualifiedName?, hb, Option.bind_some, hname]⟩

/-- In the table `tree` the name of the nested interface is its own only, and it stands above the
class, which can be stored as it. The class in the function goes by a name of its own too, and
stands above nothing, so the class `graph.Tree` cannot be stored as it. -/
theorem isAssignableTo_by_name_tree :
    (∀ j, tree.qualifiedName? j = some "graph.Tree.Node" → j = 16) ∧ tree.Above 14 16 ∧
      (∃ d ∈ tree.decl? 18, d.qualifiedName = none ∧ d.name = "Step") ∧ ¬ tree.Above 14 18 ∧
      ∀ depth depth',
        (tree.typeOf depth (.decl 14)).isAssignableTo (tree.typeOf depth' (.decl 16)) = true ∧
        (tree.typeOf depth (.decl 14)).isAssignableTo (tree.typeOf depth' (.decl 18)) = false := by
  have hgiven : ∃ d ∈ tree.decl? 14, d.typeKind = .declared ∧ d.qualifiedName.isSome := by
    decide +kernel
  have hexpected : ∃ d ∈ tree.decl? 16, d.typeKind = .declared ∧
      d.qualifiedName = some "graph.Tree.Node" := by
    decide +kernel
  have hlocal : ∃ d ∈ tree.decl? 18, d.typeKind = .declared ∧ d.qualifiedName = none ∧
      d.name = "Step" := by
    decide +kernel
  obtain ⟨da, ha, hka, hnamed⟩ := hgiven
  obtain ⟨db, hb, hkb, hname⟩ := hexpected
  obtain ⟨dc, hc, hkc, hnone, hstep⟩ := hlocal
  have hknown : db.knownAs = "graph.Tree.Node" := by rw [Declaration.knownAs, hname]; rfl
  have hknown' : dc.knownAs = "Step" := by rw [Declaration.knownAs, hnone, hstep]; rfl
  have honly : ∀ j, tree.qualifiedName? j = some "graph.Tree.Node" → j = 16 := by
    decide +kernel
  have honly' : ∀ j d, (j = 14 ∨ tree.Above 14 j) → tree.decl? j = some d →
      unwrap d.knownAs = unwrap dc.knownAs → j = 18 := by
    have hall : ∀ j < tree.size, ∀ d ∈ tree.decl? j, unwrap d.knownAs = unwrap "Step" → j = 18 := by
      decide +kernel
    intro j d _ hd heq
    exact hall j (lt_size_of_decl? hd) d hd (hknown' ▸ heq)
  have hup : tree.Above 14 16 := .single (mem_superDecls_iff.mp (by decide +kernel))
  have hapart : ¬ tree.Above 14 18 := by
    have hcircle : ∀ i ∈ [14, 16], ∀ j ∈ tree.superDecls i, j ∈ [14, 16] := by decide +kernel
    exact fun habove => absurd (habove.mem_of_steps hcircle (by decide)) (by decide)
  refine ⟨honly, hup, ⟨dc, hc, hnone, hstep⟩, hapart, fun depth depth' => ⟨?_, ?_⟩⟩
  · obtain ⟨-, hiff⟩ := (isAssignableTo_by_name reachable_tree ha hb hka hkb (by decide)
      (hknown ▸ by decide) depth depth').2 _ hname (by decide)
      fun hnone' => absurd hnamed (by simp [hnone'])
    exact (hiff honly).mpr hup
  · obtain ⟨hsound, -⟩ := isAssignableTo_by_name reachable_tree ha hc hka hkc (by decide)
      (hknown' ▸ by decide) depth depth'
    exact eq_false_of_ne_true fun hstored => hapart (hsound honly' hstored)

/-! ### Two classes of one name -/

/-- The changes that make the table `clocks`. -/
def clocksChanges : List Change :=
  [.addFile "src/jvm/Clock.kt" "time",
   .addFile "src/native/Clock.kt" "time",
   .declare (.file 0) (Draft.classLike "Clock" .classType),
   .declare (.file 1) (Draft.classLike "Clock" .classType)]

/-- Two files that each declare a class of the same name in the same package. -/
def clocks : SymbolTable := builtin.run clocksChanges

theorem reachable_clocks : Reachable clocks := ⟨clocksChanges, rfl⟩

/-- **Two classes declared under one qualified name are one to assignability**: the second can be
stored where the first is expected and the other way round, and neither stands above the other. -/
theorem redeclared_clock : Reachable clocks ∧
    (∀ id ∈ [14, 15], (clocks.decl? id).map Declaration.typeKind = some .declared ∧
      clocks.qualifiedName? id = some "time.Clock") ∧
    (∀ depth depth',
      (clocks.typeOf depth (.decl 14)).isAssignableTo (clocks.typeOf depth' (.decl 15)) = true ∧
      (clocks.typeOf depth (.decl 15)).isAssignableTo (clocks.typeOf depth' (.decl 14)) = true) ∧
    ¬ clocks.Above 14 15 ∧ ¬ clocks.Above 15 14 := by
  have hfirst : ∀ i ∈ [14], ∀ j ∈ clocks.superDecls i, j ∈ [14] := by decide +kernel
  have hsecond : ∀ i ∈ [15], ∀ j ∈ clocks.superDecls i, j ∈ [15] := by decide +kernel
  refine ⟨reachable_clocks, by decide +kernel, fun depth depth' => ?_,
    fun habove => absurd (habove.mem_of_steps hfirst (by decide)) (by decide),
    fun habove => absurd (habove.mem_of_steps hsecond (by decide)) (by decide)⟩
  cases depth <;> cases depth' <;> decide +kernel

end SymbolTable
end SymbolGraph
