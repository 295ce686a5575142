/-
# What stands above a class

The supertypes of a class are references, and one that points at something leads
one step up (`StepUp`). From a class the climb goes on, from anything else it does
not. What some steps lead to stands above (`Above`). Nothing keeps a class from
standing above itself.

The names above a declaration come from a breadth-first walk. What one visit keeps
is said once (`Walk.Underway`): no node is met twice, none lies outside the graph,
and what follows a visited node has been met. With fuel for every node the walk
stops only when nothing waits, and then the nodes it met are exactly those that its
steps lead to (`Walk.mem_breadthFirst_iff`). The walk up from a declaration meets
that declaration first and never again, so the names found are those of what stands
above it, its own apart (`mem_supertypeClosure_iff`).

Key definitions: `Walk.LeadsTo`, `Walk.Underway`, `SymbolTable.StepUp`,
`SymbolTable.Above`.
Key theorems: `Walk.Underway.breadthFirst`, `Walk.mem_breadthFirst_iff`,
`SymbolTable.mem_supertypeOrder_iff`, `SymbolTable.mem_supertypeClosure_iff`.
-/
import SymbolGraph.Proofs.Readings

namespace SymbolGraph

/-! ### Breadth-first walks -/

namespace Walk

variable {α : Type} {next : α → List α}

/-- Some steps, or none, lead from one node to another. -/
def LeadsTo (next : α → List α) : α → α → Prop := Relation.ReflTransGen fun x y => y ∈ next x

variable {nodes visited waiting : List α} {x : α}

/-- What holds of a walk through a graph of some nodes before each visit. -/
structure Underway (next : α → List α) (nodes visited waiting : List α) : Prop where
  nodup : (visited ++ waiting).Nodup
  inside : ∀ y ∈ visited ++ waiting, y ∈ nodes
  /-- What follows a visited node has been met. -/
  followed : ∀ y ∈ visited, ∀ z ∈ next y, z ∈ visited ++ waiting

theorem visited_append (new : List α) :
    visited ++ [x] ++ (waiting ++ new) = visited ++ x :: waiting ++ new := by
  simp

/-- When as many nodes are visited as there are, none waits. -/
theorem Underway.waiting_eq_nil (h : Underway next nodes visited waiting)
    (hlength : nodes.length ≤ visited.length) : waiting = [] := by
  have hle : (visited ++ waiting).length ≤ nodes.length :=
    (List.subperm_of_subset h.nodup h.inside).length_le
  rw [List.length_append] at hle
  exact List.length_eq_zero_iff.mp (by omega)

/-- A walk begins at one node. -/
theorem Underway.start (hx : x ∈ nodes) : Underway next nodes [] [x] where
  nodup := by simp
  inside y hy := by
    rw [List.nil_append, List.mem_singleton] at hy
    exact hy ▸ hx
  followed y hy := absurd hy List.not_mem_nil

variable [DecidableEq α]

/-- The nodes that a visit meets for the first time. -/
abbrev firstMet (next : α → List α) (visited : List α) (x : α) (waiting : List α) : List α :=
  Distinct.fresh (visited ++ x :: waiting) (next x)

/-- A visit moves one node and adds what it meets. -/
theorem Underway.visit (hnodes : ∀ y ∈ nodes, ∀ z ∈ next y, z ∈ nodes)
    (h : Underway next nodes visited (x :: waiting)) :
    Underway next nodes (visited ++ [x]) (waiting ++ firstMet next visited x waiting) := by
  have hx : x ∈ nodes := h.inside x (by simp)
  refine ⟨?_, ?_, ?_⟩
  · rw [visited_append]
    refine List.nodup_append.mpr ⟨h.nodup, Distinct.nodup_fresh, fun y hy z hz hyz => ?_⟩
    exact (Distinct.mem_fresh.mp hz).2 (hyz ▸ hy)
  · rw [visited_append]
    intro y hy
    rcases List.mem_append.mp hy with hy | hy
    · exact h.inside y hy
    · exact hnodes x hx y (Distinct.mem_fresh.mp hy).1
  · rw [visited_append]
    intro y hy z hz
    rw [List.mem_append]
    rcases List.mem_append.mp hy with hy | hy
    · exact Or.inl (h.followed y hy z hz)
    · rw [List.mem_singleton] at hy
      subst hy
      by_cases hmet : z ∈ visited ++ y :: waiting
      · exact Or.inl hmet
      · exact Or.inr (Distinct.mem_fresh.mpr ⟨hz, hmet⟩)

/-- **A walk with fuel for every node ends with nothing left to visit.** -/
theorem Underway.breadthFirst (hnodes : ∀ y ∈ nodes, ∀ z ∈ next y, z ∈ nodes) :
    ∀ (fuel : Nat) (visited waiting : List α), Underway next nodes visited waiting →
      nodes.length ≤ fuel + visited.length →
      Underway next nodes (breadthFirst next fuel visited waiting) []
  | 0, visited, waiting, h, hfuel => by
    have hempty : waiting = [] := h.waiting_eq_nil (by omega)
    subst hempty
    simpa [Walk.breadthFirst] using h
  | fuel + 1, visited, [], h, _ => by
    simpa [Walk.breadthFirst] using h
  | fuel + 1, visited, x :: waiting, h, hfuel => by
    have hlength : (visited ++ [x]).length = visited.length + 1 := by simp
    exact Underway.breadthFirst hnodes fuel _ _ (h.visit hnodes) (by omega)

/-- The nodes to begin with come first. -/
theorem breadthFirst_eq_append : ∀ (fuel : Nat) (visited waiting : List α),
    ∃ rest, breadthFirst next fuel visited waiting = visited ++ waiting ++ rest
  | 0, visited, waiting => ⟨[], by simp [breadthFirst]⟩
  | fuel + 1, visited, [] => ⟨[], by simp [breadthFirst]⟩
  | fuel + 1, visited, x :: waiting => by
    obtain ⟨rest, hrest⟩ := breadthFirst_eq_append fuel (visited ++ [x])
      (waiting ++ firstMet next visited x waiting)
    refine ⟨firstMet next visited x waiting ++ rest, ?_⟩
    rw [breadthFirst, hrest, visited_append, List.append_assoc]

/-- Steps lead to every node that a walk meets. -/
theorem leadsTo_of_mem_breadthFirst : ∀ (fuel : Nat) (visited waiting : List α) (y : α),
    y ∈ breadthFirst next fuel visited waiting → ∃ x ∈ visited ++ waiting, LeadsTo next x y
  | 0, visited, waiting, y, hy => ⟨y, hy, Relation.ReflTransGen.refl⟩
  | fuel + 1, visited, [], y, hy => by
    rw [breadthFirst] at hy
    exact ⟨y, by simpa using hy, Relation.ReflTransGen.refl⟩
  | fuel + 1, visited, x :: waiting, y, hy => by
    obtain ⟨z, hz, hzy⟩ := leadsTo_of_mem_breadthFirst fuel _ _ y hy
    rw [visited_append] at hz
    rcases List.mem_append.mp hz with hz | hz
    · exact ⟨z, hz, hzy⟩
    · -- what is met for the first time follows the visited node
      have hstep : z ∈ next x := (Distinct.mem_fresh.mp hz).1
      exact ⟨x, by simp, Relation.ReflTransGen.head hstep hzy⟩

/-- **A walk meets exactly the nodes that its steps lead to.** -/
theorem mem_breadthFirst_iff (hnodes : ∀ y ∈ nodes, ∀ z ∈ next y, z ∈ nodes) (hx : x ∈ nodes)
    {fuel : Nat} (hfuel : nodes.length ≤ fuel) (y : α) :
    y ∈ breadthFirst next fuel [] [x] ↔ LeadsTo next x y := by
  have hend : Underway next nodes (breadthFirst next fuel [] [x]) [] := by
    refine Underway.breadthFirst hnodes fuel [] [x] (Underway.start hx) ?_
    rw [List.length_nil]
    omega
  constructor
  · intro hy
    obtain ⟨z, hz, hzy⟩ := leadsTo_of_mem_breadthFirst fuel [] [x] y hy
    rw [List.nil_append, List.mem_singleton] at hz
    exact hz ▸ hzy
  · intro hxy
    induction hxy with
    | refl =>
      obtain ⟨rest, hrest⟩ : ∃ rest, breadthFirst next fuel [] [x] = [] ++ [x] ++ rest :=
        breadthFirst_eq_append fuel [] [x]
      rw [hrest]
      simp
    | tail _ hstep ih => simpa using hend.followed _ ih _ hstep

end Walk

/-! ### The climb from a declaration -/

namespace SymbolTable

/-- A supertype of the class `i` points at `j`. -/
def StepUp (t : SymbolTable) (i j : DeclId) : Prop :=
  ∃ d c, t.decl? i = some d ∧ d.asClass = some c ∧ ∃ r ∈ c.superTypes, t.resolve? r = some j

/-- Some steps up lead from `i` to `j`. -/
def Above (t : SymbolTable) : DeclId → DeclId → Prop := Relation.TransGen t.StepUp

variable {t : SymbolTable}

theorem mem_superDecls_iff {i j : DeclId} : j ∈ t.superDecls i ↔ t.StepUp i j := by
  unfold superDecls StepUp
  constructor
  · intro h
    split at h
    · rename_i c hc
      obtain ⟨d, hd, hdc⟩ := Option.bind_eq_some_iff.mp hc
      exact ⟨d, c, hd, hdc, List.mem_filterMap.mp h⟩
    · exact absurd h List.not_mem_nil
  · rintro ⟨d, c, hd, hc, hr⟩
    rw [hd, Option.bind_some, hc]
    exact List.mem_filterMap.mpr hr

/-- No step up leads out of the table. -/
theorem superDecls_inside (h : Closed t) :
    ∀ i ∈ List.range t.size, ∀ j ∈ t.superDecls i, j ∈ List.range t.size :=
  fun _ _ _ hj => List.mem_range.mpr (Checked.superDecls_lt h hj)

/-- The order of a climb holds the declaration and what stands above it. -/
theorem mem_supertypeOrder_iff (h : Closed t) {i : DeclId} (hi : i < t.size) (j : DeclId) :
    j ∈ t.supertypeOrder i ↔ j = i ∨ t.Above i j := by
  have hfuel : (List.range t.size).length ≤ t.size := Nat.le_of_eq List.length_range
  have hwalk := Walk.mem_breadthFirst_iff (superDecls_inside h) (List.mem_range.mpr hi) hfuel j
  have hsteps : (fun i j => j ∈ t.superDecls i) = t.StepUp := by
    funext i j
    exact propext mem_superDecls_iff
  rw [supertypeOrder, hwalk, Walk.LeadsTo, hsteps, Relation.reflTransGen_iff_eq_or_transGen]
  rfl

/-- The climb begins with the declaration and meets nothing twice. -/
theorem supertypeOrder_eq_cons (h : Closed t) {i : DeclId} (hi : i < t.size) :
    ∃ above, t.supertypeOrder i = i :: above ∧ (i :: above).Nodup := by
  obtain ⟨above, heq⟩ : ∃ above, t.supertypeOrder i = i :: above :=
    Walk.breadthFirst_eq_append t.size [] [i]
  have hend : Walk.Underway t.superDecls (List.range t.size) (t.supertypeOrder i) [] := by
    have hstart : Walk.Underway t.superDecls (List.range t.size) [] [i] :=
      Walk.Underway.start (List.mem_range.mpr hi)
    refine Walk.Underway.breadthFirst (superDecls_inside h) t.size [] [i] hstart ?_
    rw [List.length_range, List.length_nil, Nat.add_zero]
  have hnodup := hend.nodup
  rw [List.append_nil, heq] at hnodup
  exact ⟨above, heq, hnodup⟩

/-- Behind the declaration the climb meets what stands above it, itself apart. -/
theorem exists_supertypeOrder (h : Closed t) {i : DeclId} (hi : i < t.size) :
    ∃ above, t.supertypeOrder i = i :: above ∧ (i :: above).Nodup ∧
      ∀ j, j ∈ above ↔ j ≠ i ∧ t.Above i j := by
  obtain ⟨above, horder, hnodup⟩ := supertypeOrder_eq_cons h hi
  refine ⟨above, horder, hnodup, fun j => ?_⟩
  have hj := mem_supertypeOrder_iff h hi j
  rw [horder, List.mem_cons] at hj
  have hself : i ∉ above := (List.nodup_cons.mp hnodup).1
  constructor
  · intro hmem
    have hne : j ≠ i := fun heq => hself (heq ▸ hmem)
    exact ⟨hne, (hj.mp (Or.inr hmem)).resolve_left hne⟩
  · rintro ⟨hne, hup⟩
    exact (hj.mpr (Or.inr hup)).resolve_left hne

/-- **The names found above a declaration are those of what stands above it**, its own
apart: a declaration in a circle is not listed among its own supertypes. -/
theorem mem_supertypeClosure_iff (h : Closed t) {i : DeclId} (hi : i < t.size) (name : String) :
    name ∈ t.supertypeClosure i ↔
      ∃ j, j ≠ i ∧ t.Above i j ∧ t.qualifiedName? j = some name := by
  obtain ⟨above, horder, -, habove⟩ := exists_supertypeOrder h hi
  rw [supertypeClosure, horder, List.tail_cons, List.mem_filterMap]
  constructor
  · rintro ⟨j, hj, hname⟩
    obtain ⟨hne, hup⟩ := (habove j).mp hj
    exact ⟨j, hne, hup, hname⟩
  · rintro ⟨j, hne, hup, hname⟩
    exact ⟨j, (habove j).mpr ⟨hne, hup⟩, hname⟩

end SymbolTable
end SymbolGraph
