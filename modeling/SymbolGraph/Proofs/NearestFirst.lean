/-
# The nearer ones come first

How far a node is from another is the least number of steps that lead there
(`Walk.distance`). A breadth-first walk meets the nearer nodes first: the nodes it has met
stand in the order of their distance from where it began, and those that wait are at most
one step apart (`Walk.Layered`). Then whatever is no farther than the node to be visited
next has been met, by the last step of a shortest way (`Walk.Layered.mem_of_distance_le`),
so what a visit meets for the first time is exactly one step farther, and the order goes
on. The names above a declaration come in this order.

Key definitions: `Walk.Steps`, `Walk.distance`, `Walk.Layered`.
Key theorems: `Walk.Layered.mem_of_distance_le`, `Walk.Layered.visit`,
`Walk.Layered.breadthFirst`, `SymbolTable.supertypeOrder_sorted`.
-/
import Mathlib.Order.Lattice.Nat
import SymbolGraph.Proofs.Supertypes

namespace SymbolGraph
namespace Walk

/-! ### Distances -/

section

variable {α : Type} {step : α → α → Prop} {x y z : α} {n : Nat}

/-- So many steps lead from `x` to a node. -/
def Steps (step : α → α → Prop) (x : α) : Nat → α → Prop
  | 0, y => y = x
  | n + 1, y => ∃ z, Steps step x n z ∧ step z y

/-- The least number of steps that lead from one node to another. -/
noncomputable def distance (step : α → α → Prop) (x y : α) : Nat := sInf {n | Steps step x n y}

theorem exists_steps (h : Relation.ReflTransGen step x y) : ∃ n, Steps step x n y := by
  induction h with
  | refl => exact ⟨0, rfl⟩
  | tail _ hstep ih =>
    obtain ⟨n, hn⟩ := ih
    exact ⟨n + 1, _, hn, hstep⟩

theorem steps_distance (h : Relation.ReflTransGen step x y) : Steps step x (distance step x y) y :=
  Nat.sInf_mem (exists_steps h)

theorem distance_le (h : Steps step x n y) : distance step x y ≤ n := Nat.sInf_le h

theorem reflTransGen_of_steps : ∀ {n : Nat} {y : α}, Steps step x n y →
    Relation.ReflTransGen step x y
  | 0, _, h => h ▸ Relation.ReflTransGen.refl
  | _ + 1, _, ⟨_, hn, hstep⟩ => (reflTransGen_of_steps hn).tail hstep

/-- One step leads at most one farther. -/
theorem distance_le_succ (h : Relation.ReflTransGen step x y) (hstep : step y z) :
    distance step x z ≤ distance step x y + 1 :=
  distance_le ⟨y, steps_distance h, hstep⟩

/-- Before a node that is some steps away, a shortest way meets one that is a step nearer. -/
theorem exists_nearer (h : Relation.ReflTransGen step x y) (hn : distance step x y = n + 1) :
    ∃ z, Relation.ReflTransGen step x z ∧ step z y ∧ distance step x z = n := by
  have hsteps := steps_distance h
  rw [hn] at hsteps
  obtain ⟨z, hz, hstep⟩ := hsteps
  have hxz := reflTransGen_of_steps hz
  have hle := distance_le hz
  have hsucc := distance_le_succ hxz hstep
  exact ⟨z, hxz, hstep, by omega⟩

theorem eq_of_distance_eq_zero (h : Relation.ReflTransGen step x y) (h0 : distance step x y = 0) :
    y = x := by
  have hsteps := steps_distance h
  rwa [h0] at hsteps

end

/-! ### The order of a walk -/

variable {α : Type} {next : α → List α} {nodes visited waiting : List α} {root x y : α}

/-- How far a node is from where a walk began. -/
noncomputable abbrev depthFrom (next : α → List α) (root y : α) : Nat :=
  distance (fun y z => z ∈ next y) root y

/-- What holds of the order of a walk before each visit. -/
structure Layered (next : α → List α) (nodes : List α) (root : α) (visited waiting : List α) : Prop
    extends Underway next nodes visited waiting where
  root_met : root ∈ visited ++ waiting
  reached : ∀ y ∈ visited ++ waiting, LeadsTo next root y
  sorted : (visited ++ waiting).Pairwise fun y z => depthFrom next root y ≤ depthFrom next root z
  /-- What waits is at most one step apart. -/
  close : ∀ y ∈ waiting, ∀ z ∈ waiting, depthFrom next root y ≤ depthFrom next root z + 1

theorem Layered.start (hroot : root ∈ nodes) : Layered next nodes root [] [root] where
  toUnderway := Underway.start hroot
  root_met := by simp
  reached y hy := by
    rw [List.nil_append, List.mem_singleton] at hy
    exact hy ▸ Relation.ReflTransGen.refl
  sorted := by simp
  close y hy z hz := by
    rw [List.mem_singleton.mp hy, List.mem_singleton.mp hz]
    omega

/-- What waits is no nearer than the node to be visited next. -/
theorem Layered.le_of_mem_waiting (h : Layered next nodes root visited (x :: waiting))
    (hy : y ∈ x :: waiting) : depthFrom next root x ≤ depthFrom next root y := by
  have hwaiting := (List.pairwise_append.mp h.sorted).2.1
  rcases List.mem_cons.mp hy with rfl | hy
  · exact Nat.le_refl _
  · exact (List.pairwise_cons.mp hwaiting).1 y hy

/-- **What is no farther than the node to be visited next has been met.** -/
theorem Layered.mem_of_distance_le (h : Layered next nodes root visited (x :: waiting)) :
    ∀ (n : Nat) {y : α}, LeadsTo next root y → depthFrom next root y = n →
      n ≤ depthFrom next root x → y ∈ visited ++ x :: waiting
  | 0, y, hy, hn, _ => eq_of_distance_eq_zero hy hn ▸ h.root_met
  | n + 1, y, hy, hn, hle => by
    obtain ⟨z, hz, hstep, (hzn : depthFrom next root z = n)⟩ := exists_nearer hy hn
    have hmet := h.mem_of_distance_le n hz hzn (by omega)
    -- the node before is nearer than all that wait, so it was visited
    rcases List.mem_append.mp hmet with hvisited | hwaits
    · exact h.followed z hvisited y hstep
    · have hfar := h.le_of_mem_waiting hwaits
      omega

variable [DecidableEq α]

/-- What a visit meets for the first time is one step farther. -/
theorem Layered.distance_firstMet (h : Layered next nodes root visited (x :: waiting))
    (hy : y ∈ firstMet next visited x waiting) :
    LeadsTo next root y ∧ depthFrom next root y = depthFrom next root x + 1 := by
  obtain ⟨hstep, hnew⟩ := Distinct.mem_fresh.mp hy
  have hx : LeadsTo next root x := h.reached x (by simp)
  have hreach : LeadsTo next root y := hx.tail hstep
  have hle : depthFrom next root y ≤ depthFrom next root x + 1 := distance_le_succ hx hstep
  have hfar : ¬ depthFrom next root y ≤ depthFrom next root x := fun hnear =>
    hnew (h.mem_of_distance_le _ hreach rfl hnear)
  exact ⟨hreach, by omega⟩

/-- **A visit keeps the order.** -/
theorem Layered.visit (hnodes : ∀ y ∈ nodes, ∀ z ∈ next y, z ∈ nodes)
    (h : Layered next nodes root visited (x :: waiting)) :
    Layered next nodes root (visited ++ [x]) (waiting ++ firstMet next visited x waiting) := by
  have hold : ∀ y ∈ visited ++ x :: waiting, depthFrom next root y ≤ depthFrom next root x + 1 := by
    intro y hy
    rcases List.mem_append.mp hy with hy | hy
    · have := (List.pairwise_append.mp h.sorted).2.2 y hy x List.mem_cons_self
      omega
    · exact h.close y hy x List.mem_cons_self
  refine ⟨h.toUnderway.visit hnodes, ?_, ?_, ?_, ?_⟩
  · rw [visited_append]
    exact List.mem_append_left _ h.root_met
  · rw [visited_append]
    intro y hy
    rcases List.mem_append.mp hy with hy | hy
    · exact h.reached y hy
    · exact (h.distance_firstMet hy).1
  · rw [visited_append]
    refine List.pairwise_append.mpr ⟨h.sorted, ?_, fun y hy z hz => ?_⟩
    · refine List.pairwise_of_forall_mem_list fun y hy z hz => ?_
      rw [(h.distance_firstMet hy).2, (h.distance_firstMet hz).2]
    · rw [(h.distance_firstMet hz).2]
      exact hold y hy
  · intro y hy z hz
    have hfar : depthFrom next root y ≤ depthFrom next root x + 1 := by
      rcases List.mem_append.mp hy with hy | hy
      · exact hold y (by simp [hy])
      · exact Nat.le_of_eq (h.distance_firstMet hy).2
    have hnear : depthFrom next root x ≤ depthFrom next root z := by
      rcases List.mem_append.mp hz with hz | hz
      · exact h.le_of_mem_waiting (List.mem_cons_of_mem _ hz)
      · have := (h.distance_firstMet hz).2
        omega
    omega

/-- **A walk meets the nearer nodes first.** -/
theorem Layered.breadthFirst (hnodes : ∀ y ∈ nodes, ∀ z ∈ next y, z ∈ nodes) :
    ∀ (fuel : Nat) (visited waiting : List α), Layered next nodes root visited waiting →
      (breadthFirst next fuel visited waiting).Pairwise fun y z =>
        depthFrom next root y ≤ depthFrom next root z
  | 0, visited, waiting, h => h.sorted
  | fuel + 1, visited, [], h => by simpa [Walk.breadthFirst] using h.sorted
  | fuel + 1, visited, x :: waiting, h =>
    Layered.breadthFirst hnodes fuel _ _ (h.visit hnodes)

end Walk

/-! ### The climb from a declaration -/

namespace SymbolTable

variable {t : SymbolTable}

/-- **The climb from a declaration meets the nearer ones first.** -/
theorem supertypeOrder_sorted (h : Closed t) {i : DeclId} (hi : i < t.size) :
    (t.supertypeOrder i).Pairwise fun j k =>
      Walk.distance t.StepUp i j ≤ Walk.distance t.StepUp i k := by
  have hsteps : (fun i j => j ∈ t.superDecls i) = t.StepUp := by
    funext i j
    exact propext mem_superDecls_iff
  rw [← hsteps]
  exact Walk.Layered.breadthFirst (superDecls_inside h) t.size [] [i]
    (Walk.Layered.start (List.mem_range.mpr hi))

end SymbolTable
end SymbolGraph
