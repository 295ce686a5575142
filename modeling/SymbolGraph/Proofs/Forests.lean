/-
# Walking a forest depth-first

The links from nodes to what follows them make a forest if a node follows at most one
other, and only one with a smaller handle (`Walk.Forest`). Then no walk comes back, so
what holds of a node whenever it holds of all that follow it holds of every node
(`Walk.Forest.induction`), and the recursive listing of a node, itself first and then
what is listed for each node that follows it (`Walk.preorder`), needs no more fuel than
there are nodes. It lists exactly the nodes that steps lead to, each once: two ways to a
node begin at one of them, so the listings of nodes none of which is above another have
nothing in common.

A depth-first walk puts what follows in front of all that waits. Each visit moves the
first node of the listings from the nodes that wait to those visited
(`Walk.Forest.flatMap_cons`), so the walk visits the listings of the nodes it began with,
one after the other.

Key definitions: `Walk.preorder`, `Walk.Forest`, `Walk.Apart`.
Key theorems: `Walk.Forest.preorder_eq`, `Walk.Forest.mem_preorder_iff`,
`Walk.Forest.nodup_flatMap`, `Walk.Forest.depthFirst_eq`.
-/
import Mathlib.Data.List.Nodup
import SymbolGraph.Proofs.Supertypes

namespace SymbolGraph
namespace Walk

/-- A node, and then for each node that follows it, in order, that node and what it leads
to; nothing is followed for more than so many steps. -/
def preorder {α : Type} (next : α → List α) : Nat → α → List α
  | 0, x => [x]
  | fuel + 1, x => x :: (next x).flatMap (preorder next fuel)

/-- What follows a node has a larger handle, one below `size`, and follows no other. -/
structure Forest (next : Nat → List Nat) (size : Nat) : Prop where
  above : ∀ i, ∀ j ∈ next i, i < j ∧ j < size
  nodup : ∀ i, (next i).Nodup
  single : ∀ i j k, k ∈ next i → k ∈ next j → i = j

/-- No step leads from one of some nodes to another. -/
def Apart (next : Nat → List Nat) (nodes : List Nat) : Prop :=
  ∀ i ∈ nodes, ∀ j ∈ nodes, LeadsTo next i j → i = j

namespace Forest

variable {next : Nat → List Nat} {size i j k : Nat} {nodes : List Nat}

/-- What holds of a node whenever it holds of all that follow it holds of every node. -/
theorem induction {P : Nat → Prop} (h : Forest next size)
    (step : ∀ i, (∀ j ∈ next i, P j) → P i) (i : Nat) : P i := by
  induction hn : size - i using Nat.strong_induction_on generalizing i with
  | _ n ih =>
    refine step i fun j hj => ?_
    have := h.above i j hj
    exact ih (size - j) (by omega) j rfl

/-! ### What is listed -/

/-- Fuel for as many steps as there are nodes behind a node is enough. -/
theorem preorder_succ (h : Forest next size) : ∀ (fuel i : Nat), size ≤ fuel + i →
    preorder next (fuel + 1) i = preorder next fuel i
  | 0, i, hfuel => by
    have hlast : next i = [] := by
      rw [List.eq_nil_iff_forall_not_mem]
      intro j hj
      have := h.above i j hj
      omega
    simp [preorder, hlast]
  | fuel + 1, i, hfuel => by
    have hrest : ∀ j ∈ next i, preorder next (fuel + 1) j = preorder next fuel j := by
      intro j hj
      have := h.above i j hj
      exact h.preorder_succ fuel j (by omega)
    show i :: (next i).flatMap (preorder next (fuel + 1)) =
      i :: (next i).flatMap (preorder next fuel)
    rw [List.flatMap_congr hrest]

/-- **A node is listed first, then what is listed for each node that follows it.** -/
theorem preorder_eq (h : Forest next size) (i : Nat) :
    preorder next size i = i :: (next i).flatMap (preorder next size) :=
  (h.preorder_succ size i (Nat.le_add_right size i)).symm

/-- The listings of some nodes begin with the first of them, and go on with the listings of
what follows it and of the others. -/
theorem flatMap_cons (h : Forest next size) (i : Nat) (nodes : List Nat) :
    (i :: nodes).flatMap (preorder next size) =
      i :: (next i ++ nodes).flatMap (preorder next size) := by
  rw [List.flatMap_cons, h.preorder_eq, List.flatMap_append, List.cons_append]

/-- **What is listed for a node is what steps lead to.** -/
theorem mem_preorder_iff (h : Forest next size) (i : Nat) :
    j ∈ preorder next size i ↔ LeadsTo next i j := by
  revert i
  refine h.induction fun i ih => ?_
  rw [h.preorder_eq, List.mem_cons, List.mem_flatMap]
  constructor
  · rintro (rfl | ⟨k, hk, hj⟩)
    · exact Relation.ReflTransGen.refl
    · exact Relation.ReflTransGen.head hk ((ih k hk).mp hj)
  · intro hij
    rcases Relation.ReflTransGen.cases_head hij with rfl | ⟨k, hk, hkj⟩
    · exact Or.inl rfl
    · exact Or.inr ⟨k, hk, (ih k hk).mpr hkj⟩

theorem mem_flatMap_iff (h : Forest next size) :
    j ∈ nodes.flatMap (preorder next size) ↔ ∃ i ∈ nodes, LeadsTo next i j := by
  simp only [List.mem_flatMap, h.mem_preorder_iff]

/-! ### Nothing is listed twice -/

theorem le_of_leadsTo (h : Forest next size) (hij : LeadsTo next i j) : i ≤ j := by
  induction hij with
  | refl => exact Nat.le_refl i
  | tail _ hstep ih => exact Nat.le_of_lt (Nat.lt_of_le_of_lt ih (h.above _ _ hstep).1)

/-- Of two nodes above a third, one is above the other. -/
theorem leadsTo_or_leadsTo (h : Forest next size) (hik : LeadsTo next i k)
    (hjk : LeadsTo next j k) : LeadsTo next i j ∨ LeadsTo next j i := by
  have hback : Relator.RightUnique (Function.swap fun i j => j ∈ next i) :=
    fun k i j hi hj => h.single i j k hi hj
  have hki := Relation.reflTransGen_swap.mpr hik
  have hkj := Relation.reflTransGen_swap.mpr hjk
  rcases Relation.ReflTransGen.total_of_right_unique hback hki hkj with hij | hji
  · exact Or.inr (Relation.reflTransGen_swap.mp hij)
  · exact Or.inl (Relation.reflTransGen_swap.mp hji)

/-- Of the nodes that follow a node, none is above another. -/
theorem apart_next (h : Forest next size) (i : Nat) : Apart next (next i) := by
  intro j hj k hk hjk
  rcases Relation.ReflTransGen.cases_tail hjk with heq | ⟨m, hjm, hmk⟩
  · exact heq.symm
  · -- the last step to `k` would come from `i`, which is nearer to the root than `j`
    rw [h.single m i k hmk hk] at hjm
    have hle := h.le_of_leadsTo hjm
    have hlt := (h.above i j hj).1
    omega

/-- The listings of nodes that are apart have nothing in common. -/
theorem nodup_flatMap_of_apart (h : Forest next size) (hnodup : nodes.Nodup)
    (hapart : Apart next nodes) (heach : ∀ i ∈ nodes, (preorder next size i).Nodup) :
    (nodes.flatMap (preorder next size)).Nodup := by
  refine List.nodup_flatMap.mpr ⟨heach, hnodup.imp_of_mem fun {i j} hi hj hne k hk hk' => ?_⟩
  have hik := (h.mem_preorder_iff i).mp hk
  have hjk := (h.mem_preorder_iff j).mp hk'
  rcases h.leadsTo_or_leadsTo hik hjk with hij | hji
  · exact hne (hapart i hi j hj hij)
  · exact hne (hapart j hj i hi hji).symm

theorem nodup_preorder (h : Forest next size) (i : Nat) : (preorder next size i).Nodup := by
  revert i
  refine h.induction fun i ih => ?_
  rw [h.preorder_eq, List.nodup_cons, h.mem_flatMap_iff]
  refine ⟨?_, h.nodup_flatMap_of_apart (h.nodup i) (h.apart_next i) ih⟩
  rintro ⟨j, hj, hji⟩
  have hle := h.le_of_leadsTo hji
  have hlt := (h.above i j hj).1
  omega

/-- **The listings of nodes that are apart list nothing twice.** -/
theorem nodup_flatMap (h : Forest next size) (hnodup : nodes.Nodup) (hapart : Apart next nodes) :
    (nodes.flatMap (preorder next size)).Nodup :=
  h.nodup_flatMap_of_apart hnodup hapart fun i _ => h.nodup_preorder i

/-- So they list no more than all nodes. -/
theorem length_flatMap_le (h : Forest next size) (hnodup : nodes.Nodup)
    (hapart : Apart next nodes) (hnodes : ∀ i ∈ nodes, i < size) :
    (nodes.flatMap (preorder next size)).length ≤ size := by
  have hsub : nodes.flatMap (preorder next size) ⊆ List.range size := by
    intro j hj
    rw [List.mem_range]
    obtain ⟨i, hi, hij⟩ := h.mem_flatMap_iff.mp hj
    rcases Relation.ReflTransGen.cases_tail hij with rfl | ⟨k, -, hkj⟩
    · exact hnodes _ hi
    · exact (h.above k j hkj).2
  have hle := (List.subperm_of_subset (h.nodup_flatMap hnodup hapart) hsub).length_le
  rwa [List.length_range] at hle

/-! ### The walk -/

/-- **A depth-first walk with enough fuel visits the listings of the nodes that wait.** -/
theorem depthFirst_eq (h : Forest next size) : ∀ (fuel : Nat) (waiting : List Nat),
    (waiting.flatMap (preorder next size)).length ≤ fuel →
      depthFirst next fuel waiting = waiting.flatMap (preorder next size)
  | 0, [], _ => rfl
  | 0, i :: waiting, hfuel => by
    rw [h.flatMap_cons, List.length_cons] at hfuel
    omega
  | _ + 1, [], _ => rfl
  | fuel + 1, i :: waiting, hfuel => by
    rw [h.flatMap_cons, List.length_cons] at hfuel
    rw [h.flatMap_cons, depthFirst, h.depthFirst_eq fuel _ (by omega)]

end Forest
end Walk
end SymbolGraph
