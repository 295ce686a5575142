/-
# First occurrences

The items of a list that have not been seen yet, each at its first occurrence.

Key definitions: `fresh`.
Key theorems: `mem_fresh`, `nodup_fresh`.
-/

namespace SymbolGraph
namespace Distinct

/-- The items of a list that are not among those seen, each at its first occurrence. -/
def fresh {α : Type} [DecidableEq α] (seen : List α) : List α → List α
  | [] => []
  | x :: xs => if x ∈ seen then fresh seen xs else x :: fresh (x :: seen) xs

theorem mem_fresh {α : Type} [DecidableEq α] {x : α} :
    ∀ {xs seen : List α}, x ∈ fresh seen xs ↔ x ∈ xs ∧ x ∉ seen
  | [], _ => by simp [fresh]
  | y :: ys, seen => by
    unfold fresh
    by_cases hy : y ∈ seen
    · rw [if_pos hy, mem_fresh]
      constructor
      · exact fun ⟨h, hs⟩ => ⟨List.mem_cons_of_mem _ h, hs⟩
      · rintro ⟨h, hs⟩
        rcases List.mem_cons.mp h with rfl | h
        · exact absurd hy hs
        · exact ⟨h, hs⟩
    · rw [if_neg hy, List.mem_cons, mem_fresh]
      by_cases hxy : x = y
      · subst hxy; simp [hy]
      · simp [hxy]

/-- Nothing occurs twice. -/
theorem nodup_fresh {α : Type} [DecidableEq α] :
    ∀ {xs seen : List α}, (fresh seen xs).Nodup
  | [], _ => by simp [fresh]
  | y :: ys, seen => by
    unfold fresh
    by_cases hy : y ∈ seen
    · rw [if_pos hy]; exact nodup_fresh
    · rw [if_neg hy, List.nodup_cons]
      exact ⟨fun h => (mem_fresh.mp h).2 List.mem_cons_self, nodup_fresh⟩

end Distinct
end SymbolGraph
