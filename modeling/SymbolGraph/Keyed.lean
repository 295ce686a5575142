/-
# Lists of pairs as maps

A map that remembers in which order its keys came: a list of pairs without
repeated keys. A key that comes again keeps its place and gets the new value.

Key definitions: `Keyed.insert`, `Keyed.ofList`.
Key theorems: `Keyed.lookup_cons_eq`, `Keyed.lookup_insert`, `Keyed.lookup_ofList`,
`Keyed.keys_insert`, `Keyed.forall_ofList`.
-/

namespace SymbolGraph
namespace Keyed

variable {α β : Type} [DecidableEq α]

/-- Set the value of a key; a new key comes last. -/
def insert (key : α) (value : β) : List (α × β) → List (α × β)
  | [] => [(key, value)]
  | (k, v) :: rest => if k = key then (k, value) :: rest else (k, v) :: insert key value rest

/-- The map of a list of pairs, the later pairs winning. -/
def ofList (pairs : List (α × β)) : List (α × β) :=
  pairs.foldl (fun map pair => insert pair.1 pair.2 map) []

/-- What is looked up is the first pair with the key. -/
theorem lookup_cons_eq (k key : α) (value : β) (rest : List (α × β)) :
    ((key, value) :: rest).lookup k = if k = key then some value else rest.lookup k := by
  by_cases h : k = key
  · subst h; simp
  · rw [List.lookup_cons, beq_eq_false_iff_ne.mpr h, if_neg h]

/-- Only the inserted key changes its value. -/
theorem lookup_insert (key k : α) (value : β) :
    ∀ map : List (α × β),
      (insert key value map).lookup k = if k = key then some value else map.lookup k
  | [] => by rw [insert, lookup_cons_eq]
  | (k', v) :: rest => by
    have ih := lookup_insert key k value rest
    unfold insert
    by_cases hk : k' = key
    · subst hk
      rw [if_pos rfl, lookup_cons_eq, lookup_cons_eq]
      by_cases h : k = k' <;> simp [h]
    · rw [if_neg hk, lookup_cons_eq, lookup_cons_eq, ih]
      by_cases h : k = k'
      · subst h; simp [hk]
      · simp [h]

/-- Of the pairs with a key, the map has the value of the last. -/
theorem lookup_ofList (k : α) (pairs : List (α × β)) :
    (ofList pairs).lookup k = pairs.reverse.lookup k := by
  suffices ∀ map : List (α × β),
      (pairs.foldl (fun map pair => insert pair.1 pair.2 map) map).lookup k =
        (pairs.reverse.lookup k).or (map.lookup k) by
    rw [ofList, this, List.lookup_nil, Option.or_none]
  induction pairs with
  | nil => exact fun _ => Option.none_or.symm
  | cons pair pairs ih =>
    intro map
    rw [List.foldl_cons, ih, lookup_insert, List.reverse_cons, List.lookup_append, lookup_cons_eq,
      List.lookup_nil]
    by_cases h : k = pair.1
    · rw [if_pos h, if_pos h, Option.or_assoc, Option.some_or]
    · rw [if_neg h, if_neg h, Option.or_none]

/-- The keys stay in order, and a new one comes last. -/
theorem keys_insert (key : α) (value : β) :
    ∀ map : List (α × β),
      (insert key value map).map Prod.fst =
        if key ∈ map.map Prod.fst then map.map Prod.fst else map.map Prod.fst ++ [key]
  | [] => by simp [insert]
  | (k', v) :: rest => by
    have ih := keys_insert key value rest
    unfold insert
    by_cases hk : k' = key
    · simp [hk]
    · rw [if_neg hk, List.map_cons, ih]
      by_cases hmem : key ∈ rest.map Prod.fst
      · rw [if_pos hmem, if_pos (by simp [List.mem_map.mp hmem])]
        simp
      · rw [if_neg hmem, if_neg]
        · simp
        · rw [List.map_cons, List.mem_cons]
          rintro (h | h)
          · exact hk h.symm
          · exact hmem h

theorem insert_of_not_mem {key : α} {value : β} :
    ∀ {map : List (α × β)}, key ∉ map.map Prod.fst → insert key value map = map ++ [(key, value)]
  | [], _ => rfl
  | (k, v) :: rest, h => by
    rw [List.map_cons, List.mem_cons, not_or] at h
    rw [insert, if_neg (Ne.symm h.1), insert_of_not_mem h.2]
    rfl

/-- The values of the map are values that were inserted. -/
theorem forall_insert {P : β → Prop} {key : α} {value : β} (hvalue : P value) :
    ∀ {map : List (α × β)}, (∀ pair ∈ map, P pair.2) → ∀ pair ∈ insert key value map, P pair.2
  | [], _ => by simpa [insert] using hvalue
  | (k, v) :: rest, h => by
    have hv : P v := h (k, v) List.mem_cons_self
    have hrest : ∀ pair ∈ rest, P pair.2 := fun pair hp => h pair (List.mem_cons_of_mem _ hp)
    unfold insert
    split
    · exact List.forall_mem_cons.mpr ⟨hvalue, hrest⟩
    · exact List.forall_mem_cons.mpr ⟨hv, forall_insert hvalue hrest⟩

theorem forall_ofList {P : β → Prop} {pairs : List (α × β)} (h : ∀ pair ∈ pairs, P pair.2) :
    ∀ pair ∈ ofList pairs, P pair.2 := by
  suffices ∀ map : List (α × β), (∀ pair ∈ map, P pair.2) →
      ∀ pair ∈ pairs.foldl (fun map pair => insert pair.1 pair.2 map) map, P pair.2 from
    this [] (by simp)
  induction pairs with
  | nil => exact fun _ hmap => hmap
  | cons pair pairs ih =>
    intro map hmap
    exact ih (fun p hp => h p (List.mem_cons_of_mem _ hp)) _
      (forall_insert (h pair List.mem_cons_self) hmap)

end Keyed
end SymbolGraph
