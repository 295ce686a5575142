/-
# At which tier a constant is cut

Arrays and annotations in a constant are cut by different rules. An array keeps its items in
full only, and the items are then converted with bounds; so an array that is the whole constant
is the only one with items, and all others are empty (`every_unfilled_convertConstant`).
An annotation in a constant is converted one step further down than the constant, and flat it
keeps its header only.

The two rules meet in chains: an annotation in an argument of an annotation, in an array or not.
Each annotation of a chain goes one tier down, and so does an array outside the first; the arrays
further in end the chain, as they are empty. So a chain in the value is a chain of the constant,
converted annotation by annotation (`chain_convertConstant`), and behind the annotations that the
tiers leave their arguments there is one more header at most.

Key definitions: `Constant.Chain`, `Value.Chain`, `SymbolTable.convertChain`, `CutAtTiers`.
Key theorems: `Constant.induction`, `every_unfilled_convertConstant`, `chain_convertConstant`,
`constants_cut`.
-/
import SymbolGraph.Proofs.Growth
import SymbolGraph.Proofs.Origins

namespace SymbolGraph

open Node (Every every_iff every_mark)

/-! ### What is in a constant -/

namespace Constant

/-- Neither an array nor an annotation: in such a constant there are no others. -/
def Plain (c : Constant) : Prop := (∀ values, c ≠ .array values) ∧ ∀ u, c ≠ .nested u

theorem sizeOf_lt_of_argument {u : Usage} {c : Constant} (h : c ∈ u.arguments.map Prod.snd) :
    sizeOf c < sizeOf u := by
  obtain ⟨argument, hargument, rfl⟩ := List.mem_map.mp h
  obtain ⟨shortName, type, arguments⟩ := u
  have hlt : sizeOf argument < sizeOf arguments := List.sizeOf_lt_of_mem hargument
  have : sizeOf argument = 1 + sizeOf argument.1 + sizeOf argument.2 := rfl
  rw [Usage.mk.sizeOf_spec]
  omega

/-- What holds of an array if it holds of its items, of an annotation if it holds of its arguments,
and of the plain constants, holds of every constant. -/
theorem induction {P : Constant → Prop}
    (array : ∀ values : List Constant, (∀ c ∈ values, P c) → P (.array values))
    (nested : ∀ u : Usage, (∀ c ∈ u.arguments.map Prod.snd, P c) → P (.nested u))
    (plain : ∀ c : Constant, c.Plain → P c) : ∀ c : Constant, P c
  | .array values => array values fun c hc => induction array nested plain c
  | .nested u => nested u fun c hc => induction array nested plain c
  | .string _ | .literal _ | .enumEntry _ | .classLiteral _ | .null =>
    plain _ (by simp [Plain])
termination_by c => sizeOf c
decreasing_by
  · have : sizeOf c < sizeOf values := List.sizeOf_lt_of_mem hc
    rw [Constant.array.sizeOf_spec]
    omega
  · have : sizeOf c < sizeOf u := sizeOf_lt_of_argument hc
    rw [Constant.nested.sizeOf_spec]
    omega

/-- A chain of annotations from a constant inward: each stands in an argument of the one before, in
an array or not. It may stop anywhere. -/
inductive Chain : Constant → List Usage → Prop
  | stop (c : Constant) : Chain c []
  | item {values : List Constant} {c : Constant} {us : List Usage} (hc : c ∈ values)
      (h : Chain c us) : Chain (.array values) us
  | last (u : Usage) : Chain (.nested u) [u]
  | next {u : Usage} {c : Constant} {us : List Usage} (hc : c ∈ u.arguments.map Prod.snd)
      (h : Chain c us) : Chain (.nested u) (u :: us)

end Constant

/-- A chain of annotations from a value inward, as in a constant. -/
inductive Value.Chain : Value → List Annotation → Prop
  | stop (v : Value) : Chain v []
  | item {values : List Value} {v : Value} {as : List Annotation} (hv : v ∈ values)
      (h : Chain v as) : Chain (.array values) as
  | last (a : Annotation) : Chain (.nested a) [a]
  | next {a : Annotation} {v : Value} {as : List Annotation} (hv : v ∈ a.arguments.map Prod.snd)
      (h : Chain v as) : Chain (.nested a) (a :: as)

theorem Value.Chain.eq_nil_of_array {as : List Annotation} (h : Value.Chain (.array []) as) :
    as = [] := by
  cases h with
  | stop => rfl
  | item hv => exact absurd hv List.not_mem_nil

/-- In neither an array nor an annotation no chain goes on. -/
theorem Value.Chain.eq_nil {v : Value} {as : List Annotation} (h : v.Chain as)
    (harray : ∀ values, v ≠ .array values) (hnested : ∀ a, v ≠ .nested a) : as = [] := by
  cases h with
  | stop => rfl
  | item => exact absurd rfl (harray _)
  | last | next => exact absurd rfl (hnested _)

namespace SymbolTable

variable {t : SymbolTable} {depth : Depth}

/-! ### Conversion step by step -/

theorem arguments_convertUsage (u : Usage) :
    (t.convertUsage depth u).arguments = Keyed.ofList (t.convertArguments depth u.arguments) := by
  obtain ⟨shortName, type, arguments⟩ := u
  rw [convertUsage]

/-- An argument of a converted annotation is an argument of the annotation, converted. -/
theorem exists_of_mem_arguments {u : Usage} {v : Value}
    (h : v ∈ (t.convertUsage depth u).arguments.map Prod.snd) :
    ∃ c ∈ u.arguments.map Prod.snd, v = t.convertConstant depth c := by
  rw [arguments_convertUsage, convertArguments_eq_map] at h
  obtain ⟨argument, hargument, rfl⟩ := List.mem_map.mp h
  refine Keyed.forall_ofList
    (P := fun v => ∃ c ∈ u.arguments.map Prod.snd, v = t.convertConstant depth c) ?_ _ hargument
  rw [List.forall_mem_map]
  exact fun argument hargument => ⟨argument.2, List.mem_map_of_mem hargument, rfl⟩

/-- The argument of a name is the last one written with the name, converted. -/
theorem argument?_convertUsage (u : Usage) (name : String) :
    (t.convertUsage depth u).argument? name =
      (u.arguments.reverse.lookup name).map (t.convertConstant depth) := by
  unfold Annotation.argument?
  rw [arguments_convertUsage, convertArguments_eq_map, Keyed.lookup_ofList, ← List.map_reverse]
  induction u.arguments.reverse with
  | nil => rfl
  | cons argument arguments ih =>
    rw [List.map_cons, Keyed.lookup_cons_eq, Keyed.lookup_cons_eq, ih]
    split <;> rfl

theorem convertConstant_array_full (values : List Constant) :
    t.convertConstant .full (.array values) =
      .array (values.map (t.convertConstant .bounded)) := by
  rw [convertConstant, convertConstants_eq_map]
  rfl

theorem convertConstant_array (h : depth ≠ .full) (values : List Constant) :
    t.convertConstant depth (.array values) = .array [] := by
  rw [convertConstant, if_neg]
  simpa [Depth.includesArrayValues] using h

theorem convertConstant_nested (h : depth ≠ .flat) (u : Usage) :
    t.convertConstant depth (.nested u) = .nested (t.convertUsage depth.descend u) := by
  rw [convertConstant, if_neg h]

theorem convertConstant_nested_flat (u : Usage) :
    t.convertConstant .flat (.nested u) = .nested (t.usageHeader u.shortName u.type) := by
  rw [convertConstant, if_pos rfl]

/-- A plain constant is the same at every depth. -/
theorem convertConstant_plain {c : Constant} (h : c.Plain) (depth depth' : Depth) :
    t.convertConstant depth c = t.convertConstant depth' c := by
  cases c with
  | array values => exact absurd rfl (h.1 values)
  | nested u => exact absurd rfl (h.2 u)
  | _ => simp only [convertConstant]

/-- It becomes neither an array nor an annotation, and what it becomes has only types and elements
in it. -/
theorem convertConstant_plain_parts {c : Constant} (h : c.Plain) (depth : Depth) :
    (∀ ws, t.convertConstant depth c ≠ .array ws) ∧ (∀ a, t.convertConstant depth c ≠ .nested a) ∧
      ∀ m ∈ (t.convertConstant depth c).parts, ¬ m.IsRemark := by
  cases c with
  | array values => exact absurd rfl (h.1 values)
  | nested u => exact absurd rfl (h.2 u)
  | string | literal | null => simp [convertConstant, Value.parts]
  | classLiteral r =>
    rw [convertConstant, classValue]
    split <;> simp [Value.parts]
  | enumEntry r =>
    rw [convertConstant, enumValue]
    split <;> simp [Value.parts, Node.IsRemark]

/-! ### Arrays -/

/-- If the part is an array, it is empty. -/
def Unfilled (n : Node) : Prop := ∀ ws, n = .value (.array ws) → ws = []

theorem unfilled_of_not_array {v : Value} (h : ∀ ws, v ≠ .array ws) : Unfilled (.value v) :=
  fun ws hws => absurd (Node.value.inj hws) (h ws)

/-- In an identity there are no arrays. -/
theorem InRemark.every_unfilled {n : Node} (h : t.InRemark n) (hn : ¬ n.IsRemark) :
    n.Every Unfilled := by
  intro m hm
  have hout : t.InRemark m ∧ ¬ m.IsRemark := by
    induction hm with
    | refl => exact ⟨h, hn⟩
    | tail _ hstep ih => exact ih.1.identity_parts ih.2 _ hstep
  rintro ws rfl
  exact absurd trivial hout.2

theorem every_unfilled_annotationType (r : TypeRef) :
    (Node.type (t.annotationType r)).Every Unfilled :=
  (inRemark_annotationType r).every_unfilled not_false

theorem unfilled_mark (a : Annotation) : Unfilled (.mark a) := fun _ h => by cases h

theorem every_unfilled_usageHeader (shortName : String) (r : TypeRef) :
    (Node.mark (t.usageHeader shortName r)).Every Unfilled :=
  every_mark (unfilled_mark _) (every_unfilled_annotationType r)
    fun _ ha => absurd ha List.not_mem_nil

theorem every_unfilled_convertUsage {u : Usage}
    (h : ∀ c ∈ u.arguments.map Prod.snd, (Node.value (t.convertConstant depth c)).Every Unfilled) :
    (Node.mark (t.convertUsage depth u)).Every Unfilled := by
  have htype : (t.convertUsage depth u).type = t.annotationType u.type := by
    obtain ⟨_, _, _⟩ := u
    rw [convertUsage, usageHeader]
  refine every_mark (unfilled_mark _) (htype ▸ every_unfilled_annotationType u.type) fun a ha => ?_
  obtain ⟨c, hc, hv⟩ := exists_of_mem_arguments (List.mem_map_of_mem ha)
  rw [hv]
  exact h c hc

/-- **Below a full conversion every array is empty**, also those in the arguments of annotations. -/
theorem every_unfilled_convertConstant (h : depth ≠ .full) (c : Constant) :
    (Node.value (t.convertConstant depth c)).Every Unfilled := by
  -- for all depths at once, as the arguments are converted further down
  induction c using Constant.induction generalizing depth with
  | array values _ =>
    rw [convertConstant_array h]
    refine every_iff.mpr ⟨fun ws hws => ?_, fun m hm => absurd hm List.not_mem_nil⟩
    cases hws
    rfl
  | nested u ih =>
    by_cases hflat : depth = .flat
    · subst hflat
      rw [convertConstant_nested_flat]
      exact every_iff.mpr ⟨unfilled_of_not_array (by simp),
        List.forall_mem_singleton.mpr (every_unfilled_usageHeader _ _)⟩
    · rw [convertConstant_nested hflat]
      refine every_iff.mpr ⟨unfilled_of_not_array (by simp), List.forall_mem_singleton.mpr ?_⟩
      exact every_unfilled_convertUsage fun c hc => ih c hc depth.descend_ne_full
  | plain c hc =>
    obtain ⟨hself, -, hparts⟩ := convertConstant_plain_parts (t := t) hc depth
    refine every_iff.mpr ⟨unfilled_of_not_array hself, fun m hm => ?_⟩
    exact (inRemark_constant_parts depth c m hm).every_unfilled (hparts m hm)

/-- In full only the array that is the whole constant has items. -/
theorem unfilled_below_full {c : Constant} {n : Node}
    (h : (Node.value (t.convertConstant .full c)).Below n) : Unfilled n := by
  induction c using Constant.induction with
  | array values _ =>
    rw [convertConstant_array_full] at h
    obtain ⟨m, hm, hn⟩ := Node.below_iff.mp h
    obtain ⟨v, hv, rfl⟩ := List.mem_map.mp hm
    obtain ⟨c, -, rfl⟩ := List.mem_map.mp hv
    exact every_unfilled_convertConstant (by decide) c n hn
  | nested u _ =>
    rw [convertConstant_nested (by decide)] at h
    obtain ⟨m, hm, hn⟩ := Node.below_iff.mp h
    rw [List.mem_singleton.mp hm] at hn
    exact every_unfilled_convertUsage
      (fun c _ => every_unfilled_convertConstant (by decide) c) n hn
  | plain c hc =>
    rw [convertConstant_plain hc .full .flat] at h
    exact every_unfilled_convertConstant (by decide) c n (Relation.TransGen.to_reflTransGen h)

/-! ### Chains -/

/-- The chain converted annotation by annotation, each one step further down than the one before.
Flat an annotation keeps its header, and the chain ends. -/
def convertChain (t : SymbolTable) : Depth → List Usage → List Annotation
  | _, [] => []
  | .flat, u :: _ => [t.usageHeader u.shortName u.type]
  | .bounded, u :: us => t.convertUsage .flat u :: convertChain t .flat us
  | .full, u :: us => t.convertUsage .bounded u :: convertChain t .bounded us

theorem convertChain_cons (h : depth ≠ .flat) (u : Usage) (us : List Usage) :
    t.convertChain depth (u :: us) =
      t.convertUsage depth.descend u :: t.convertChain depth.descend us := by
  cases depth with
  | full | bounded => rw [convertChain, Depth.descend]
  | flat => exact absurd rfl h

/-- The tiers that are left at a depth, but for the flat one: each step down takes one of them. -/
theorem tiers_left (h : depth ≠ .flat) : 2 - depth.rank = 2 - depth.descend.rank + 1 := by
  cases depth with
  | full | bounded => rfl
  | flat => exact absurd rfl h

/-- In a chain only as many annotations have arguments as there are tiers left. -/
theorem countP_convertChain (us : List Usage) :
    (t.convertChain depth us).countP (fun a => !a.arguments.isEmpty) ≤ 2 - depth.rank := by
  induction us generalizing depth with
  | nil => simp [convertChain]
  | cons u us ih =>
    by_cases hflat : depth = .flat
    · subst hflat
      simp [convertChain, usageHeader]
    · rw [convertChain_cons hflat, List.countP_cons]
      have hle : (t.convertChain depth.descend us).countP (fun a => !a.arguments.isEmpty) ≤
          2 - depth.descend.rank := ih
      have hleft : 2 - depth.rank = 2 - depth.descend.rank + 1 := tiers_left hflat
      split <;> omega

/-- Behind these there is one more header, if the chain goes on. -/
theorem drop_convertChain (us : List Usage) :
    (t.convertChain depth us).drop (2 - depth.rank) =
      ((us.drop (2 - depth.rank)).take 1).map fun u => t.usageHeader u.shortName u.type := by
  induction us generalizing depth with
  | nil => simp [convertChain]
  | cons u us ih =>
    by_cases hflat : depth = .flat
    · subst hflat
      rfl
    · rw [convertChain_cons hflat, tiers_left hflat, List.drop_succ_cons, List.drop_succ_cons, ih]

/-- A chain that begins at an annotation, if those in its arguments are known. -/
theorem chain_convertConstant_nested {u : Usage}
    (h : ∀ c ∈ u.arguments.map Prod.snd, ∀ as, (t.convertConstant depth.descend c).Chain as →
      ∃ us, c.Chain us ∧ as = t.convertChain depth.descend us)
    {as : List Annotation} (has : (t.convertConstant depth (.nested u)).Chain as) :
    ∃ us, (Constant.nested u).Chain us ∧ as = t.convertChain depth us := by
  by_cases hflat : depth = .flat
  · subst hflat
    rw [convertConstant_nested_flat] at has
    cases has with
    | stop => exact ⟨[], .stop _, rfl⟩
    | last => exact ⟨[u], .last u, rfl⟩
    | next hv => exact absurd hv List.not_mem_nil
  · rw [convertConstant_nested hflat] at has
    cases has with
    | stop => exact ⟨[], .stop _, by rw [convertChain]⟩
    | last => exact ⟨[u], .last u, by rw [convertChain_cons hflat, convertChain]⟩
    | next hv has =>
      obtain ⟨c, hc, rfl⟩ := exists_of_mem_arguments hv
      obtain ⟨us, hus, rfl⟩ := h c hc _ has
      exact ⟨u :: us, .next hc hus, (convertChain_cons hflat u us).symm⟩

/-- No chain begins in a plain constant. -/
theorem chain_convertConstant_plain {c : Constant} (hc : c.Plain) {as : List Annotation}
    (has : (t.convertConstant depth c).Chain as) :
    ∃ us, c.Chain us ∧ as = t.convertChain depth us := by
  obtain ⟨harray, hnested, -⟩ := convertConstant_plain_parts (t := t) hc depth
  exact ⟨[], .stop _, (has.eq_nil harray hnested).trans (by rw [convertChain])⟩

/-- Below a full conversion a chain does not go through arrays, as they are empty. -/
theorem chain_convertConstant_of_ne_full (h : depth ≠ .full) (c : Constant) :
    ∀ as, (t.convertConstant depth c).Chain as →
      ∃ us, c.Chain us ∧ as = t.convertChain depth us := by
  induction c using Constant.induction generalizing depth with
  | array values _ =>
    intro as has
    rw [convertConstant_array h] at has
    exact ⟨[], .stop _, has.eq_nil_of_array.trans (by rw [convertChain])⟩
  | nested u ih =>
    exact fun as => chain_convertConstant_nested fun c hc => ih c hc depth.descend_ne_full
  | plain c hc => exact fun as => chain_convertConstant_plain hc

/-- The depth of the first annotation of a chain. An array that has items goes down a tier itself. -/
def chainDepth : Depth → Constant → Depth
  | .full, .array _ => .bounded
  | depth, _ => depth

theorem chainDepth_of_ne_full (h : depth ≠ .full) (c : Constant) : chainDepth depth c = depth := by
  unfold chainDepth
  split
  · exact absurd rfl h
  · rfl

theorem rank_le_chainDepth (depth : Depth) (c : Constant) :
    depth.rank ≤ (chainDepth depth c).rank := by
  unfold chainDepth
  split
  · decide
  · exact Nat.le_refl _

/-- **A chain in a converted constant is a chain of the constant**, converted annotation by
annotation. -/
theorem chain_convertConstant {c : Constant} {as : List Annotation}
    (has : (t.convertConstant depth c).Chain as) :
    ∃ us, c.Chain us ∧ as = t.convertChain (chainDepth depth c) us := by
  by_cases hfull : depth = .full
  · subst hfull
    have hitems : ∀ c as, (t.convertConstant .bounded c).Chain as →
        ∃ us, c.Chain us ∧ as = t.convertChain .bounded us :=
      chain_convertConstant_of_ne_full (by decide)
    induction c using Constant.induction with
    | array values _ =>
      rw [convertConstant_array_full] at has
      cases has with
      | stop => exact ⟨[], .stop _, by rw [convertChain]⟩
      | item hv has =>
        obtain ⟨c, hc, rfl⟩ := List.mem_map.mp hv
        obtain ⟨us, hus, rfl⟩ := hitems c _ has
        exact ⟨us, .item hc hus, rfl⟩
    | nested u _ => exact chain_convertConstant_nested (fun c _ => hitems c) has
    | plain c hc =>
      have hdepth : chainDepth .full c = .full := by
        unfold chainDepth
        split
        · exact absurd rfl (hc.1 _)
        · rfl
      rw [hdepth]
      exact chain_convertConstant_plain hc has
  · rw [chainDepth_of_ne_full hfull]
    exact chain_convertConstant_of_ne_full hfull c as has

/-! ### The tiers -/

/-- **A constant is cut at the tiers**, and where it is not cut it is kept. -/
structure CutAtTiers (t : SymbolTable) (c : Constant) : Prop where
  /-- In full the outermost array keeps its items, each converted with bounds. -/
  outermost : ∀ ws, t.convertConstant .full c = .array ws ↔
    ∃ values, c = .array values ∧ ws = values.map (t.convertConstant .bounded)
  /-- All arrays further in are empty. -/
  belowOutermost : ∀ ws, (Node.value (t.convertConstant .full c)).Below (.value (.array ws)) →
    ws = []
  /-- With bounds and flat every array is empty. -/
  belowFull : ∀ depth, depth ≠ .full → ∀ ws,
    (Node.value (t.convertConstant depth c)).Holds (.value (.array ws)) → ws = []
  /-- Two annotations of a chain have arguments in full, one with bounds and none flat. The chain is
  one of the constant, and the next annotation, if it goes on, is a header and the last. -/
  chains : ∀ depth as, (t.convertConstant depth c).Chain as →
    as.countP (fun a => !a.arguments.isEmpty) ≤ 2 - depth.rank ∧
      ∃ us, c.Chain us ∧ as = t.convertChain (chainDepth depth c) us ∧
        as.drop (2 - (chainDepth depth c).rank) =
          ((us.drop (2 - (chainDepth depth c).rank)).take 1).map fun u =>
            t.usageHeader u.shortName u.type
  /-- Where an annotation is kept, it has all its arguments, the last one of each name counting. -/
  arguments : ∀ u, c = .nested u → ∀ depth, depth ≠ .flat →
    t.convertConstant depth c = .nested (t.convertUsage depth.descend u) ∧
      ∀ name, (t.convertUsage depth.descend u).argument? name =
        (u.arguments.reverse.lookup name).map (t.convertConstant depth.descend)
  /-- All else is the same at every depth. -/
  plain : c.Plain → ∀ depth depth', t.convertConstant depth c = t.convertConstant depth' c

theorem convertConstant_full_eq_array_iff {c : Constant} {ws : List Value} :
    t.convertConstant .full c = .array ws ↔
      ∃ values, c = .array values ∧ ws = values.map (t.convertConstant .bounded) := by
  constructor
  · intro h
    induction c using Constant.induction with
    | array values _ =>
      rw [convertConstant_array_full, Value.array.injEq] at h
      exact ⟨values, rfl, h.symm⟩
    | nested u _ =>
      rw [convertConstant_nested (by decide)] at h
      cases h
    | plain c hc => exact absurd h ((convertConstant_plain_parts hc .full).1 ws)
  · rintro ⟨values, rfl, rfl⟩
    exact convertConstant_array_full values

/-- **Constants are cut at the tiers**, whatever is nested in them and whatever the table holds. -/
theorem constants_cut (t : SymbolTable) (c : Constant) : t.CutAtTiers c where
  outermost _ := convertConstant_full_eq_array_iff
  belowOutermost ws h := unfilled_below_full h ws rfl
  belowFull depth hdepth ws h := every_unfilled_convertConstant hdepth c _ h ws rfl
  chains depth as has := by
    obtain ⟨us, hus, rfl⟩ := chain_convertConstant has
    have hrank : 2 - (chainDepth depth c).rank ≤ 2 - depth.rank :=
      Nat.sub_le_sub_left (rank_le_chainDepth depth c) 2
    exact ⟨Nat.le_trans (countP_convertChain us) hrank, us, hus, rfl, drop_convertChain us⟩
  arguments u hu depth hdepth := by
    subst hu
    exact ⟨convertConstant_nested hdepth u, argument?_convertUsage u⟩
  plain h := convertConstant_plain h

/-- Three annotations, one inside the other, and an array beside the innermost. -/
def threeDeep : Constant :=
  let inmost : Usage := ⟨"Tree", .named "graph.Tree", [("text", .string "oak")]⟩
  let between : Usage :=
    ⟨"Node", .named "graph.Tree.Node", [("value", .nested inmost), ("list", .array [.null])]⟩
  .nested ⟨"Tree", .named "graph.Tree", [("value", .nested between)]⟩

/-- In full two of the three annotations keep their arguments, and the array has no items. -/
theorem constants_cut_tree :
    tree.CutAtTiers threeDeep ∧
      ∃ outer between inmost, (tree.convertConstant .full threeDeep).Chain [outer, between, inmost] ∧
        [outer, between, inmost].map (fun a => a.arguments.length) = [1, 2, 0] ∧
        between.argument? "list" = some (.array []) := by
  refine ⟨constants_cut tree threeDeep, _, _, _, .next (.head _) (.next (.head _) (.last _)), ?_, ?_⟩
  · rfl
  · rfl

end SymbolTable
end SymbolGraph
