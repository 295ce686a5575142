/-
# Options read from arguments

An argument sets an option if there is an equal sign in it, with something that is not blank
in front of the first one. What stands in front, without the blanks at its ends, is the key,
and all behind the sign is the value, as it is written (`Options.Sets`). Reading fails exactly
if there is an argument that sets none, and with the first one.

Arguments are read one after the other, so what the options hold is an invariant of the
reading (`Options.ReadFrom`): every key that was set is there once, a key stands in front of
another if it was set before that was set at all, and has the value that it was set to last.
One more argument keeps this (`Options.ReadFrom.set`). A key that comes again keeps its place,
so nothing moves; a new one goes behind all others, which were all set before it.

A key is trimmed and has no equal sign in it. So if options are written out as arguments, each
of these sets the option that it was made of, and reading them gives the options again.

Key definitions: `Text.IsTrimmed`, `Options.Sets`, `Options.IsOption`, `Options.LastSets`,
`Options.FirstBefore`, `Options.ReadFrom`, `Options.toArguments`.
Key theorems: `Text.trim_eq_iff`, `Options.pair?_eq_ok_iff`, `Options.ReadFrom.set`,
`Options.parse_cases`, `Options.arguments_read`.
-/
import Mathlib.Data.List.Induction
import Mathlib.Data.List.Nodup
import Mathlib.Data.List.TakeWhile
import SymbolGraph.Options

namespace SymbolGraph

/-! ### Trimming -/

namespace Text

/-- The text `core` is the text `cs` without the blanks at its ends. -/
structure IsTrimmed (cs core : List Char) : Prop where
  around : ∃ left right, cs = left ++ (core ++ right) ∧
    (∀ c ∈ left, isBlank c = true) ∧ ∀ c ∈ right, isBlank c = true
  first : ∀ c, core.head? = some c → isBlank c = false
  last : ∀ c, core.getLast? = some c → isBlank c = false

/-- Blanks in front of what does not begin with one are all that is dropped. -/
theorem dropWhile_blanks {left rest : List Char} (hleft : ∀ c ∈ left, isBlank c = true)
    (hrest : ∀ c, rest.head? = some c → isBlank c = false) :
    (left ++ rest).dropWhile isBlank = rest := by
  rw [List.dropWhile_append_of_pos hleft]
  cases rest with
  | nil => rfl
  | cons c rest => rw [List.dropWhile_cons_of_neg (by simp [hrest c rfl])]

theorem head?_dropWhile_blanks (cs : List Char) :
    ∀ c, (cs.dropWhile isBlank).head? = some c → isBlank c = false := by
  intro c hc
  have h := List.head?_dropWhile_not isBlank cs
  rwa [hc] at h

theorem isTrimmed_trim (cs : List Char) : IsTrimmed cs (trim cs) := by
  let inner := cs.dropWhile isBlank
  let right := (inner.reverse.takeWhile isBlank).reverse
  have hinner : inner = trim cs ++ right := by
    have hback : inner.reverse.takeWhile isBlank ++ inner.reverse.dropWhile isBlank =
        inner.reverse := List.takeWhile_append_dropWhile
    calc inner = inner.reverse.reverse := inner.reverse_reverse.symm
      _ = trim cs ++ right := by rw [← hback, List.reverse_append]; rfl
  refine ⟨⟨cs.takeWhile isBlank, right, ?_, ?_, ?_⟩, ?_, ?_⟩
  · rw [← hinner]
    exact List.takeWhile_append_dropWhile.symm
  · exact fun c hc => List.mem_takeWhile_imp hc
  · exact fun c hc => List.mem_takeWhile_imp (List.mem_reverse.mp hc)
  · -- what is left begins as the text without its leading blanks does
    intro c hc
    have hhead : inner.head? = some c := by
      rw [hinner, List.head?_append, hc, Option.some_or]
    exact head?_dropWhile_blanks cs c hhead
  · intro c hc
    rw [trim, List.getLast?_reverse] at hc
    exact head?_dropWhile_blanks inner.reverse c hc

/-- **Trimming takes off exactly the blanks at the ends.** -/
theorem trim_eq_iff {cs core : List Char} : trim cs = core ↔ IsTrimmed cs core := by
  constructor
  · rintro rfl
    exact isTrimmed_trim cs
  · rintro ⟨⟨left, right, rfl, hleft, hright⟩, hfirst, hlast⟩
    unfold trim
    cases core with
    | nil =>
      have hblank : ∀ c ∈ left ++ right, isBlank c = true :=
        List.forall_mem_append.mpr ⟨hleft, hright⟩
      have hnone : (left ++ right).dropWhile isBlank = [] :=
        List.dropWhile_eq_nil_iff.mpr hblank
      rw [List.nil_append, hnone]
      rfl
    | cons c core =>
      have hfront : (left ++ (c :: core ++ right)).dropWhile isBlank = c :: core ++ right :=
        dropWhile_blanks hleft hfirst
      have hback : (right.reverse ++ (c :: core).reverse).dropWhile isBlank =
          (c :: core).reverse := by
        refine dropWhile_blanks (fun d hd => hright d (List.mem_reverse.mp hd)) fun d hd => ?_
        exact hlast d (List.head?_reverse ▸ hd)
      rw [hfront, List.reverse_append, hback, List.reverse_reverse]

theorem trim_eq_nil_iff {cs : List Char} : trim cs = [] ↔ ∀ c ∈ cs, isBlank c = true := by
  rw [trim_eq_iff]
  constructor
  · rintro ⟨⟨left, right, rfl, hleft, hright⟩, -, -⟩
    exact List.forall_mem_append.mpr ⟨hleft, hright⟩
  · intro h
    exact ⟨⟨cs, [], by simp, h, by simp⟩, by simp, by simp⟩

/-- Trimmed text has nothing more to trim. -/
theorem IsTrimmed.again {cs core : List Char} (h : IsTrimmed cs core) : IsTrimmed core core :=
  ⟨⟨[], [], by simp, by simp, by simp⟩, h.first, h.last⟩

theorem IsTrimmed.mem {cs core : List Char} (h : IsTrimmed cs core) {c : Char} (hc : c ∈ core) :
    c ∈ cs := by
  obtain ⟨left, right, rfl, -, -⟩ := h.around
  exact List.mem_append_right _ (List.mem_append_left _ hc)

end Text

/-! ### One argument -/

theorem cutAtFirst_eq_some_iff {mark : Char} {cs before after : List Char} :
    cutAtFirst mark cs = some (before, after) ↔ mark ∉ before ∧ cs = before ++ mark :: after := by
  constructor
  · intro h
    induction cs generalizing before with
    | nil => exact absurd h (by simp [cutAtFirst])
    | cons c cs ih =>
      unfold cutAtFirst at h
      by_cases hc : c = mark
      · rw [if_pos hc] at h
        obtain ⟨rfl, rfl⟩ := Prod.mk.inj (Option.some.inj h)
        exact ⟨List.not_mem_nil, by rw [hc, List.nil_append]⟩
      · rw [if_neg hc] at h
        obtain ⟨⟨front, rest⟩, hrest, heq⟩ := Option.map_eq_some_iff.mp h
        obtain ⟨rfl, rfl⟩ := Prod.mk.inj heq
        obtain ⟨hmark, rfl⟩ := ih hrest
        exact ⟨by simp [Ne.symm hc, hmark], rfl⟩
  · rintro ⟨hmark, rfl⟩
    exact cutAtFirst_append mark after before hmark

namespace Options

/-- The argument sets the option: its text in front of the first equal sign is the key, but for
blanks at the ends, and its text behind the sign is the value. -/
def Sets (argument key value : String) : Prop :=
  ∃ before, argument.toList = before ++ '=' :: value.toList ∧ '=' ∉ before ∧
    Text.IsTrimmed before key.toList ∧ key ≠ ""

/-- The argument sets the option of the key. -/
def SetsKey (argument key : String) : Prop := ∃ value, Sets argument key value

/-- The argument has an equal sign, and something that is not blank in front of the first one. -/
def IsOption (argument : String) : Prop :=
  ∃ before after, argument.toList = before ++ '=' :: after ∧ '=' ∉ before ∧
    ∃ c ∈ before, Text.isBlank c = false

theorem pair?_of_cut {argument : String} {before after : List Char}
    (h : argument.toList = before ++ '=' :: after) (hbefore : '=' ∉ before) :
    pair? argument =
      if (Text.trim before).isEmpty then .error (.invalidOption argument)
      else .ok (String.ofList (Text.trim before), String.ofList after) := by
  have hcut : cutAtFirst '=' argument.toList = some (before, after) :=
    cutAtFirst_eq_some_iff.mpr ⟨hbefore, h⟩
  unfold pair?
  rw [hcut]

/-- **An argument is read as the option that it sets.** -/
theorem pair?_eq_ok_iff {argument key value : String} :
    pair? argument = .ok (key, value) ↔ Sets argument key value := by
  constructor
  · intro h
    cases hcut : cutAtFirst '=' argument.toList with
    | none => exact absurd h (by simp [pair?, hcut])
    | some cut =>
      obtain ⟨before, after⟩ := cut
      obtain ⟨hbefore, htext⟩ := cutAtFirst_eq_some_iff.mp hcut
      rw [pair?_of_cut htext hbefore] at h
      by_cases hempty : (Text.trim before).isEmpty
      · exact absurd h (by simp [hempty])
      · rw [if_neg hempty] at h
        obtain ⟨rfl, rfl⟩ := Prod.mk.inj (Except.ok.inj h)
        have hkey : String.ofList (Text.trim before) ≠ "" := by
          rwa [Ne, String.ofList_eq_empty_iff, ← List.isEmpty_iff]
        refine ⟨before, by rw [String.toList_ofList]; exact htext, hbefore, ?_, hkey⟩
        rw [String.toList_ofList]
        exact Text.isTrimmed_trim before
  · rintro ⟨before, htext, hbefore, htrim, hkey⟩
    have hnonempty : ¬ key.toList.isEmpty := by
      rwa [List.isEmpty_iff, String.toList_eq_nil_iff]
    rw [pair?_of_cut htext hbefore, Text.trim_eq_iff.mpr htrim, if_neg hnonempty,
      String.ofList_toList, String.ofList_toList]

theorem pair?_of_not_isOption {argument : String} (h : ¬ IsOption argument) :
    pair? argument = .error (.invalidOption argument) := by
  cases hcut : cutAtFirst '=' argument.toList with
  | none =>
    unfold pair?
    rw [hcut]
  | some cut =>
    obtain ⟨before, after⟩ := cut
    obtain ⟨hbefore, htext⟩ := cutAtFirst_eq_some_iff.mp hcut
    have hblank : ∀ c ∈ before, Text.isBlank c = true := by
      intro c hc
      by_contra hnot
      exact h ⟨before, after, htext, hbefore, c, hc, eq_false_of_ne_true hnot⟩
    rw [pair?_of_cut htext hbefore, Text.trim_eq_nil_iff.mpr hblank]
    rfl

/-- The arguments that set an option are those with a key that is not blank. -/
theorem isOption_iff {argument : String} :
    IsOption argument ↔ ∃ key value, Sets argument key value := by
  constructor
  · rintro ⟨before, after, htext, hbefore, c, hc, hnot⟩
    have hnonempty : ¬ (Text.trim before).isEmpty := by
      rw [List.isEmpty_iff, Text.trim_eq_nil_iff]
      exact fun hblank => absurd (hblank c hc) (by simp [hnot])
    have hpair := pair?_of_cut htext hbefore
    rw [if_neg hnonempty] at hpair
    exact ⟨_, _, pair?_eq_ok_iff.mp hpair⟩
  · rintro ⟨key, value, hsets⟩
    by_contra hnot
    have herror := pair?_of_not_isOption hnot
    exact absurd (herror.symm.trans (pair?_eq_ok_iff.mpr hsets)) (by simp)

/-- An argument sets one option only. -/
theorem Sets.unique {argument key value key' value' : String} (h : Sets argument key value)
    (h' : Sets argument key' value') : key = key' ∧ value = value' := by
  have hpair : pair? argument = .ok (key, value) := pair?_eq_ok_iff.mpr h
  have hpair' : pair? argument = .ok (key', value') := pair?_eq_ok_iff.mpr h'
  exact Prod.mk.inj (Except.ok.inj (hpair.symm.trans hpair'))

/-! ### One argument after the other -/

theorem pairs?_append_singleton (arguments : List String) (argument : String) :
    pairs? (arguments ++ [argument]) =
      (pairs? arguments).bind fun ps => (pair? argument).map fun p => ps ++ [p] := by
  induction arguments with
  | nil =>
    rw [List.nil_append, pairs?, pairs?]
    cases pair? argument <;> rfl
  | cons first rest ih =>
    rw [List.cons_append, pairs?, pairs?, ih]
    cases pair? first with
    | error f => rfl
    | ok p =>
      cases pairs? rest with
      | error f => rfl
      | ok ps => cases pair? argument <;> rfl

theorem ofPairs_append_singleton (ps : List (String × String)) (p : String × String) :
    ofPairs (ps ++ [p]) = (ofPairs ps).set p.1 p.2 := by
  rw [ofPairs, Keyed.ofList, List.foldl_append]
  rfl

/-- One more argument sets one more option. -/
theorem parse_append_singleton (arguments : List String) (argument : String) :
    parse (arguments ++ [argument]) =
      (parse arguments).bind fun o => (pair? argument).map fun p => o.set p.1 p.2 := by
  rw [parse, parse, pairs?_append_singleton]
  cases pairs? arguments with
  | error f => rfl
  | ok ps =>
    cases pair? argument with
    | error f => rfl
    | ok p => exact congrArg Except.ok (ofPairs_append_singleton ps p)

theorem parse_append_of_error {arguments : List String} {f : Failure}
    (h : parse arguments = .error f) (more : List String) :
    parse (arguments ++ more) = .error f := by
  induction more using List.reverseRecOn with
  | nil => rwa [List.append_nil]
  | append_singleton more argument ih =>
    rw [← List.append_assoc, parse_append_singleton, ih]
    rfl

/-! ### What is read -/

/-- The keys of the options, in order. -/
def keys (o : Options) : List String := o.entries.map Prod.fst

/-- The last of the arguments that sets an option of the key sets it to the value. -/
def LastSets (arguments : List String) (key value : String) : Prop :=
  ∃ before argument after, arguments = before ++ argument :: after ∧ Sets argument key value ∧
    ∀ later ∈ after, ¬ SetsKey later key

/-- One of the arguments sets the key `key`, and none up to it sets the key `key'`. -/
def FirstBefore (arguments : List String) (key key' : String) : Prop :=
  ∃ before argument after, arguments = before ++ argument :: after ∧ SetsKey argument key ∧
    ∀ earlier ∈ before ++ [argument], ¬ SetsKey earlier key'

/-- The options hold what the arguments set. -/
structure ReadFrom (o : Options) (arguments : List String) : Prop where
  mem_keys : ∀ key, key ∈ o.keys ↔ ∃ argument ∈ arguments, SetsKey argument key
  nodup : o.keys.Nodup
  order : o.keys.Pairwise (FirstBefore arguments)
  value : ∀ key value, o.get? key = some value ↔ LastSets arguments key value

theorem lastSets_append_singleton {arguments : List String} {argument key value : String} :
    LastSets (arguments ++ [argument]) key value ↔
      Sets argument key value ∨ ¬ SetsKey argument key ∧ LastSets arguments key value := by
  constructor
  · rintro ⟨before, setter, after, heq, hsets, hlater⟩
    rcases List.eq_nil_or_concat after with rfl | ⟨after', last, rfl⟩
    · obtain ⟨-, rfl⟩ := List.append_singleton_inj.mp heq
      exact Or.inl hsets
    · rw [List.concat_eq_append] at heq hlater
      have hsplit : arguments ++ [argument] = (before ++ setter :: after') ++ [last] := by
        rw [heq, List.append_assoc, List.cons_append]
      obtain ⟨rfl, rfl⟩ := List.append_singleton_inj.mp hsplit
      refine Or.inr ⟨hlater argument (by simp), before, setter, after', rfl, hsets, ?_⟩
      exact fun later h => hlater later (List.mem_append_left _ h)
  · rintro (hsets | ⟨hnot, before, setter, after, rfl, hsets, hlater⟩)
    · exact ⟨arguments, argument, [], rfl, hsets, by simp⟩
    · refine ⟨before, setter, after ++ [argument], by simp, hsets, ?_⟩
      exact List.forall_mem_append.mpr ⟨hlater, List.forall_mem_singleton.mpr hnot⟩

theorem FirstBefore.append {arguments : List String} {key key' : String}
    (h : FirstBefore arguments key key') (more : List String) :
    FirstBefore (arguments ++ more) key key' := by
  obtain ⟨before, argument, after, rfl, hsets, hnot⟩ := h
  exact ⟨before, argument, after ++ more, by simp, hsets, hnot⟩

theorem keys_set (o : Options) (key value : String) :
    (o.set key value).keys = if key ∈ o.keys then o.keys else o.keys ++ [key] :=
  Keyed.keys_insert key value o.entries

theorem get?_set (o : Options) (key value k : String) :
    (o.set key value).get? k = if k = key then some value else o.get? k :=
  Keyed.lookup_insert key k value o.entries

theorem mem_keys_set {o : Options} {key value k : String} :
    k ∈ (o.set key value).keys ↔ k ∈ o.keys ∨ k = key := by
  rw [keys_set]
  by_cases hkey : key ∈ o.keys
  · rw [if_pos hkey]
    constructor
    · exact Or.inl
    · rintro (hk | rfl)
      · exact hk
      · exact hkey
  · rw [if_neg hkey, List.mem_append, List.mem_singleton]

/-- **One more argument**: the options go on to hold what the arguments set. -/
theorem ReadFrom.set {o : Options} {arguments : List String} (h : o.ReadFrom arguments)
    {argument key value : String} (hsets : Sets argument key value) :
    (o.set key value).ReadFrom (arguments ++ [argument]) := by
  have honly : ∀ k, SetsKey argument k ↔ k = key := by
    intro k
    constructor
    · rintro ⟨v, hv⟩
      exact (hv.unique hsets).1
    · rintro rfl
      exact ⟨value, hsets⟩
  have hold : o.keys.Pairwise (FirstBefore (arguments ++ [argument])) :=
    h.order.imp fun hkeys => hkeys.append [argument]
  refine ⟨fun k => ?_, ?_, ?_, fun k v => ?_⟩
  · rw [mem_keys_set, h.mem_keys, ← honly]
    simp [or_and_right, exists_or]
  · rw [keys_set]
    by_cases hkey : key ∈ o.keys
    · rw [if_pos hkey]
      exact h.nodup
    · rw [if_neg hkey, List.nodup_append]
      refine ⟨h.nodup, List.nodup_singleton key, fun k hk k' hk' heq => hkey ?_⟩
      rwa [← List.mem_singleton.mp hk', ← heq]
  · rw [keys_set]
    by_cases hkey : key ∈ o.keys
    · rw [if_pos hkey]
      exact hold
    · -- a new key: nothing set it before, and all other keys were set
      rw [if_neg hkey, List.pairwise_append]
      refine ⟨hold, List.pairwise_singleton _ key, fun k hk k' hk' => ?_⟩
      obtain rfl := List.mem_singleton.mp hk'
      obtain ⟨setter, hsetter, hk⟩ := (h.mem_keys k).mp hk
      obtain ⟨before, after, rfl⟩ := List.append_of_mem hsetter
      refine ⟨before, setter, after ++ [argument], by simp, hk, fun earlier hearlier hset => ?_⟩
      refine hkey ((h.mem_keys k').mpr ⟨earlier, ?_, hset⟩)
      rw [← List.singleton_append, ← List.append_assoc]
      exact List.mem_append_left _ hearlier
  · rw [get?_set, lastSets_append_singleton, honly]
    by_cases hk : k = key
    · subst hk
      rw [if_pos rfl, Option.some.injEq]
      constructor
      · rintro rfl
        exact Or.inl hsets
      · rintro (hv | ⟨hnot, -⟩)
        · exact (hsets.unique hv).2
        · exact absurd rfl hnot
    · have hnot : ¬ Sets argument k v := fun hv => hk (hv.unique hsets).1
      rw [if_neg hk, h.value, or_iff_right hnot, and_iff_right hk]

theorem readFrom_nil : empty.ReadFrom [] := by
  refine ⟨fun key => ?_, List.nodup_nil, List.Pairwise.nil, fun key value => ?_⟩
  · exact iff_of_false List.not_mem_nil (by simp)
  · refine iff_of_false (by simp [empty, get?]) ?_
    rintro ⟨before, argument, after, heq, -, -⟩
    exact absurd heq (by simp)

/-- **Reading goes through**, and the options hold what the arguments set, **or it fails** with the
first argument that sets no option. -/
theorem parse_cases (arguments : List String) :
    (∃ o, parse arguments = .ok o ∧ o.ReadFrom arguments ∧ ∀ a ∈ arguments, IsOption a) ∨
      ∃ before argument after, arguments = before ++ argument :: after ∧
        (∀ a ∈ before, IsOption a) ∧ ¬ IsOption argument ∧
        parse arguments = .error (.invalidOption argument) := by
  induction arguments using List.reverseRecOn with
  | nil => exact Or.inl ⟨empty, rfl, readFrom_nil, by simp⟩
  | append_singleton arguments argument ih =>
    rcases ih with ⟨o, hparse, hread, hall⟩ | ⟨before, bad, after, rfl, hall, hbad, hparse⟩
    · have hstep := parse_append_singleton arguments argument
      rw [hparse] at hstep
      by_cases hoption : IsOption argument
      · obtain ⟨key, value, hsets⟩ := isOption_iff.mp hoption
        rw [pair?_eq_ok_iff.mpr hsets] at hstep
        refine Or.inl ⟨o.set key value, hstep, hread.set hsets, ?_⟩
        exact List.forall_mem_append.mpr ⟨hall, List.forall_mem_singleton.mpr hoption⟩
      · rw [pair?_of_not_isOption hoption] at hstep
        exact Or.inr ⟨arguments, argument, [], rfl, hall, hoption, hstep⟩
    · refine Or.inr ⟨before, bad, after ++ [argument], by simp, hall, hbad, ?_⟩
      exact parse_append_of_error hparse [argument]

/-- What is read is what the arguments set. -/
theorem readFrom_of_parse {arguments : List String} {o : Options} (h : parse arguments = .ok o) :
    o.ReadFrom arguments := by
  rcases parse_cases arguments with ⟨o', hparse, hread, -⟩ | ⟨_, _, _, _, _, _, hparse⟩
  · rwa [← Except.ok.inj (hparse.symm.trans h)]
  · exact absurd (hparse.symm.trans h) (by simp)

theorem exists_parse_iff {arguments : List String} :
    (∃ o, parse arguments = .ok o) ↔ ∀ a ∈ arguments, IsOption a := by
  rcases parse_cases arguments with
    ⟨o, hparse, -, hall⟩ | ⟨before, bad, after, rfl, -, hbad, hparse⟩
  · exact iff_of_true ⟨o, hparse⟩ hall
  · refine iff_of_false ?_ fun hall => hbad (hall bad (by simp))
    rintro ⟨o, ho⟩
    exact absurd (hparse.symm.trans ho) (by simp)

/-- Reading stops at the first argument that sets no option. -/
theorem parse_of_first_bad {before after : List String} {bad : String}
    (hbefore : ∀ a ∈ before, IsOption a) (hbad : ¬ IsOption bad) :
    parse (before ++ bad :: after) = .error (.invalidOption bad) := by
  obtain ⟨o, ho⟩ := exists_parse_iff.mpr hbefore
  have hstop : parse (before ++ [bad]) = .error (.invalidOption bad) := by
    rw [parse_append_singleton, ho, pair?_of_not_isOption hbad]
    rfl
  have heq : before ++ bad :: after = (before ++ [bad]) ++ after := by simp
  rw [heq]
  exact parse_append_of_error hstop after

theorem parse_eq_error_iff {arguments : List String} {f : Failure} :
    parse arguments = .error f ↔
      ∃ before bad after, arguments = before ++ bad :: after ∧ (∀ a ∈ before, IsOption a) ∧
        ¬ IsOption bad ∧ f = .invalidOption bad := by
  constructor
  · intro h
    rcases parse_cases arguments with
      ⟨o, hparse, -, -⟩ | ⟨before, bad, after, heq, hall, hbad, hparse⟩
    · exact absurd (hparse.symm.trans h) (by simp)
    · exact ⟨before, bad, after, heq, hall, hbad, Except.error.inj (h.symm.trans hparse)⟩
  · rintro ⟨before, bad, after, rfl, hall, hbad, rfl⟩
    exact parse_of_first_bad hall hbad

/-- The options that are set are those whose keys are there. -/
theorem get?_eq_none_iff {o : Options} {key : String} : o.get? key = none ↔ key ∉ o.keys := by
  rw [get?, List.lookup_eq_none_iff, keys, List.mem_map]
  constructor
  · rintro h ⟨p, hp, rfl⟩
    exact absurd rfl (bne_iff_ne.mp (h p hp))
  · intro h p hp
    exact bne_iff_ne.mpr fun heq => h ⟨p, hp, heq.symm⟩

/-- The options in order are the keys with their values. -/
theorem mem_entries_iff {o : Options} (h : o.keys.Nodup) {key value : String} :
    (key, value) ∈ o.entries ↔ o.get? key = some value := by
  rw [get?, List.lookup_eq_some_iff]
  constructor
  · intro hmem
    obtain ⟨before, after, heq⟩ := List.append_of_mem hmem
    refine ⟨before, after, heq, fun p hp => bne_iff_ne.mpr fun hkey => ?_⟩
    rw [keys, heq, List.map_append, List.nodup_append] at h
    exact h.2.2 p.1 (List.mem_map_of_mem hp) key (by simp) hkey.symm
  · rintro ⟨before, after, heq, -⟩
    rw [heq]
    simp

/-! ### Written out again -/

/-- An option as an argument. -/
def toArgument (option : String × String) : String := option.1 ++ "=" ++ option.2

/-- The options as arguments, in order. -/
def toArguments (o : Options) : List String := o.entries.map toArgument

/-- A key that was read can be written: it has no blanks at its ends and no equal sign. -/
theorem SetsKey.sets_toArgument {argument key : String} (h : SetsKey argument key)
    (value : String) : Sets (toArgument (key, value)) key value := by
  obtain ⟨-, before, -, hbefore, htrim, hkey⟩ := h
  refine ⟨key.toList, ?_, fun hmark => hbefore (htrim.mem hmark), htrim.again, hkey⟩
  simp [toArgument]

/-- **Options that are written out are read again**, if their keys are such as can be read. -/
theorem parse_map_toArgument (options : List (String × String))
    (hnodup : (options.map Prod.fst).Nodup)
    (hkeys : ∀ option ∈ options, ∃ argument, SetsKey argument option.1) :
    parse (options.map toArgument) = .ok ⟨options⟩ := by
  induction options using List.reverseRecOn with
  | nil => rfl
  | append_singleton options option ih =>
    rw [List.map_append, List.nodup_append] at hnodup
    rw [List.forall_mem_append, List.forall_mem_singleton] at hkeys
    obtain ⟨hfront, -, hnew⟩ := hnodup
    obtain ⟨hbefore, argument, hset⟩ := hkeys
    have hpair : pair? (toArgument option) = .ok option :=
      pair?_eq_ok_iff.mpr (hset.sets_toArgument option.2)
    have hlast : Keyed.insert option.1 option.2 options = options ++ [option] :=
      Keyed.insert_of_not_mem fun hmem => hnew _ hmem option.1 (by simp) rfl
    rw [List.map_append, List.map_singleton, parse_append_singleton, ih hfront hbefore, hpair]
    exact congrArg (fun entries => Except.ok (Options.mk entries)) hlast

theorem parse_toArguments {arguments : List String} {o : Options}
    (h : parse arguments = .ok o) : parse o.toArguments = .ok o := by
  have hread := readFrom_of_parse h
  refine parse_map_toArgument o.entries hread.nodup fun option hoption => ?_
  obtain ⟨argument, -, hset⟩ := (hread.mem_keys option.1).mp (List.mem_map_of_mem hoption)
  exact ⟨argument, hset⟩

/-- **Options are what their arguments set.** Reading goes through exactly if every argument sets an
option, and fails otherwise with the first that does not. What is read has each key that was set
once, in the order in which the keys were set first, with the value that the last argument for it
sets, and none for the other keys; and written out as arguments it is read again. -/
theorem arguments_read (arguments : List String) :
    ((∃ o, parse arguments = .ok o) ↔ ∀ a ∈ arguments, IsOption a) ∧
      (∀ f, parse arguments = .error f ↔
        ∃ before bad after, arguments = before ++ bad :: after ∧ (∀ a ∈ before, IsOption a) ∧
          ¬ IsOption bad ∧ f = .invalidOption bad) ∧
      ∀ o, parse arguments = .ok o →
        o.ReadFrom arguments ∧
          (∀ key, o.get? key = none ↔ ∀ a ∈ arguments, ¬ SetsKey a key) ∧
          (∀ key value, (key, value) ∈ o.entries ↔ o.get? key = some value) ∧
          parse o.toArguments = .ok o := by
  refine ⟨exists_parse_iff, fun f => parse_eq_error_iff, fun o ho => ?_⟩
  have hread := readFrom_of_parse ho
  refine ⟨hread, fun key => ?_, fun key value => mem_entries_iff hread.nodup, parse_toArguments ho⟩
  rw [get?_eq_none_iff, hread.mem_keys]
  simp

/-- The last argument for the key `room.schema` counts, with the blank at its end, and the option
stays in front of `debug`. With a bare word behind them the arguments are not read. -/
theorem arguments_read_schema :
    let arguments := [" room.schema\t=a=b", "debug=", "room.schema=c= "]
    let o : Options := ⟨[("room.schema", "c= "), ("debug", "")]⟩
    parse arguments = .ok o ∧ (∀ a ∈ arguments, IsOption a) ∧ o.ReadFrom arguments ∧
      o.get? "room" = none ∧ parse o.toArguments = .ok o ∧
      ∀ more, parse (arguments ++ "verbose" :: more) = .error (.invalidOption "verbose") := by
  intro arguments o
  have hparse : parse arguments = .ok o := by decide +kernel
  obtain ⟨hall, -, hread⟩ := arguments_read arguments
  obtain ⟨hread, -, -, hagain⟩ := hread o hparse
  have hoptions : ∀ a ∈ arguments, IsOption a := hall.mp ⟨o, hparse⟩
  have hbare : ¬ IsOption "verbose" := by
    rintro ⟨before, after, htext, -, -⟩
    have hmark : '=' ∈ "verbose".toList := by simp [htext]
    exact absurd hmark (by decide)
  refine ⟨hparse, hoptions, hread, by decide +kernel, hagain, fun more => ?_⟩
  exact ((arguments_read (arguments ++ "verbose" :: more)).2.1 _).mpr
    ⟨arguments, "verbose", more, rfl, hoptions, hbare, rfl⟩

end Options
end SymbolGraph
