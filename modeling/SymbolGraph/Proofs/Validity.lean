/-
# Functions whose signature was found

A function counts as valid when a type was found for what it returns and for each of
its parameters. That looks at the outside of these types only: a class or an array has
a type even if one of its arguments was not found, and the receiver of an extension is
not asked about. So a valid function may print an unknown type in its signature
(`valid_with_missing`). What has to be the case for a signature with nothing unknown in
it is that the receiver, the parameters and the return type resolve, all the way down;
then the function is valid, too.

Key definitions: `Callable.signatureTypes`.
Key theorems: `SymbolTable.validity_of_callable`, `SymbolTable.valid_with_missing`.
-/
import SymbolGraph.Proofs.Resolution

namespace SymbolGraph

/-- The types that the text of a signature names. -/
def Callable.signatureTypes (c : Callable) : List Ty :=
  c.receiverType.toList ++ c.parameters.map (·.type) ++ [c.returnType]

namespace SymbolTable

variable {t : SymbolTable}

/-! ### What the conversion of a function carries -/

/-- The return type of a function was found if it has one and that points at a type. -/
theorem isUnknown_returnType_iff (d : Declaration) (k : CallableShape) :
    (t.returnType d k).isUnknown = false ↔ ∃ r, d.returnType? k = some r ∧ t.PointsAtType r := by
  unfold returnType
  cases d.returnType? k with
  | none => simp
  | some r => simp [isUnknown_signatureType_iff]

theorem found_returnType_iff (d : Declaration) (k : CallableShape) :
    (t.returnType d k).Found ↔ ∃ r, d.returnType? k = some r ∧ t.Resolves r := by
  unfold returnType
  cases d.returnType? k with
  | none => simp [Ty.not_found_unknown]
  | some r => simp [found_signatureType_iff]

/-- The conversion of a function, as far as its signature goes. -/
structure ConvertedSignature (t : SymbolTable) (d : Declaration) (k : CallableShape)
    (c : Callable) : Prop where
  receiverType : c.receiverType = k.receiver.map t.signatureType
  parameterTypes : c.parameters.map (·.type) = k.parameters.map fun p => t.signatureType p.type
  returnType : c.returnType = t.returnType d k
  valid : c.header.valid = true ↔
    (t.returnType d k).isUnknown = false ∧
      ∀ p ∈ k.parameters, (t.signatureType p.type).isUnknown = false

theorem exists_callable? {id : DeclId} {d : Declaration} {k : CallableShape}
    (hd : t.decl? id = some d) (hk : d.asCallable = some k) (depth : Depth) :
    ∃ c, t.callable? depth id = some c ∧ t.ConvertedSignature d k c := by
  refine ⟨_, conversion_eq_some_iff.mpr ⟨d, k, hd, hk, rfl⟩, rfl, ?_, rfl, ?_⟩
  · simp [parameter]
  · simp [parameter]

/-- A function is valid if the references of its return type and of its parameters point
at types. -/
theorem ConvertedSignature.valid_iff {d : Declaration} {k : CallableShape} {c : Callable}
    (h : t.ConvertedSignature d k c) :
    c.header.valid = true ↔
      (∃ r, d.returnType? k = some r ∧ t.PointsAtType r) ∧
        ∀ p ∈ k.parameters, t.PointsAtType p.type := by
  rw [h.valid, isUnknown_returnType_iff]
  simp only [isUnknown_signatureType_iff]

/-- Nothing in a signature is unknown if all its references resolve. -/
theorem ConvertedSignature.found_iff {d : Declaration} {k : CallableShape} {c : Callable}
    (h : t.ConvertedSignature d k c) :
    (∀ s ∈ c.signatureTypes, s.Found) ↔
      (∀ r, k.receiver = some r → t.Resolves r) ∧ (∀ p ∈ k.parameters, t.Resolves p.type) ∧
        ∃ r, d.returnType? k = some r ∧ t.Resolves r := by
  have hreceiver : (∀ s ∈ c.receiverType.toList, s.Found) ↔
      ∀ r, k.receiver = some r → t.Resolves r := by
    rw [h.receiverType]
    cases k.receiver with
    | none => simp
    | some r => simp [found_signatureType_iff]
  have hparameters : (∀ s ∈ c.parameters.map (·.type), s.Found) ↔
      ∀ p ∈ k.parameters, t.Resolves p.type := by
    rw [h.parameterTypes, List.forall_mem_map]
    simp only [found_signatureType_iff]
  have hreturn : (∀ s ∈ [c.returnType], s.Found) ↔
      ∃ r, d.returnType? k = some r ∧ t.Resolves r := by
    rw [List.forall_mem_singleton, h.returnType, found_returnType_iff]
  rw [Callable.signatureTypes, List.forall_mem_append, List.forall_mem_append, hreceiver,
    hparameters, hreturn, and_assoc]

/-! ### Validity -/

/-- **A function is valid exactly if its return type and the types of its parameters were
found**, whatever their arguments and whatever its receiver. **Nothing in its signature is
unknown exactly if the receiver, the parameters and the return type resolve**, and then it
is valid. -/
theorem validity_of_callable {id : DeclId} {d : Declaration} {k : CallableShape}
    (hd : t.decl? id = some d) (hk : d.asCallable = some k) (depth : Depth) :
    ∃ c, t.callable? depth id = some c ∧
      (c.header.valid = true ↔
        (∃ r, d.returnType? k = some r ∧ t.PointsAtType r) ∧
          ∀ p ∈ k.parameters, t.PointsAtType p.type) ∧
      ((∀ s ∈ c.signatureTypes, s.Found) ↔
        (∀ r, k.receiver = some r → t.Resolves r) ∧ (∀ p ∈ k.parameters, t.Resolves p.type) ∧
          ∃ r, d.returnType? k = some r ∧ t.Resolves r) ∧
      ((∀ s ∈ c.signatureTypes, s.Found) → c.header.valid = true) := by
  obtain ⟨c, hc, hsignature⟩ := exists_callable? hd hk depth
  refine ⟨c, hc, hsignature.valid_iff, hsignature.found_iff, fun hfound => ?_⟩
  obtain ⟨-, hparameters, r, hr, hreturn⟩ := hsignature.found_iff.mp hfound
  exact hsignature.valid_iff.mpr
    ⟨⟨r, hr, hreturn.pointsAtType⟩, fun p hp => (hparameters p hp).pointsAtType⟩

/-- A declaration that is a function. -/
theorem exists_asCallable {id : DeclId}
    (h : ((t.decl? id).bind (·.asCallable)).isSome = true) :
    ∃ d k, t.decl? id = some d ∧ d.asCallable = some k := by
  obtain ⟨k, hk⟩ := Option.isSome_iff_exists.mp h
  obtain ⟨d, hd, hdk⟩ := Option.bind_eq_some_iff.mp hk
  exact ⟨d, k, hd, hdk⟩

/-- In the table `tree` the function `walk` returns what nobody declared, so it is not
valid, and something in its signature is unknown. -/
theorem validity_of_callable_tree : ∃ d k c, tree.decl? 17 = some d ∧ d.asCallable = some k ∧
    tree.callable? .full 17 = some c ∧ c.header.valid = false ∧
    ∃ s ∈ c.signatureTypes, ¬ s.Found := by
  have hreturn : ∀ d ∈ tree.decl? 17, ∀ k ∈ d.asCallable, ∀ r ∈ d.returnType? k,
      ¬ tree.PointsAtType r := by decide +kernel
  obtain ⟨d, k, hd, hk⟩ : ∃ d k, tree.decl? 17 = some d ∧ d.asCallable = some k :=
    exists_asCallable (by decide +kernel)
  obtain ⟨c, hc, hvalid, -, hfound⟩ := validity_of_callable hd hk .full
  have hinvalid : ¬ c.header.valid = true := by
    rw [hvalid]
    rintro ⟨⟨r, hr, htype⟩, -⟩
    exact hreturn d hd k hk r hr htype
  have hsome : ¬ ∀ s ∈ c.signatureTypes, s.Found := fun hall => hinvalid (hfound hall)
  refine ⟨d, k, c, hd, hk, hc, Bool.not_eq_true _ ▸ hinvalid, ?_⟩
  simpa using hsome

/-! ### Valid functions with something unknown in the signature -/

/-- The changes that make the table `missing`. -/
def missingChanges : List Change :=
  [.addFile "src/Tag.kt" "shop",
   .declare (.file 0)
     ((Draft.function "tag" [] (some (.named "kotlin.Unit"))).withReceiver (.named "lib.Missing")),
   .declare (.file 0)
     (Draft.function "all" []
       (some ⟨.named "kotlin.Array", [⟨.invariant, some (.named "lib.Missing")⟩], false, []⟩))]

/-- A file with an extension of a class nobody declared, and a function that returns an
array of it. -/
def missing : SymbolTable := builtin.run missingChanges

theorem reachable_missing : Reachable missing := ⟨missingChanges, rfl⟩

/-- **A function can be valid with an unknown type in its signature**: as the receiver, or
inside the return type. The text of the signature shows it. -/
theorem valid_with_missing : Reachable missing ∧
    (∀ depth, ∃ c, missing.callable? depth 14 = some c ∧ c.header.valid = true ∧
      (∃ s ∈ c.receiverType, s.isUnknown = true) ∧
      c.signature = "<unknown>.tag(): kotlin.Unit") ∧
    ∀ depth, ∃ c, missing.callable? depth 15 = some c ∧ c.header.valid = true ∧
      (∃ s, c.returnType.Contains s ∧ s.isUnknown = true) ∧
      c.signature = "all(): kotlin.Array<<unknown>>" := by
  have houtside : ∀ id ∈ [14, 15], ∀ d ∈ missing.decl? id, ∀ k ∈ d.asCallable,
      (∃ r ∈ d.returnType? k, missing.PointsAtType r) ∧
        ∀ p ∈ k.parameters, missing.PointsAtType p.type := by decide +kernel
  have hreceiver : ∀ d ∈ missing.decl? 14, ∀ k ∈ d.asCallable,
      ∃ r ∈ k.receiver, ¬ missing.PointsAtType r := by decide +kernel
  have hcomponent : ∀ d ∈ missing.decl? 15, ∀ k ∈ d.asCallable, ∃ r ∈ d.returnType? k,
      ∃ e ∈ missing.target? r, ∃ a ∈ e.typeKind.kept r.arguments, ∃ s ∈ a.asked?,
        ¬ missing.PointsAtType s := by decide +kernel
  have htext : ∀ depth,
      (missing.callable? depth 14).map Callable.signature = some "<unknown>.tag(): kotlin.Unit" ∧
      (missing.callable? depth 15).map Callable.signature =
        some "all(): kotlin.Array<<unknown>>" := by
    intro depth
    cases depth <;> decide +kernel
  refine ⟨reachable_missing, fun depth => ?_, fun depth => ?_⟩
  · obtain ⟨d, k, hd, hk⟩ : ∃ d k, missing.decl? 14 = some d ∧ d.asCallable = some k :=
      exists_asCallable (by decide +kernel)
    obtain ⟨c, hc, hsignature⟩ := exists_callable? hd hk depth
    obtain ⟨r, hr, hnone⟩ := hreceiver d hd k hk
    have hvalid := hsignature.valid_iff.mpr (houtside 14 (by simp) d hd k hk)
    have hsome := (htext depth).1
    rw [hc, Option.map_some, Option.some.injEq] at hsome
    refine ⟨c, hc, hvalid, ⟨missing.signatureType r, ?_, ?_⟩, hsome⟩
    · rw [hsignature.receiverType, hr]
      rfl
    · rwa [← isUnknown_signatureType_iff, Bool.not_eq_false] at hnone
  · obtain ⟨d, k, hd, hk⟩ : ∃ d k, missing.decl? 15 = some d ∧ d.asCallable = some k :=
      exists_asCallable (by decide +kernel)
    obtain ⟨c, hc, hsignature⟩ := exists_callable? hd hk depth
    obtain ⟨r, hr, e, he, a, ha, s, hs, hnone⟩ := hcomponent d hd k hk
    have hvalid := hsignature.valid_iff.mpr (houtside 15 (by simp) d hd k hk)
    have hnotfound : ¬ c.returnType.Found := by
      rw [hsignature.returnType, found_returnType_iff]
      rintro ⟨r', hr', hresolves⟩
      have heq : r' = r := Option.some.inj (hr'.symm.trans hr)
      subst heq
      exact hnone (hresolves.argument he ha hs).pointsAtType
    have hsome := (htext depth).2
    rw [hc, Option.map_some, Option.some.injEq] at hsome
    exact ⟨c, hc, hvalid, Ty.not_found_iff.mp hnotfound, hsome⟩

end SymbolTable
end SymbolGraph
