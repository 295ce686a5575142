/-
# What each conversion reads

A conversion looks its declaration up, asks whether it is of the kind it
converts, and puts the element together. So it answers exactly for the
declarations of its kind (`conversion_eq_some_iff`), and a declaration of any
kind has an element of that kind (`exists_element?`), at every depth. But for
its members and its validity, the header of the element is the declaration's
(`header?_of_element?`).

Key definitions: `Element.OfShape`, `HeadedBy`.
Key theorems: `conversion_eq_some_iff`, `member?_cases`, `element?_cases`,
`exists_element?`, `header?_of_element?`.
-/
import SymbolGraph.Conversion
import SymbolGraph.Proofs.Growth

namespace SymbolGraph

/-- The element is of the sort that a declaration of the shape has. -/
def Element.OfShape : Element → Shape → Prop
  | .classLike _, .classLike _ | .callable _, .callable _ | .property _, .property _
  | .typeParameter _, .typeParameter _ => True
  | _, _ => False

namespace Draft

theorem asClass_eq_some_iff {d : Draft} {c : ClassShape} :
    d.asClass = some c ↔ d.shape = .classLike c := by
  unfold asClass
  cases d.shape <;> simp

theorem asCallable_eq_some_iff {d : Draft} {c : CallableShape} :
    d.asCallable = some c ↔ d.shape = .callable c := by
  unfold asCallable
  cases d.shape <;> simp

theorem asProperty_eq_some_iff {d : Draft} {p : PropertyShape} :
    d.asProperty = some p ↔ d.shape = .property p := by
  unfold asProperty
  cases d.shape <;> simp

theorem asTypeParameter_eq_some_iff {d : Draft} {p : TypeParameterShape} :
    d.asTypeParameter = some p ↔ d.shape = .typeParameter p := by
  unfold asTypeParameter
  cases d.shape <;> simp

end Draft

namespace SymbolTable

/-- A conversion of a declaration that is there answers if it is of the kind. -/
theorem conversion_eq_map {α β : Type} {x : Option Declaration} {kind? : Declaration → Option α}
    {convert : Declaration → α → β} {d : Declaration} (hd : x = some d) :
    (x.bind fun d => (kind? d).bind fun c => some (convert d c)) = (kind? d).map (convert d) := by
  rw [hd, Option.bind_some, Option.map_eq_bind]
  rfl

/-- A conversion answers for the declarations of its kind. -/
theorem conversion_eq_some_iff {α β : Type} {x : Option Declaration}
    {kind? : Declaration → Option α} {convert : Declaration → α → β} {e : β} :
    (x.bind fun d => (kind? d).bind fun c => some (convert d c)) = some e ↔
      ∃ d c, x = some d ∧ kind? d = some c ∧ convert d c = e := by
  simp only [Option.bind_eq_some_iff, Option.some.injEq]
  constructor
  · rintro ⟨d, hd, c, hc, rfl⟩
    exact ⟨d, c, hd, hc, rfl⟩
  · rintro ⟨d, c, hd, hc, rfl⟩
    exact ⟨d, hd, c, hc, rfl⟩

/-- What a conversion answers is made from the declaration that is there. -/
theorem exists_of_conversion {α β : Type} {x : Option Declaration}
    {kind? : Declaration → Option α} {convert : Declaration → α → β} {d : Declaration} {e : β}
    (hd : x = some d)
    (h : (x.bind fun d => (kind? d).bind fun c => some (convert d c)) = some e) :
    ∃ c, kind? d = some c ∧ convert d c = e := by
  rw [conversion_eq_map hd] at h
  exact Option.map_eq_some_iff.mp h

variable {t : SymbolTable}

/-- The arguments in a signature are converted one by one. -/
theorem signatureArguments_eq_map : ∀ as : List TypeArgument,
    t.signatureArguments as = as.map t.signatureArgument
  | [] => rfl
  | a :: as => by rw [signatureArguments, signatureArguments_eq_map as, List.map_cons]

theorem member?_of_decl? (depth : Depth) (nested? : DeclId → Option ClassElement) {id : DeclId}
    {d : Declaration} (hd : t.decl? id = some d) :
    t.member? depth nested? id = match d.shape with
      | .classLike c =>
        if c.isCompanion then none
        else if c.kind = .enumEntry then (t.flatClass? id).map Element.classLike
        else (nested? id).map Element.classLike
      | .callable _ => (t.callable? depth id).map Element.callable
      | .property _ => (t.property? depth id).map Element.property
      | .typeParameter _ => none := by
  rw [member?, hd]
  rfl

/-- A member of a class is an enum entry, some other nested class, a function or a property. -/
theorem member?_cases {depth : Depth} {nested? : DeclId → Option ClassElement} {id : DeclId}
    {e : Element} (h : t.member? depth nested? id = some e) :
    (∃ c, t.flatClass? id = some c ∧ c.kind = .enumEntry ∧ e = .classLike c) ∨
      (∃ c, nested? id = some c ∧ e = .classLike c) ∨
      (∃ c, t.callable? depth id = some c ∧ e = .callable c) ∨
      ∃ p, t.property? depth id = some p ∧ e = .property p := by
  obtain ⟨d, hd, -⟩ := Option.bind_eq_some_iff.mp h
  rw [member?_of_decl? depth nested? hd] at h
  cases hs : d.shape with
  | classLike c =>
    simp only [hs] at h
    by_cases hc : c.isCompanion
    · rw [if_pos hc] at h
      exact absurd h (by simp)
    · rw [if_neg hc] at h
      by_cases hk : c.kind = .enumEntry
      · rw [if_pos hk] at h
        obtain ⟨k, hflat, rfl⟩ := Option.map_eq_some_iff.mp h
        obtain ⟨c', hc', rfl⟩ := exists_of_conversion hd hflat
        obtain rfl : c = c' := Option.some.inj ((Draft.asClass_eq_some_iff.mpr hs).symm.trans hc')
        exact Or.inl ⟨_, hflat, hk, rfl⟩
      · rw [if_neg hk] at h
        obtain ⟨k, hk, rfl⟩ := Option.map_eq_some_iff.mp h
        exact Or.inr (Or.inl ⟨k, hk, rfl⟩)
  | callable c =>
    simp only [hs] at h
    obtain ⟨k, hk, rfl⟩ := Option.map_eq_some_iff.mp h
    exact Or.inr (Or.inr (Or.inl ⟨k, hk, rfl⟩))
  | property p =>
    simp only [hs] at h
    obtain ⟨k, hk, rfl⟩ := Option.map_eq_some_iff.mp h
    exact Or.inr (Or.inr (Or.inr ⟨k, hk, rfl⟩))
  | typeParameter p =>
    simp only [hs] at h
    exact absurd h (by simp)

theorem exists_classElement? (depth : Depth) {id : DeclId} {d : Declaration} {c : ClassShape}
    (hd : t.decl? id = some d) (hc : d.asClass = some c) :
    ∃ e, t.classElement? depth id = some e := by
  cases depth <;> exact ⟨_, conversion_eq_some_iff.mpr ⟨d, c, hd, hc, rfl⟩⟩

theorem element?_of_decl? (depth : Depth) {id : DeclId} {d : Declaration} (hd : t.decl? id = some d) :
    t.element? depth id = match d.shape with
      | .classLike _ => (t.classElement? depth id).map Element.classLike
      | .callable _ => (t.callable? depth id).map Element.callable
      | .property _ => (t.property? depth id).map Element.property
      | .typeParameter _ => (t.typeParameter? depth id).map Element.typeParameter := by
  rw [element?, hd]
  rfl

/-- Every declaration has an element, of the sort its kind asks for. -/
theorem exists_element? (depth : Depth) {id : DeclId} {d : Declaration}
    (hd : t.decl? id = some d) : ∃ e, t.element? depth id = some e ∧ e.OfShape d.shape := by
  rw [element?_of_decl? depth hd]
  cases hs : d.shape with
  | classLike c =>
    obtain ⟨e, he⟩ := exists_classElement? depth hd (Draft.asClass_eq_some_iff.mpr hs)
    exact ⟨_, Option.map_eq_some_iff.mpr ⟨e, he, rfl⟩, trivial⟩
  | callable c =>
    obtain ⟨e, he⟩ : ∃ e, t.callable? depth id = some e :=
      ⟨_, conversion_eq_some_iff.mpr ⟨d, c, hd, Draft.asCallable_eq_some_iff.mpr hs, rfl⟩⟩
    exact ⟨_, Option.map_eq_some_iff.mpr ⟨e, he, rfl⟩, trivial⟩
  | property p =>
    obtain ⟨e, he⟩ : ∃ e, t.property? depth id = some e :=
      ⟨_, conversion_eq_some_iff.mpr ⟨d, p, hd, Draft.asProperty_eq_some_iff.mpr hs, rfl⟩⟩
    exact ⟨_, Option.map_eq_some_iff.mpr ⟨e, he, rfl⟩, trivial⟩
  | typeParameter p =>
    obtain ⟨e, he⟩ : ∃ e, t.typeParameter? depth id = some e :=
      ⟨_, conversion_eq_some_iff.mpr ⟨d, p, hd, Draft.asTypeParameter_eq_some_iff.mpr hs, rfl⟩⟩
    exact ⟨_, Option.map_eq_some_iff.mpr ⟨e, he, rfl⟩, trivial⟩

/-! A declaration that one of the conversions answers for has that answer as its element. -/

theorem element?_of_classElement? {depth : Depth} {id : DeclId} {c : ClassElement}
    (h : t.classElement? depth id = some c) : t.element? depth id = some (.classLike c) := by
  obtain ⟨d, k, hd, hk⟩ : ∃ d k, t.decl? id = some d ∧ d.asClass = some k := by
    cases depth <;>
    · obtain ⟨d, k, hd, hk, -⟩ := conversion_eq_some_iff.mp h
      exact ⟨d, k, hd, hk⟩
  rw [element?_of_decl? depth hd, Draft.asClass_eq_some_iff.mp hk]
  simp only [h, Option.map_some]

/-- An element is a class, a function, a property or a type parameter, each converted as such. -/
theorem element?_cases {depth : Depth} {id : DeclId} {e : Element}
    (h : t.element? depth id = some e) :
    (∃ c, t.classElement? depth id = some c ∧ e = .classLike c) ∨
      (∃ c, t.callable? depth id = some c ∧ e = .callable c) ∨
      (∃ p, t.property? depth id = some p ∧ e = .property p) ∨
      ∃ p, t.typeParameter? depth id = some p ∧ e = .typeParameter p := by
  obtain ⟨d, hd, -⟩ := Option.bind_eq_some_iff.mp h
  rw [element?_of_decl? depth hd] at h
  cases hs : d.shape with
  | classLike k =>
    simp only [hs] at h
    obtain ⟨c, hc, rfl⟩ := Option.map_eq_some_iff.mp h
    exact Or.inl ⟨c, hc, rfl⟩
  | callable k =>
    simp only [hs] at h
    obtain ⟨c, hc, rfl⟩ := Option.map_eq_some_iff.mp h
    exact Or.inr (Or.inl ⟨c, hc, rfl⟩)
  | property k =>
    simp only [hs] at h
    obtain ⟨p, hp, rfl⟩ := Option.map_eq_some_iff.mp h
    exact Or.inr (Or.inr (Or.inl ⟨p, hp, rfl⟩))
  | typeParameter k =>
    simp only [hs] at h
    obtain ⟨p, hp, rfl⟩ := Option.map_eq_some_iff.mp h
    exact Or.inr (Or.inr (Or.inr ⟨p, hp, rfl⟩))

theorem classElement?_of_element? {depth : Depth} {id : DeclId} {c : ClassElement}
    (h : t.element? depth id = some (.classLike c)) : t.classElement? depth id = some c := by
  rcases element?_cases h with ⟨k, hk, heq⟩ | ⟨k, -, heq⟩ | ⟨k, -, heq⟩ | ⟨k, -, heq⟩
  · injection heq with heq
    exact heq ▸ hk
  · exact absurd heq (by simp)
  · exact absurd heq (by simp)
  · exact absurd heq (by simp)

theorem element?_of_callable? {depth : Depth} {id : DeclId} {c : Callable}
    (h : t.callable? depth id = some c) : t.element? depth id = some (.callable c) := by
  obtain ⟨d, k, hd, hk, -⟩ := conversion_eq_some_iff.mp h
  rw [element?_of_decl? depth hd, Draft.asCallable_eq_some_iff.mp hk]
  simp only [h, Option.map_some]

theorem element?_of_property? {depth : Depth} {id : DeclId} {p : Property}
    (h : t.property? depth id = some p) : t.element? depth id = some (.property p) := by
  obtain ⟨d, k, hd, hk, -⟩ := conversion_eq_some_iff.mp h
  rw [element?_of_decl? depth hd, Draft.asProperty_eq_some_iff.mp hk]
  simp only [h, Option.map_some]

theorem element?_of_typeParameter? {depth : Depth} {id : DeclId} {p : TypeParameter}
    (h : t.typeParameter? depth id = some p) :
    t.element? depth id = some (.typeParameter p) := by
  obtain ⟨d, k, hd, hk, -⟩ := conversion_eq_some_iff.mp h
  rw [element?_of_decl? depth hd, Draft.asTypeParameter_eq_some_iff.mp hk]
  simp only [h, Option.map_some]

/-- A member of a class is its own declaration's element, at some depth. -/
theorem exists_element?_of_member? {depth : Depth} {nested? : DeclId → Option ClassElement}
    {id : DeclId} {e : Element} (h : t.member? depth nested? id = some e)
    (hnested : ∀ i c, nested? i = some c → ∃ depth, t.classElement? depth i = some c) :
    ∃ depth, t.element? depth id = some e := by
  rcases member?_cases h with ⟨c, hc, -, rfl⟩ | ⟨c, hc, rfl⟩ | ⟨c, hc, rfl⟩ | ⟨p, hp, rfl⟩
  · exact ⟨.flat, element?_of_classElement? hc⟩
  · obtain ⟨depth, hc⟩ := hnested id c hc
    exact ⟨depth, element?_of_classElement? hc⟩
  · exact ⟨depth, element?_of_callable? hc⟩
  · exact ⟨depth, element?_of_property? hp⟩

/-! ### The header of an element -/

/-- The header is the one of a declaration, whatever the members and the validity. -/
def HeadedBy (t : SymbolTable) (depth : Depth) (d : Declaration) (h : Header) : Prop :=
  h = { t.header depth d d.elementKind with enclosed := h.enclosed, valid := h.valid }

theorem headedBy {depth : Depth} {d : Declaration} {kind : ElementKind} (h : d.elementKind = kind)
    (enclosed : List Element) (valid : Bool) :
    t.HeadedBy depth d { t.header depth d kind with enclosed, valid } := by
  subst h
  rfl

theorem header?_of_element? {depth : Depth} {id : DeclId} {d : Declaration} {e : Element}
    (hd : t.decl? id = some d) (he : t.element? depth id = some e) :
    ∃ h, e.header? = some h ∧ t.HeadedBy depth d h := by
  rw [element?_of_decl? depth hd] at he
  cases hs : d.shape with
  | classLike c =>
    simp only [hs] at he
    have hkind : d.elementKind = c.kind.elementKind := by rw [Declaration.elementKind, hs]
    have hc : d.asClass = some c := Draft.asClass_eq_some_iff.mpr hs
    obtain ⟨k, hk, rfl⟩ := Option.map_eq_some_iff.mp he
    refine ⟨_, rfl, ?_⟩
    cases depth <;>
    · obtain ⟨c', hc', rfl⟩ := exists_of_conversion hd hk
      obtain rfl : c = c' := Option.some.inj (hc.symm.trans hc')
      exact headedBy hkind _ _
  | callable c =>
    simp only [hs] at he
    obtain ⟨k, hk, rfl⟩ := Option.map_eq_some_iff.mp he
    obtain ⟨_, -, rfl⟩ := exists_of_conversion hd hk
    exact ⟨_, rfl, headedBy rfl _ _⟩
  | property p =>
    simp only [hs] at he
    have hkind : d.elementKind = .property := by rw [Declaration.elementKind, hs]
    obtain ⟨k, hk, rfl⟩ := Option.map_eq_some_iff.mp he
    obtain ⟨_, -, rfl⟩ := exists_of_conversion hd hk
    exact ⟨_, rfl, headedBy hkind _ _⟩
  | typeParameter p =>
    simp only [hs] at he
    have hkind : d.elementKind = .typeParameter := by rw [Declaration.elementKind, hs]
    obtain ⟨k, hk, rfl⟩ := Option.map_eq_some_iff.mp he
    obtain ⟨_, -, rfl⟩ := exists_of_conversion hd hk
    exact ⟨_, rfl, headedBy hkind _ _⟩

end SymbolTable
end SymbolGraph
