/-
# Different elements have different texts

Nothing is lost when an element is written out: every field of every part is there, under
a name or a tag of its own, and what can be missing is null only where it is missing. So
what is written tells what it was written from (`Legible`), for a part if it does so for all
that the part holds directly, and by induction on the tree for every element, type,
annotation and value without floating point numbers. As the text of a value tells the value
(`Json.eq_of_text_eq`), equal texts come from equal elements, down to the order of the
arguments of an annotation.

Key definitions: `Legible`, `Node.Legible`, `Node.NotFloating`, `Node.toJson`.
Key theorems: `Vocabulary.label_injective`, `Node.legible_of_every`,
`Node.numberless_of_every`, `eq_of_jsonText_eq`.
-/
import Mathlib.Data.List.Nodup
import SymbolGraph.Element.Json
import SymbolGraph.Proofs.JsonTexts
import SymbolGraph.Proofs.PartSizes

namespace SymbolGraph

open Text (Json)
open Node (ofElements ofTypes ofMarks ofValues forall_mem_ofElements forall_mem_ofTypes
  forall_mem_ofMarks forall_mem_ofValues)

/-! ### Words and small parts -/

/-- Whether what is written tells that it was written from a given thing. -/
def Legible {α : Type} (write : α → Json) (a : α) : Prop := ∀ b, write a = write b → a = b

/-- Words that are all different tell their values. -/
theorem Vocabulary.label_injective {α : Type} [Vocabulary α] (hall : ∀ a : α, a ∈ (all : List α))
    (hnodup : ((all : List α).map label).Nodup) : Function.Injective (label : α → String) :=
  fun a b h => List.inj_on_of_nodup_map hnodup (hall a) (hall b) h

/-- In each vocabulary of elements and types the words are all different. -/
theorem Vocabulary.nodup_labels :
    (ElementKind.all.map ElementKind.label).Nodup ∧ (ClassKind.all.map ClassKind.label).Nodup ∧
      (TypeKind.all.map TypeKind.label).Nodup ∧ (Variance.all.map Variance.label).Nodup ∧
      ((all : List VariableKind).map label).Nodup ∧ (Modifier.all.map Modifier.label).Nodup := by
  decide +kernel

theorem ElementKind.label_injective : Function.Injective ElementKind.label :=
  Vocabulary.label_injective (by intro k; cases k <;> decide) Vocabulary.nodup_labels.1

theorem ClassKind.label_injective : Function.Injective ClassKind.label :=
  Vocabulary.label_injective (by intro k; cases k <;> decide) Vocabulary.nodup_labels.2.1

theorem TypeKind.label_injective : Function.Injective TypeKind.label :=
  Vocabulary.label_injective (by intro k; rcases k with ⟨_ | _⟩ | _ <;> decide)
    Vocabulary.nodup_labels.2.2.1

theorem Variance.label_injective : Function.Injective Variance.label :=
  Vocabulary.label_injective (by intro k; cases k <;> decide) Vocabulary.nodup_labels.2.2.2.1

theorem VariableKind.label_injective : Function.Injective VariableKind.label :=
  Vocabulary.label_injective (by intro k; cases k <;> decide) Vocabulary.nodup_labels.2.2.2.2.1

theorem Modifier.label_injective : Function.Injective Modifier.label :=
  Vocabulary.label_injective Modifier.mem_all Vocabulary.nodup_labels.2.2.2.2.2

theorem legible_ofText? (o : Option String) : Legible Json.ofText? o := by
  intro o' h
  cases o <;> cases o' <;> simp_all [Json.ofText?]

/-- A list tells its items if each item does. -/
theorem legible_list {α : Type} {write : α → Json} : ∀ {as : List α},
    (∀ a ∈ as, Legible write a) → ∀ bs, as.map write = bs.map write → as = bs
  | [], _, [], _ => rfl
  | a :: as, h, b :: bs, heq => by
    rw [List.map_cons, List.map_cons, List.cons.injEq] at heq
    rw [h a List.mem_cons_self b heq.1,
      legible_list (fun x hx => h x (List.mem_cons_of_mem _ hx)) bs heq.2]

/-- What may be missing is told if it is, and if it is never written as null. -/
theorem legible_option {α : Type} {write : α → Json} (hnull : ∀ a, write a ≠ .null)
    {o : Option α} (h : ∀ a, o = some a → Legible write a) :
    ∀ o', o.elim .null write = o'.elim .null write → o = o'
  | none, heq => by
    cases o with
    | none => rfl
    | some a => exact absurd heq (hnull a)
  | some b, heq => by
    cases o with
    | none => exact absurd heq.symm (hnull b)
    | some a => rw [h a rfl b heq]

theorem legible_modifiers (s : ModifierSet) : Legible ModifierSet.toJson s := by
  intro s' h
  have hwords : s.toList.map (fun m => Json.string m.label) =
      s'.toList.map fun m => Json.string m.label := Json.array.inj h
  have hlist := legible_list
    (fun m _ m' hm => Modifier.label_injective (Json.string.inj hm)) _ hwords
  exact ModifierSet.ext_mem fun m => by rw [hlist]

theorem legible_file (f : FileRef) : Legible FileRef.toJson f := by
  rintro f' h
  cases f
  cases f'
  simp_all [FileRef.toJson]

theorem legible_stub (s : Stub) : Legible Stub.toJson s := by
  obtain ⟨name, qualified, kind, package, modifiers⟩ := s
  rintro ⟨name', qualified', kind', package', modifiers'⟩ h
  simp only [Stub.toJson, Json.object.injEq, List.cons.injEq, Prod.mk.injEq, true_and, and_true,
    Json.string.injEq] at h
  obtain ⟨rfl, hqualified, hkind, hpackage, hmodifiers⟩ := h
  rw [Stub.mk.injEq]
  exact ⟨rfl, legible_ofText? _ _ hqualified, ElementKind.label_injective hkind,
    legible_ofText? _ _ hpackage, legible_modifiers _ _ hmodifiers⟩

theorem tagged_inj {tag tag' : String} {content content' : Json} :
    tagged tag content = tagged tag' content' ↔ tag = tag' ∧ content = content' := by
  simp [tagged]

theorem tagged_ne_null {tag : String} {content : Json} : tagged tag content ≠ .null := by
  simp [tagged]

/-- Whether a constant is a floating point number. -/
def Literal.isFloating : Literal → Bool
  | .float _ | .double _ => true
  | .boolean _ | .byte _ | .short _ | .int _ | .long _ | .char _ => false

/-- A constant that is no floating point number is told with its type. -/
theorem legible_literal {l : Literal} (h : l.isFloating = false) : Legible Literal.toJson l := by
  intro l' heq
  cases l <;> cases l' <;>
    simp_all [Literal.toJson, tagged_inj, Literal.isFloating, Int8.toInt_inj, Int16.toInt_inj,
      Int32.toInt_inj, Int64.toInt_inj]

/-! ### Lists and parts that may be missing -/

/-- What writes a value, or null if there is none, is settled by how it writes a value. -/
theorem writeOption_eq {α : Type} {write : α → Json} {write? : Option α → Json}
    (hnone : write? none = .null) (hsome : ∀ a, write? (some a) = write a) :
    ∀ o, write? o = o.elim .null write
  | none => hnone
  | some a => hsome a

/-- What writes a list item by item is settled by how it writes an item. -/
theorem writeList_eq {α β : Type} {write : α → β} {writeAll : List α → List β}
    (hnil : writeAll [] = []) (hcons : ∀ a as, writeAll (a :: as) = write a :: writeAll as) :
    ∀ as, writeAll as = as.map write
  | [] => hnil
  | a :: as => by rw [hcons, writeList_eq hnil hcons as, List.map_cons]

theorem elementJson?_eq : ∀ o, elementJson? o = o.elim .null Element.toJson :=
  writeOption_eq rfl fun _ => rfl

theorem tyJson?_eq : ∀ o, tyJson? o = o.elim .null Ty.toJson := writeOption_eq rfl fun _ => rfl

theorem classJson?_eq : ∀ o, classJson? o = o.elim .null ClassElement.toJson :=
  writeOption_eq rfl fun _ => rfl

theorem callableJson?_eq : ∀ o, callableJson? o = o.elim .null Callable.toJson :=
  writeOption_eq rfl fun _ => rfl

theorem variableJson?_eq : ∀ o, variableJson? o = o.elim .null Variable.toJson :=
  writeOption_eq rfl fun _ => rfl

theorem valueJson?_eq : ∀ o, valueJson? o = o.elim .null Value.toJson :=
  writeOption_eq rfl fun _ => rfl

theorem fileJson?_eq : ∀ o, fileJson? o = o.elim .null FileRef.toJson :=
  writeOption_eq rfl fun _ => rfl

theorem elementsJson_eq : ∀ es, elementsJson es = es.map Element.toJson :=
  writeList_eq rfl fun _ _ => rfl

theorem annotationsJson_eq : ∀ as, annotationsJson as = as.map Annotation.toJson :=
  writeList_eq rfl fun _ _ => rfl

theorem tysJson_eq : ∀ ts, tysJson ts = ts.map Ty.toJson := writeList_eq rfl fun _ _ => rfl

theorem typeParametersJson_eq : ∀ ps, typeParametersJson ps = ps.map TypeParameter.toJson :=
  writeList_eq rfl fun _ _ => rfl

theorem variablesJson_eq : ∀ vs, variablesJson vs = vs.map Variable.toJson :=
  writeList_eq rfl fun _ _ => rfl

theorem valuesJson_eq : ∀ vs, valuesJson vs = vs.map Value.toJson :=
  writeList_eq rfl fun _ _ => rfl

theorem argumentsJson_eq :
    ∀ arguments, argumentsJson arguments = arguments.map fun a => (a.1, a.2.toJson) :=
  writeList_eq rfl fun _ _ => rfl

/-- Arguments are told by name and in order. -/
theorem legible_arguments : ∀ {as : List (String × Value)},
    (∀ a ∈ as, Legible Value.toJson a.2) → ∀ bs, argumentsJson as = argumentsJson bs → as = bs
  | [], _, [], _ => rfl
  | (name, v) :: as, h, (name', v') :: bs, heq => by
    rw [argumentsJson, argumentsJson, List.cons.injEq, Prod.mk.injEq] at heq
    obtain ⟨⟨rfl, hvalue⟩, hrest⟩ := heq
    have hsame : v = v' := h (name, v) List.mem_cons_self v' hvalue
    rw [hsame, legible_arguments (fun x hx => h x (List.mem_cons_of_mem _ hx)) bs hrest]

/-! ### Part by part -/

theorem Element.toJson_ne_null (e : Element) : e.toJson ≠ .null := by
  cases e <;> exact tagged_ne_null

theorem Ty.toJson_ne_null (t : Ty) : t.toJson ≠ .null := by
  cases t
  simp [Ty.toJson]

theorem ClassElement.toJson_ne_null (c : ClassElement) : c.toJson ≠ .null := by
  cases c
  simp [ClassElement.toJson]

theorem Callable.toJson_ne_null (c : Callable) : c.toJson ≠ .null := by
  cases c
  simp [Callable.toJson]

theorem Variable.toJson_ne_null (v : Variable) : v.toJson ≠ .null := by
  cases v
  simp [Variable.toJson]

theorem Value.toJson_ne_null (v : Value) : v.toJson ≠ .null := by
  cases v <;> exact tagged_ne_null

theorem FileRef.toJson_ne_null (f : FileRef) : f.toJson ≠ .null := by
  simp [FileRef.toJson]

/-- Whether what a part is written as tells the part. -/
def Node.Legible : Node → Prop
  | .element e => SymbolGraph.Legible Element.toJson e
  | .type t => SymbolGraph.Legible Ty.toJson t
  | .mark a => SymbolGraph.Legible Annotation.toJson a
  | .value v => SymbolGraph.Legible Value.toJson v

theorem Header.legible {h : Header} (hparts : ∀ m ∈ h.parts, m.Legible) :
    Legible Header.toJson h := by
  obtain ⟨name, qualified, kind, package, enclosing, enclosed, annotations, modifiers, doc, file,
    valid⟩ := h
  simp only [Header.parts, List.forall_mem_append, forall_mem_ofElements, forall_mem_ofMarks,
    Option.mem_toList, Node.Legible] at hparts
  obtain ⟨⟨henclosing, henclosed⟩, hmarks⟩ := hparts
  rintro ⟨name', qualified', kind', package', enclosing', enclosed', annotations', modifiers', doc',
    file', valid'⟩ heq
  simp only [Header.toJson, Json.object.injEq, List.cons.injEq, Prod.mk.injEq, true_and, and_true,
    Json.string.injEq, Json.array.injEq, Json.bool.injEq, elementJson?_eq, elementsJson_eq,
    annotationsJson_eq, fileJson?_eq] at heq
  obtain ⟨rfl, hqualified, hkind, hpackage, heq1, heq2, heq3, hmodifiers, hdoc, hfile, rfl⟩ := heq
  rw [Header.mk.injEq]
  exact ⟨rfl, legible_ofText? _ _ hqualified, ElementKind.label_injective hkind,
    legible_ofText? _ _ hpackage, legible_option Element.toJson_ne_null henclosing _ heq1,
    legible_list henclosed _ heq2, legible_list hmarks _ heq3, legible_modifiers _ _ hmodifiers,
    legible_ofText? _ _ hdoc,
    legible_option FileRef.toJson_ne_null (fun f _ => legible_file f) _ hfile, rfl⟩

/-- A kind of element is told by itself as well as under the tag of its kind. -/
theorem legible_untagged {α : Type} {make : α → Element} {write : α → Json} {tag : String}
    (hmake : Function.Injective make) (hwrite : ∀ a, (make a).toJson = tagged tag (write a)) {a : α}
    (h : Legible Element.toJson (make a)) : Legible write a := by
  intro b heq
  exact hmake (h (make b) (by rw [hwrite, hwrite, heq]))

theorem legible_classLike {c : ClassElement} (h : Legible Element.toJson (.classLike c)) :
    Legible ClassElement.toJson c :=
  legible_untagged (fun _ _ => Element.classLike.inj) (fun _ => rfl) h

theorem legible_callable {c : Callable} (h : Legible Element.toJson (.callable c)) :
    Legible Callable.toJson c :=
  legible_untagged (fun _ _ => Element.callable.inj) (fun _ => rfl) h

theorem legible_variable {v : Variable} (h : Legible Element.toJson (.variable v)) :
    Legible Variable.toJson v :=
  legible_untagged (fun _ _ => Element.variable.inj) (fun _ => rfl) h

theorem legible_typeParameter {p : TypeParameter}
    (h : Legible Element.toJson (.typeParameter p)) : Legible TypeParameter.toJson p :=
  legible_untagged (fun _ _ => Element.typeParameter.inj) (fun _ => rfl) h

theorem ClassElement.legible {c : ClassElement}
    (hparts : ∀ m ∈ (Element.classLike c).parts, m.Legible) : Legible ClassElement.toJson c := by
  obtain ⟨header, kind, superclass, interfaces, parameters, companion, supertypes, inner, isLocal,
    anonymous, isCompanion⟩ := c
  simp only [Element.parts, List.forall_mem_append, forall_mem_ofTypes, forall_mem_ofElements,
    List.forall_mem_map, Option.mem_toList, Node.Legible] at hparts
  obtain ⟨⟨hheader, hsuperclass, hinterfaces⟩, hparameters, hcompanion⟩ := hparts
  rintro ⟨header', kind', superclass', interfaces', parameters', companion', supertypes', inner',
    isLocal', anonymous', isCompanion'⟩ heq
  simp only [ClassElement.toJson, Json.object.injEq, List.cons.injEq, Prod.mk.injEq, true_and,
    and_true, Json.string.injEq, Json.array.injEq, Json.bool.injEq, tyJson?_eq, tysJson_eq,
    typeParametersJson_eq, classJson?_eq] at heq
  obtain ⟨heq1, hkind, heq2, heq3, heq4, heq5, heq6, rfl, rfl, rfl, rfl⟩ := heq
  rw [ClassElement.mk.injEq]
  exact ⟨Header.legible hheader _ heq1, ClassKind.label_injective hkind,
    legible_option Ty.toJson_ne_null hsuperclass _ heq2, legible_list hinterfaces _ heq3,
    legible_list (fun p hp => legible_typeParameter (hparameters p hp)) _ heq4,
    legible_option ClassElement.toJson_ne_null (fun k hk => legible_classLike (hcompanion k hk)) _
      heq5,
    legible_list (fun _ _ _ hs => Json.string.inj hs) _ heq6, rfl, rfl, rfl, rfl⟩

theorem Callable.legible {c : Callable}
    (hparts : ∀ m ∈ (Element.callable c).parts, m.Legible) : Legible Callable.toJson c := by
  obtain ⟨header, returnType, parameters, typeParameters, thrown, receiver, varargs, isAbstract,
    isDefault, isSuspend, isInline, isOperator, isInfix⟩ := c
  simp only [Element.parts, List.forall_mem_append, forall_mem_ofTypes, forall_mem_ofElements,
    List.forall_mem_map, List.forall_mem_cons, Option.mem_toList, Node.Legible] at hparts
  obtain ⟨⟨hheader, hreturn, hthrown, hreceiver⟩, hparameters, htypeParameters⟩ := hparts
  rintro ⟨header', returnType', parameters', typeParameters', thrown', receiver', varargs',
    isAbstract', isDefault', isSuspend', isInline', isOperator', isInfix'⟩ heq
  simp only [Callable.toJson, Json.object.injEq, List.cons.injEq, Prod.mk.injEq, true_and,
    and_true, Json.array.injEq, Json.bool.injEq, tyJson?_eq, tysJson_eq, typeParametersJson_eq,
    variablesJson_eq] at heq
  obtain ⟨heq1, heq2, heq3, heq4, heq5, heq6, rfl, rfl, rfl, rfl, rfl, rfl, rfl⟩ := heq
  rw [Callable.mk.injEq]
  exact ⟨Header.legible hheader _ heq1, hreturn _ heq2,
    legible_list (fun v hv => legible_variable (hparameters v hv)) _ heq3,
    legible_list (fun p hp => legible_typeParameter (htypeParameters p hp)) _ heq4,
    legible_list hthrown _ heq5, legible_option Ty.toJson_ne_null hreceiver _ heq6, rfl, rfl, rfl,
    rfl, rfl, rfl, rfl⟩

theorem Variable.legible {v : Variable}
    (hparts : ∀ m ∈ (Element.variable v).parts, m.Legible) : Legible Variable.toJson v := by
  obtain ⟨header, type, kind, constant, isMutable, isConst, isLateinit, hasDefault⟩ := v
  simp only [Element.parts, List.forall_mem_append, forall_mem_ofTypes, forall_mem_ofValues,
    List.forall_mem_singleton, Option.mem_toList, Node.Legible] at hparts
  obtain ⟨⟨hheader, htype⟩, hconstant⟩ := hparts
  rintro ⟨header', type', kind', constant', isMutable', isConst', isLateinit', hasDefault'⟩ heq
  simp only [Variable.toJson, Json.object.injEq, List.cons.injEq, Prod.mk.injEq, true_and,
    and_true, Json.string.injEq, Json.bool.injEq, valueJson?_eq] at heq
  obtain ⟨heq1, heq2, hkind, heq3, rfl, rfl, rfl, rfl⟩ := heq
  rw [Variable.mk.injEq]
  exact ⟨Header.legible hheader _ heq1, htype _ heq2, VariableKind.label_injective hkind,
    legible_option Value.toJson_ne_null hconstant _ heq3, rfl, rfl, rfl, rfl⟩

theorem Property.legible {p : Property}
    (hparts : ∀ m ∈ (Element.property p).parts, m.Legible) : Legible Property.toJson p := by
  obtain ⟨header, type, constant, isMutable, isConst, isLateinit, getter, setter, field,
    customGetter, customSetter, delegate, receiver⟩ := p
  simp only [Element.parts, List.forall_mem_append, forall_mem_ofTypes, forall_mem_ofElements,
    forall_mem_ofValues, List.forall_mem_map, List.forall_mem_cons, Option.mem_toList,
    Node.Legible] at hparts
  obtain ⟨⟨⟨hheader, htype, hreceiver⟩, hconstant⟩, ⟨hgetter, hsetter⟩, hfield⟩ := hparts
  rintro ⟨header', type', constant', isMutable', isConst', isLateinit', getter', setter', field',
    customGetter', customSetter', delegate', receiver'⟩ heq
  simp only [Property.toJson, Json.object.injEq, List.cons.injEq, Prod.mk.injEq, true_and,
    and_true, Json.bool.injEq, tyJson?_eq, valueJson?_eq, callableJson?_eq, variableJson?_eq] at heq
  obtain ⟨heq1, heq2, heq3, rfl, rfl, rfl, heq4, heq5, heq6, rfl, rfl, hdelegate, heq7⟩ := heq
  rw [Property.mk.injEq]
  exact ⟨Header.legible hheader _ heq1, htype _ heq2,
    legible_option Value.toJson_ne_null hconstant _ heq3, rfl, rfl, rfl,
    legible_option Callable.toJson_ne_null (fun c hc => legible_callable (hgetter c hc)) _ heq4,
    legible_option Callable.toJson_ne_null (fun c hc => legible_callable (hsetter c hc)) _ heq5,
    legible_option Variable.toJson_ne_null (fun v hv => legible_variable (hfield v hv)) _ heq6,
    rfl, rfl, legible_ofText? _ _ hdelegate, legible_option Ty.toJson_ne_null hreceiver _ heq7⟩

theorem TypeParameter.legible {p : TypeParameter}
    (hparts : ∀ m ∈ (Element.typeParameter p).parts, m.Legible) :
    Legible TypeParameter.toJson p := by
  obtain ⟨header, bounds, variance, reified⟩ := p
  simp only [Element.parts, List.forall_mem_append, forall_mem_ofTypes, Node.Legible] at hparts
  obtain ⟨hheader, hbounds⟩ := hparts
  rintro ⟨header', bounds', variance', reified'⟩ heq
  simp only [TypeParameter.toJson, Json.object.injEq, List.cons.injEq, Prod.mk.injEq, true_and,
    and_true, Json.string.injEq, Json.array.injEq, Json.bool.injEq, tysJson_eq] at heq
  obtain ⟨heq1, heq2, hvariance, rfl⟩ := heq
  rw [TypeParameter.mk.injEq]
  exact ⟨Header.legible hheader _ heq1, legible_list hbounds _ heq2,
    Variance.label_injective hvariance, rfl⟩

theorem Element.exists_content (e : Element) : ∃ content, e.toJson = tagged e.label content := by
  cases e <;> exact ⟨_, rfl⟩

/-- An element is told, and of what kind it is. -/
theorem Element.legible {e : Element} (hparts : ∀ m ∈ e.parts, m.Legible) :
    Legible Element.toJson e := by
  intro e' heq
  have hlabel : e.label = e'.label := by
    obtain ⟨content, he⟩ := e.exists_content
    obtain ⟨content', he'⟩ := e'.exists_content
    rw [he, he', tagged_inj] at heq
    exact heq.1
  cases e with
  | classLike c =>
    cases e' with
    | classLike c' => rw [ClassElement.legible hparts c' (tagged_inj.mp heq).2]
    | _ => exact absurd hlabel (by simp [Element.label])
  | callable c =>
    cases e' with
    | callable c' => rw [Callable.legible hparts c' (tagged_inj.mp heq).2]
    | _ => exact absurd hlabel (by simp [Element.label])
  | «variable» v =>
    cases e' with
    | «variable» v' => rw [Variable.legible hparts v' (tagged_inj.mp heq).2]
    | _ => exact absurd hlabel (by simp [Element.label])
  | property p =>
    cases e' with
    | property p' => rw [Property.legible hparts p' (tagged_inj.mp heq).2]
    | _ => exact absurd hlabel (by simp [Element.label])
  | typeParameter p =>
    cases e' with
    | typeParameter p' => rw [TypeParameter.legible hparts p' (tagged_inj.mp heq).2]
    | _ => exact absurd hlabel (by simp [Element.label])
  | stub s =>
    cases e' with
    | stub s' => rw [legible_stub s s' (tagged_inj.mp heq).2]
    | _ => exact absurd hlabel (by simp [Element.label])

theorem TyForm.legible {form : TyForm} (hparts : ∀ m ∈ form.parts, m.Legible) :
    Legible TyForm.toJson form := by
  intro form' heq
  cases form with
  | array component =>
    simp only [TyForm.parts, List.forall_mem_singleton, Node.Legible] at hparts
    cases form' <;> simp [TyForm.toJson, tagged, TyForm.label] at heq
    rw [hparts _ heq]
  | declared element enclosing =>
    simp only [TyForm.parts, List.forall_mem_cons, forall_mem_ofTypes, Option.mem_toList,
      Node.Legible] at hparts
    cases form' <;> simp [TyForm.toJson, tagged, TyForm.label, tyJson?_eq] at heq
    rw [legible_classLike hparts.1 _ heq.1, legible_option Ty.toJson_ne_null hparts.2 _ heq.2]
  | «variable» parameter =>
    simp only [TyForm.parts, List.forall_mem_singleton, Node.Legible] at hparts
    cases form' <;> simp [TyForm.toJson, tagged, TyForm.label] at heq
    rw [legible_typeParameter hparts _ heq]
  | primitive | wildcard | noType | unknown =>
    cases form' <;> simp [TyForm.toJson, tagged, TyForm.label] at heq ⊢

theorem Ty.legible {t : Ty} (hparts : ∀ m ∈ t.parts, m.Legible) : Legible Ty.toJson t := by
  obtain ⟨kind, name, qualified, nullable, arguments, upper, lower, declaration, annotations,
    form⟩ := t
  simp only [Ty.parts, List.forall_mem_append, forall_mem_ofTypes, forall_mem_ofElements,
    forall_mem_ofMarks, Option.mem_toList, Node.Legible] at hparts
  obtain ⟨⟨⟨⟨⟨harguments, hupper⟩, hlower⟩, hdeclaration⟩, hmarks⟩, hform⟩ := hparts
  rintro ⟨kind', name', qualified', nullable', arguments', upper', lower', declaration',
    annotations', form'⟩ heq
  simp only [Ty.toJson, Json.object.injEq, List.cons.injEq, Prod.mk.injEq, true_and, and_true,
    Json.string.injEq, Json.array.injEq, Json.bool.injEq, tysJson_eq, elementJson?_eq,
    annotationsJson_eq] at heq
  obtain ⟨hkind, rfl, hqualified, rfl, heq1, heq2, heq3, heq4, heq5, heq6⟩ := heq
  rw [Ty.mk.injEq]
  exact ⟨TypeKind.label_injective hkind, rfl, legible_ofText? _ _ hqualified, rfl,
    legible_list harguments _ heq1, legible_list hupper _ heq2, legible_list hlower _ heq3,
    legible_option Element.toJson_ne_null hdeclaration _ heq4, legible_list hmarks _ heq5,
    TyForm.legible hform _ heq6⟩

theorem Annotation.legible {a : Annotation} (hparts : ∀ m ∈ a.parts, m.Legible) :
    Legible Annotation.toJson a := by
  obtain ⟨type, name, qualified, arguments⟩ := a
  simp only [List.forall_mem_cons, Annotation.parts, forall_mem_ofValues, List.forall_mem_map,
    Node.Legible] at hparts
  obtain ⟨htype, harguments⟩ := hparts
  rintro ⟨type', name', qualified', arguments'⟩ heq
  simp only [Json.object.injEq, Annotation.toJson, List.cons.injEq, Prod.mk.injEq, true_and,
    and_true, Json.string.injEq] at heq
  obtain ⟨heq1, rfl, hqualified, heq2⟩ := heq
  obtain rfl := htype _ heq1
  obtain rfl := legible_ofText? _ _ hqualified
  obtain rfl := legible_arguments harguments _ heq2
  rfl

/-! ### Without floating point numbers -/

/-- A part that is no floating point number. -/
def Node.NotFloating : Node → Prop
  | .value (.literal l) => l.isFloating = false
  | .value _ | .element _ | .type _ | .mark _ => True

/-- A value is told that is no floating point number. -/
theorem Value.legible {v : Value} (hself : (Node.value v).NotFloating)
    (hparts : ∀ m ∈ v.parts, m.Legible) : Legible Value.toJson v := by
  intro v' heq
  cases v with
  | literal l =>
    cases v' <;> simp [Value.toJson, tagged_inj] at heq
    rw [legible_literal hself _ heq]
  | enumConstant type constant =>
    simp only [Value.parts, List.forall_mem_cons, Node.Legible] at hparts
    cases v' <;> simp [Value.toJson, tagged_inj] at heq
    rw [hparts.1 _ heq.1, hparts.2.1 _ heq.2]
  | array values =>
    simp only [Value.parts, forall_mem_ofValues, Node.Legible] at hparts
    cases v' <;> simp [Value.toJson, tagged_inj, valuesJson_eq] at heq
    rw [legible_list hparts _ heq]
  | nested content =>
    simp only [Value.parts, List.forall_mem_singleton, Node.Legible] at hparts
    cases v' <;> simp [Value.toJson, tagged_inj] at heq
    rw [hparts _ heq]
  | string text => cases v' <;> simp_all [Value.toJson, tagged_inj]
  | classLiteral qualified simple => cases v' <;> simp_all [Value.toJson, tagged_inj]
  | unknown text => cases v' <;> simp_all [Value.toJson, tagged_inj]

/-- **What a part without floating point numbers is written as tells the part.** -/
theorem Node.legible_of_every {n : Node} (h : n.Every Node.NotFloating) : n.Legible := by
  revert h
  refine Node.induction (P := fun n => n.Every Node.NotFloating → n.Legible) (fun n ih h => ?_) n
  obtain ⟨hself, hbelow⟩ := Node.every_iff.mp h
  have hparts : ∀ m ∈ n.parts, m.Legible := fun m hm => ih m hm (hbelow m hm)
  cases n with
  | element e => exact Element.legible hparts
  | type t => exact Ty.legible hparts
  | mark a => exact Annotation.legible hparts
  | value v => exact Value.legible hself hparts

/-! ### Numbers by text come from floating point numbers only -/

/-- What a part is written as. -/
def Node.toJson : Node → Json
  | .element e => e.toJson
  | .type t => t.toJson
  | .mark a => a.toJson
  | .value v => v.toJson

@[simp] theorem numberless_tagged {tag : String} {content : Json} :
    (tagged tag content).numberless = content.numberless := by
  simp [tagged, Json.numberless, Json.numberlessFields]

@[simp] theorem numberless_ofText? (o : Option String) : (Json.ofText? o).numberless = true := by
  cases o <;> simp [Json.ofText?, Json.numberless]

theorem numberless_list {α : Type} {write : α → Json} {as : List α}
    (h : ∀ a ∈ as, (write a).numberless = true) :
    Json.numberlessItems (as.map write) = true :=
  Json.numberlessItems_iff.mpr (List.forall_mem_map.mpr h)

theorem numberless_option {α : Type} {write : α → Json} {o : Option α}
    (h : ∀ a, o = some a → (write a).numberless = true) :
    (o.elim Json.null write).numberless = true := by
  cases o with
  | none => simp [Json.numberless]
  | some a => exact h a rfl

theorem numberless_strings (ss : List String) :
    Json.numberlessItems (ss.map Json.string) = true :=
  numberless_list fun _ _ => by rw [Json.numberless]

@[simp] theorem numberless_modifiers (s : ModifierSet) : s.toJson.numberless = true := by
  rw [ModifierSet.toJson, Json.numberless]
  exact numberless_list fun m _ => by simp [Json.numberless]

theorem numberless_file (f : FileRef) : f.toJson.numberless = true := by
  simp [FileRef.toJson, Json.numberless, Json.numberlessFields]

theorem numberless_stub (s : Stub) : s.toJson.numberless = true := by
  simp [Stub.toJson, Json.numberless, Json.numberlessFields]

theorem numberless_literal {l : Literal} (h : l.isFloating = false) :
    l.toJson.numberless = true := by
  cases l <;> simp_all [Literal.toJson, Json.numberless, Literal.isFloating]

theorem Header.numberless {h : Header} (hparts : ∀ m ∈ h.parts, m.toJson.numberless = true) :
    h.toJson.numberless = true := by
  obtain ⟨name, qualified, kind, package, enclosing, enclosed, annotations, modifiers, doc, file,
    valid⟩ := h
  simp only [Header.parts, List.forall_mem_append, forall_mem_ofElements, forall_mem_ofMarks,
    Option.mem_toList, Node.toJson] at hparts
  obtain ⟨⟨henclosing, henclosed⟩, hmarks⟩ := hparts
  simp only [Header.toJson, Json.numberless, Json.numberlessFields, elementJson?_eq,
    elementsJson_eq, annotationsJson_eq, fileJson?_eq, numberless_ofText?, numberless_modifiers,
    numberless_option henclosing, numberless_list henclosed, numberless_list hmarks,
    numberless_option fun f _ => numberless_file f, Bool.and_self]

theorem ClassElement.numberless {c : ClassElement}
    (hparts : ∀ m ∈ (Element.classLike c).parts, m.toJson.numberless = true) :
    c.toJson.numberless = true := by
  obtain ⟨header, kind, superclass, interfaces, parameters, companion, supertypes, inner, isLocal,
    anonymous, isCompanion⟩ := c
  simp only [Element.parts, List.forall_mem_append, forall_mem_ofTypes, forall_mem_ofElements,
    List.forall_mem_map, Option.mem_toList, Node.toJson, Element.toJson,
    numberless_tagged] at hparts
  obtain ⟨⟨hheader, hsuperclass, hinterfaces⟩, hparameters, hcompanion⟩ := hparts
  simp only [ClassElement.toJson, Json.numberless, Json.numberlessFields, tyJson?_eq, tysJson_eq,
    typeParametersJson_eq, classJson?_eq, Header.numberless hheader, numberless_option hsuperclass,
    numberless_list hinterfaces, numberless_list hparameters, numberless_option hcompanion,
    numberless_strings, Bool.and_self]

theorem Callable.numberless {c : Callable}
    (hparts : ∀ m ∈ (Element.callable c).parts, m.toJson.numberless = true) :
    c.toJson.numberless = true := by
  obtain ⟨header, returnType, parameters, typeParameters, thrown, receiver, varargs, isAbstract,
    isDefault, isSuspend, isInline, isOperator, isInfix⟩ := c
  simp only [Element.parts, List.forall_mem_append, forall_mem_ofTypes, forall_mem_ofElements,
    List.forall_mem_map, List.forall_mem_cons, Option.mem_toList, Node.toJson, Element.toJson,
    numberless_tagged] at hparts
  obtain ⟨⟨hheader, hreturn, hthrown, hreceiver⟩, hparameters, htypeParameters⟩ := hparts
  simp only [Callable.toJson, Json.numberless, Json.numberlessFields, tyJson?_eq, tysJson_eq,
    typeParametersJson_eq, variablesJson_eq, Header.numberless hheader, hreturn,
    numberless_list hparameters, numberless_list htypeParameters, numberless_list hthrown,
    numberless_option hreceiver, Bool.and_self]

theorem Variable.numberless {v : Variable}
    (hparts : ∀ m ∈ (Element.variable v).parts, m.toJson.numberless = true) :
    v.toJson.numberless = true := by
  obtain ⟨header, type, kind, constant, isMutable, isConst, isLateinit, hasDefault⟩ := v
  simp only [Element.parts, List.forall_mem_append, forall_mem_ofTypes, forall_mem_ofValues,
    List.forall_mem_singleton, Option.mem_toList, Node.toJson] at hparts
  obtain ⟨⟨hheader, htype⟩, hconstant⟩ := hparts
  simp only [Variable.toJson, Json.numberless, Json.numberlessFields, valueJson?_eq,
    Header.numberless hheader, htype, numberless_option hconstant, Bool.and_self]

theorem Property.numberless {p : Property}
    (hparts : ∀ m ∈ (Element.property p).parts, m.toJson.numberless = true) :
    p.toJson.numberless = true := by
  obtain ⟨header, type, constant, isMutable, isConst, isLateinit, getter, setter, field,
    customGetter, customSetter, delegate, receiver⟩ := p
  simp only [Element.parts, List.forall_mem_append, forall_mem_ofTypes, forall_mem_ofElements,
    forall_mem_ofValues, List.forall_mem_map, List.forall_mem_cons, Option.mem_toList,
    Node.toJson, Element.toJson, numberless_tagged] at hparts
  obtain ⟨⟨⟨hheader, htype, hreceiver⟩, hconstant⟩, ⟨hgetter, hsetter⟩, hfield⟩ := hparts
  simp only [Property.toJson, Json.numberless, Json.numberlessFields, tyJson?_eq, valueJson?_eq,
    callableJson?_eq, variableJson?_eq, Header.numberless hheader, htype,
    numberless_option hconstant, numberless_option hgetter, numberless_option hsetter,
    numberless_option hfield, numberless_ofText?, numberless_option hreceiver, Bool.and_self]

theorem TypeParameter.numberless {p : TypeParameter}
    (hparts : ∀ m ∈ (Element.typeParameter p).parts, m.toJson.numberless = true) :
    p.toJson.numberless = true := by
  obtain ⟨header, bounds, variance, reified⟩ := p
  simp only [Element.parts, List.forall_mem_append, forall_mem_ofTypes, Node.toJson] at hparts
  obtain ⟨hheader, hbounds⟩ := hparts
  simp only [TypeParameter.toJson, Json.numberless, Json.numberlessFields, tysJson_eq,
    Header.numberless hheader, numberless_list hbounds, Bool.and_self]

theorem Element.numberless {e : Element} (hparts : ∀ m ∈ e.parts, m.toJson.numberless = true) :
    e.toJson.numberless = true := by
  cases e with
  | classLike c => exact numberless_tagged.trans (ClassElement.numberless hparts)
  | callable c => exact numberless_tagged.trans (Callable.numberless hparts)
  | «variable» v => exact numberless_tagged.trans (Variable.numberless hparts)
  | property p => exact numberless_tagged.trans (Property.numberless hparts)
  | typeParameter p => exact numberless_tagged.trans (TypeParameter.numberless hparts)
  | stub s => exact numberless_tagged.trans (numberless_stub s)

theorem TyForm.numberless {form : TyForm}
    (hparts : ∀ m ∈ form.parts, m.toJson.numberless = true) : form.toJson.numberless = true := by
  cases form with
  | array component =>
    simp only [TyForm.parts, List.forall_mem_singleton, Node.toJson] at hparts
    simp only [TyForm.toJson, numberless_tagged, Json.numberless, Json.numberlessFields, hparts,
      Bool.and_self]
  | declared element enclosing =>
    simp only [TyForm.parts, List.forall_mem_cons, forall_mem_ofTypes, Option.mem_toList,
      Node.toJson, Element.toJson, numberless_tagged] at hparts
    simp only [TyForm.toJson, numberless_tagged, Json.numberless, Json.numberlessFields,
      tyJson?_eq, hparts.1, numberless_option hparts.2, Bool.and_self]
  | «variable» parameter =>
    simp only [TyForm.parts, List.forall_mem_singleton, Node.toJson, Element.toJson,
      numberless_tagged] at hparts
    simp only [TyForm.toJson, numberless_tagged, Json.numberless, Json.numberlessFields, hparts,
      Bool.and_self]
  | primitive | wildcard | noType | unknown => simp only [TyForm.toJson, Json.numberless]

theorem Ty.numberless {t : Ty} (hparts : ∀ m ∈ t.parts, m.toJson.numberless = true) :
    t.toJson.numberless = true := by
  obtain ⟨kind, name, qualified, nullable, arguments, upper, lower, declaration, annotations,
    form⟩ := t
  simp only [Ty.parts, List.forall_mem_append, forall_mem_ofTypes, forall_mem_ofElements,
    forall_mem_ofMarks, Option.mem_toList, Node.toJson] at hparts
  obtain ⟨⟨⟨⟨⟨harguments, hupper⟩, hlower⟩, hdeclaration⟩, hmarks⟩, hform⟩ := hparts
  simp only [Ty.toJson, Json.numberless, Json.numberlessFields, numberless_ofText?, tysJson_eq,
    elementJson?_eq, annotationsJson_eq, numberless_list harguments, numberless_list hupper,
    numberless_list hlower, numberless_option hdeclaration, numberless_list hmarks,
    TyForm.numberless hform, Bool.and_self]

theorem Annotation.numberless {a : Annotation}
    (hparts : ∀ m ∈ a.parts, m.toJson.numberless = true) : a.toJson.numberless = true := by
  obtain ⟨type, name, qualified, arguments⟩ := a
  simp only [List.forall_mem_cons, Annotation.parts, forall_mem_ofValues, List.forall_mem_map,
    Node.toJson] at hparts
  have harguments : Json.numberlessFields (argumentsJson arguments) = true := by
    rw [argumentsJson_eq, Json.numberlessFields_iff]
    exact List.forall_mem_map.mpr hparts.2
  simp only [Json.numberless, Annotation.toJson, Json.numberlessFields, numberless_ofText?,
    hparts.1, harguments, Bool.and_self]

theorem Value.numberless {v : Value} (hself : (Node.value v).NotFloating)
    (hparts : ∀ m ∈ v.parts, m.toJson.numberless = true) : v.toJson.numberless = true := by
  cases v with
  | literal l => exact numberless_tagged.trans (numberless_literal hself)
  | enumConstant type constant =>
    simp only [Value.parts, List.forall_mem_cons, Node.toJson] at hparts
    simp only [Value.toJson, numberless_tagged, Json.numberless, Json.numberlessFields, hparts.1,
      hparts.2.1, Bool.and_self]
  | array values =>
    simp only [Value.parts, forall_mem_ofValues, Node.toJson] at hparts
    simp only [Value.toJson, numberless_tagged, Json.numberless, valuesJson_eq,
      numberless_list hparts]
  | nested content =>
    simp only [Value.parts, List.forall_mem_singleton, Node.toJson] at hparts
    rw [Value.toJson, numberless_tagged, hparts]
  | string _ | classLiteral _ _ | unknown _ =>
    simp only [Value.toJson, numberless_tagged, Json.numberless, Json.numberlessFields,
      Bool.and_self]

/-- **What a part without floating point numbers is written as holds no number by its
text.** -/
theorem Node.numberless_of_every {n : Node} (h : n.Every Node.NotFloating) :
    n.toJson.numberless = true := by
  revert h
  refine Node.induction (P := fun n => n.Every Node.NotFloating → n.toJson.numberless = true)
    (fun n ih h => ?_) n
  obtain ⟨hself, hbelow⟩ := Node.every_iff.mp h
  have hparts : ∀ m ∈ n.parts, m.toJson.numberless = true := fun m hm => ih m hm (hbelow m hm)
  cases n with
  | element e => exact Element.numberless hparts
  | type t => exact Ty.numberless hparts
  | mark a => exact Annotation.numberless hparts
  | value v => exact Value.numberless hself hparts

/-- **Elements without floating point numbers are the same if their texts are**, with the
arguments of annotations in the same order. -/
theorem Element.eq_of_jsonText_eq {e e' : Element} (h : (Node.element e).Every Node.NotFloating)
    (h' : (Node.element e').Every Node.NotFloating) (htext : e.jsonText = e'.jsonText) :
    e = e' := by
  have hjson : e.toJson = e'.toJson :=
    Json.eq_of_text_eq (Node.numberless_of_every h) (Node.numberless_of_every h') htext
  exact Node.legible_of_every h e' hjson

/-- A type parameter with a name to escape and an annotation with two arguments: which
modifier was given first makes no difference, and which argument comes first makes one. -/
theorem Element.eq_of_jsonText_eq_escaped :
    let one : String × Value := ("b", .literal (.int 1))
    let other : String × Value := ("a", .string "\\")
    let e : List Modifier → List (String × Value) → Element := fun ms arguments => .typeParameter
      ⟨{ Header.plain "T\"\n" .typeParameter with
          annotations := [⟨.unknown, "Marker", some "app.Marker", arguments⟩],
          modifiers := .ofList ms }, [.unknown], .covariant, true⟩
    (∀ ms arguments, arguments ⊆ [one, other] →
      (Node.element (e ms arguments)).Every Node.NotFloating) ∧
    (e [.covariant, .reified] [one, other]).jsonText =
      (e [.reified, .covariant] [one, other]).jsonText ∧
    e [.covariant, .reified] [one, other] = e [.reified, .covariant] [one, other] ∧
    (e [] [one, other]).jsonText ≠ (e [] [other, one]).jsonText := by
  intro one other e
  have hunknown : (Node.type .unknown).Every Node.NotFloating :=
    Node.every_type trivial (by simp [Ty.unknown, Ty.rendered, Ty.bare])
      (by simp [Ty.unknown, Ty.rendered, Ty.bare]) (by simp [Ty.unknown, Ty.rendered, Ty.bare])
      (by simp [Ty.unknown, Ty.rendered, Ty.bare]) (by simp [Ty.unknown, Ty.rendered, Ty.bare])
      (by simp [Ty.unknown, Ty.rendered, Ty.bare, TyForm.parts])
  have hvalues : ∀ a ∈ [one, other], (Node.value a.2).Every Node.NotFloating := by
    refine List.forall_mem_cons.mpr ⟨?_, List.forall_mem_singleton.mpr ?_⟩
    · exact Node.every_iff.mpr ⟨rfl, by simp [one, Node.parts, Value.parts]⟩
    · exact Node.every_iff.mpr ⟨trivial, by simp [other, Node.parts, Value.parts]⟩
  have hall : ∀ ms arguments, arguments ⊆ [one, other] →
      (Node.element (e ms arguments)).Every Node.NotFloating := by
    intro ms arguments hsub
    refine Node.every_typeParameter trivial ⟨?_, ?_, ?_⟩ ?_
    · simp [Header.plain]
    · simp [Header.plain]
    · intro a ha
      obtain rfl := List.mem_singleton.mp ha
      exact Node.every_mark trivial hunknown fun argument hm => hvalues argument (hsub hm)
    · simpa using hunknown
  have hsets : ModifierSet.ofList [.covariant, .reified] = .ofList [.reified, .covariant] := by
    decide
  have htext : (e [.covariant, .reified] [one, other]).jsonText =
      (e [.reified, .covariant] [one, other]).jsonText := by
    simp only [e, hsets]
  have hself : [one, other] ⊆ [one, other] := List.Subset.refl _
  refine ⟨hall, htext, Element.eq_of_jsonText_eq (hall _ _ hself) (hall _ _ hself) htext, ?_⟩
  intro hswapped
  have hsame := Element.eq_of_jsonText_eq (hall _ _ hself) (hall _ _ (by simp)) hswapped
  simp [e, one, other] at hsame

end SymbolGraph
