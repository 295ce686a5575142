/-
# Different values have different texts

A value is written out so that it can be told where it ends: a text ends at the first
quote that is not escaped, brackets close on a line of their own, and a whole number ends
where its digits do. So if two values are written with something behind each that does not
begin with a digit, and the results are the same, then the values are the same and so is
what is behind them (`Json.pretty_split`). Values with numbers that are written by their
text are left out: such a text can be that of anything.

Key definitions: `readChar?`, `Json.numberless`, `Json.shape`, `Ended`.
Key theorems: `readChar?_escapeChar`, `quoted_split`, `wholeText_split`,
`Json.pretty_split`, `Json.eq_of_text_eq`.
-/
import Mathlib.Tactic.SplitIfs
import SymbolGraph.Text.Json

namespace SymbolGraph
namespace Text

/-! ### Characters in quotes -/

/-- The character that a letter behind a backslash stands for. -/
def named? : Char → Option Char
  | '"' => some '"'
  | '\\' => some '\\'
  | 'n' => some '\n'
  | 't' => some '\t'
  | 'r' => some '\r'
  | 'b' => some (Char.ofNat 8)
  | 'f' => some (Char.ofNat 12)
  | _ => none

/-- The first character inside quotes, and what is behind it; a quote ends the text. -/
def readChar? : List Char → Option (Char × List Char)
  | '"' :: _ => none
  | '\\' :: 'u' :: a :: b :: c :: d :: rest =>
    (hexValue? (String.ofList [a, b, c, d])).map fun n => (Char.ofNat n, rest)
  | '\\' :: letter :: rest => (named? letter).map fun c => (c, rest)
  | c :: rest => some (c, rest)
  | [] => none

/-- The four digits of a control character give its number. -/
theorem hexValue?_control : ∀ n < 32, hexValue? (String.ofList (hexDigits 4 n)) = some n := by
  decide +kernel

/-- An escaped character is read back. -/
theorem readChar?_escapeChar (c : Char) (rest : List Char) :
    readChar? (escapeChar c ++ rest) = some (c, rest) := by
  unfold escapeChar
  split_ifs with hquote hslash hline htab hreturn hback hfeed hcontrol
  · subst hquote; rfl
  · subst hslash; rfl
  · subst hline; rfl
  · subst htab; rfl
  · subst hreturn; rfl
  · have hc : Char.ofNat 8 = c := hback ▸ Char.ofNat_toNat c
    subst hc; rfl
  · have hc : Char.ofNat 12 = c := hfeed ▸ Char.ofNat_toNat c
    subst hc; rfl
  · obtain ⟨x, y, z, w, hdigits⟩ : ∃ x y z w, hexDigits 4 c.toNat = [x, y, z, w] :=
      ⟨_, _, _, _, rfl⟩
    have hvalue := hexValue?_control c.toNat hcontrol
    rw [hdigits] at hvalue ⊢
    simp only [List.cons_append, List.nil_append, readChar?, hvalue, Option.map_some,
      Char.ofNat_toNat]
  · simp only [List.cons_append, List.nil_append]
    unfold readChar?
    split <;> simp_all

theorem escapeChar_split {c d : Char} {r s : List Char}
    (h : escapeChar c ++ r = escapeChar d ++ s) : c = d ∧ r = s := by
  have hread := congrArg readChar? h
  rw [readChar?_escapeChar, readChar?_escapeChar, Option.some.injEq, Prod.mk.injEq] at hread
  exact hread

/-- No escaped character begins with a quote. -/
theorem escapeChar_ne_quote {c : Char} {r s : List Char} : escapeChar c ++ r ≠ '"' :: s := by
  intro h
  have hread := congrArg readChar? h
  rw [readChar?_escapeChar] at hread
  exact absurd hread (by simp [readChar?])

theorem escaped_split : ∀ {cs ds r s : List Char},
    cs.flatMap escapeChar ++ '"' :: r = ds.flatMap escapeChar ++ '"' :: s → cs = ds ∧ r = s
  | [], [], _, _, h => ⟨rfl, List.tail_eq_of_cons_eq h⟩
  | [], d :: ds, _, _, h => by
    rw [List.flatMap_cons, List.append_assoc] at h
    exact absurd h.symm escapeChar_ne_quote
  | c :: cs, [], _, _, h => by
    rw [List.flatMap_cons, List.append_assoc] at h
    exact absurd h escapeChar_ne_quote
  | c :: cs, d :: ds, _, _, h => by
    rw [List.flatMap_cons, List.flatMap_cons, List.append_assoc, List.append_assoc] at h
    obtain ⟨rfl, hrest⟩ := escapeChar_split h
    obtain ⟨rfl, hends⟩ := escaped_split hrest
    exact ⟨rfl, hends⟩

/-- A text in quotes ends at its last quote. -/
theorem quoted_split {a b : String} {r s : List Char} (h : quoted a ++ r = quoted b ++ s) :
    a = b ∧ r = s := by
  simp only [quoted, List.cons_append, List.append_assoc, List.cons.injEq, true_and,
    List.nil_append] at h
  obtain ⟨hchars, hends⟩ := escaped_split h
  exact ⟨String.toList_inj.mp hchars, hends⟩

/-! ### Whole numbers -/

/-- What is behind a value does not begin with a digit. -/
def Ended (rest : List Char) : Prop := ∀ c ∈ rest.head?, c.isDigit = false

theorem ended_nil : Ended [] := by simp [Ended]

theorem ended_cons {c : Char} {rest : List Char} (h : c.isDigit = false) : Ended (c :: rest) := by
  simpa [Ended] using h

/-- Digits end where something else begins. -/
theorem digits_split {ds es r s : List Char} (hds : ∀ c ∈ ds, c.isDigit = true)
    (hes : ∀ c ∈ es, c.isDigit = true) (hr : Ended r) (hs : Ended s) (h : ds ++ r = es ++ s) :
    ds = es ∧ r = s := by
  rcases List.append_eq_append_iff.mp h with ⟨more, rfl, rfl⟩ | ⟨more, rfl, rfl⟩
  · cases more with
    | nil => simp
    | cons c more =>
      have hdigit : c.isDigit = true := hes c (by simp)
      exact absurd hdigit (by simp [hr c (by simp)])
  · cases more with
    | nil => simp
    | cons c more =>
      have hdigit : c.isDigit = true := hds c (by simp)
      exact absurd hdigit (by simp [hs c (by simp)])

theorem toDigits_split {m n : Nat} {r s : List Char} (hr : Ended r) (hs : Ended s)
    (h : Nat.toDigits 10 m ++ r = Nat.toDigits 10 n ++ s) : m = n ∧ r = s := by
  have hdigit : ∀ k, ∀ c ∈ Nat.toDigits 10 k, c.isDigit = true := fun k c hc =>
    Nat.isDigit_of_mem_toDigits (by decide) (by decide) hc
  obtain ⟨hdigits, hends⟩ := digits_split (hdigit m) (hdigit n) hr hs h
  have hvalue := congrArg (fun ds => Nat.ofDigitChars 10 ds 0) hdigits
  simp only [Nat.ofDigitChars_toDigits (b := 10) (by decide) (by decide)] at hvalue
  exact ⟨hvalue, hends⟩

theorem exists_digit (n : Nat) : ∃ c cs, Nat.toDigits 10 n = c :: cs ∧ c.isDigit = true := by
  obtain ⟨c, cs, hdigits⟩ := List.exists_cons_of_ne_nil (Nat.toDigits_ne_nil (b := 10) (n := n))
  refine ⟨c, cs, hdigits, Nat.isDigit_of_mem_toDigits (b := 10) (n := n) (by decide) (by decide) ?_⟩
  rw [hdigits]
  exact List.mem_cons_self

/-- No number without a sign is one with a sign. -/
theorem toDigits_ne_negative {n : Nat} {r s : List Char} :
    Nat.toDigits 10 n ++ r ≠ '-' :: s := by
  obtain ⟨c, cs, hdigits, hc⟩ := exists_digit n
  rw [hdigits]
  rintro heq
  obtain rfl : c = '-' := (List.cons.inj heq).1
  exact absurd hc (by decide)

/-- A whole number ends where its digits do. -/
theorem wholeText_split {m n : Int} {r s : List Char} (hr : Ended r) (hs : Ended s)
    (h : Decimal.wholeText m ++ r = Decimal.wholeText n ++ s) : m = n ∧ r = s := by
  cases m with
  | ofNat m =>
    cases n with
    | ofNat n =>
      obtain ⟨rfl, hends⟩ := toDigits_split hr hs h
      exact ⟨rfl, hends⟩
    | negSucc n => exact absurd h toDigits_ne_negative
  | negSucc m =>
    cases n with
    | ofNat n => exact absurd h.symm toDigits_ne_negative
    | negSucc n =>
      obtain ⟨hsame, hends⟩ := toDigits_split hr hs (List.cons.inj h).2
      exact ⟨by rw [Nat.add_right_cancel hsame], hends⟩

/-! ### Values -/

/-- What sort of value a value is. -/
inductive Shape
  | null | bool | whole | string | array | object
  deriving DecidableEq

namespace Json

mutual

/-- Whether no number in a value is written by its text. -/
def numberless : Json → Bool
  | .number _ => false
  | .array items => numberlessItems items
  | .object fields => numberlessFields fields
  | .null | .bool _ | .whole _ | .string _ => true

/-- Whether no number in some items is written by its text. -/
def numberlessItems : List Json → Bool
  | [] => true
  | item :: items => item.numberless && numberlessItems items

/-- Whether no number in some fields is written by its text. -/
def numberlessFields : List (String × Json) → Bool
  | [] => true
  | (_, value) :: fields => value.numberless && numberlessFields fields

end

theorem numberlessItems_iff : ∀ {items : List Json},
    numberlessItems items = true ↔ ∀ item ∈ items, item.numberless = true
  | [] => by simp [numberlessItems]
  | item :: items => by simp [numberlessItems, @numberlessItems_iff items]

theorem numberlessFields_iff : ∀ {fields : List (String × Json)},
    numberlessFields fields = true ↔ ∀ field ∈ fields, field.2.numberless = true
  | [] => by simp [numberlessFields]
  | (_, value) :: fields => by simp [numberlessFields, @numberlessFields_iff fields]

/-- The sort of a value; a number that is written by its text counts as a whole one. -/
def shape : Json → Shape
  | .null => .null
  | .bool _ => .bool
  | .whole _ | .number _ => .whole
  | .string _ => .string
  | .array _ => .array
  | .object _ => .object

/-- The sort of the values whose texts begin with a character. -/
def shapeOf (c : Char) : Shape :=
  if c = 'n' then .null
  else if c = 't' ∨ c = 'f' then .bool
  else if c = '"' then .string
  else if c = '[' then .array
  else if c = '\x7b' then .object
  else .whole

theorem shapeOf_digit {c : Char} (h : c.isDigit = true) : shapeOf c = .whole := by
  have hne : ∀ d : Char, d.isDigit = false → c ≠ d := by
    rintro d hd rfl
    rw [h] at hd
    exact absurd hd (by decide)
  simp only [shapeOf, if_neg (hne 'n' (by decide)), hne 't' (by decide), hne 'f' (by decide),
    or_self, if_false, if_neg (hne '"' (by decide)), if_neg (hne '[' (by decide)),
    if_neg (hne '\x7b' (by decide))]

/-- The first character of a value tells its sort. -/
theorem exists_first (level : Nat) {j : Json} (h : j.numberless = true) :
    ∃ c cs, j.pretty level = c :: cs ∧ shapeOf c = j.shape := by
  cases j with
  | null => exact ⟨'n', _, by rw [pretty], by decide⟩
  | bool b =>
    cases b with
    | true => exact ⟨'t', _, by rw [pretty], by simp [shapeOf, shape]⟩
    | false => exact ⟨'f', _, by rw [pretty], by simp [shapeOf, shape]⟩
  | whole n =>
    cases n with
    | ofNat n =>
      obtain ⟨c, cs, hdigits, hc⟩ := exists_digit n
      exact ⟨c, cs, by rw [pretty]; exact hdigits, shapeOf_digit hc⟩
    | negSucc n => exact ⟨'-', _, by rw [pretty]; rfl, by simp [shapeOf, shape]⟩
  | number text => simp [numberless] at h
  | string s => exact ⟨'"', _, by rw [pretty, quoted, List.cons_append], by simp [shapeOf, shape]⟩
  | array items =>
    cases items with
    | nil => exact ⟨'[', _, by rw [pretty], by simp [shapeOf, shape]⟩
    | cons item items => exact ⟨'[', _, by rw [pretty]; rfl, by simp [shapeOf, shape]⟩
  | object fields =>
    cases fields with
    | nil => exact ⟨'\x7b', _, by rw [pretty], by simp [shapeOf, shape]⟩
    | cons field fields => exact ⟨'\x7b', _, by rw [pretty]; rfl, by simp [shapeOf, shape]⟩

/-- Values of different sorts have different texts. -/
theorem shape_eq {level : Nat} {a b : Json} {r s : List Char} (ha : a.numberless = true)
    (hb : b.numberless = true) (h : a.pretty level ++ r = b.pretty level ++ s) :
    a.shape = b.shape := by
  obtain ⟨c, cs, hac, hc⟩ := exists_first level ha
  obtain ⟨d, ds, hbd, hd⟩ := exists_first level hb
  rw [hac, hbd, List.cons_append, List.cons_append] at h
  rw [← hc, ← hd, (List.cons.inj h).1]

theorem pretty_array (level : Nat) (item : Json) (items : List Json) (r : List Char) :
    pretty level (.array (item :: items)) ++ r = '[' :: (newline (level + 1) ++
      (pretty (level + 1) item ++
        (prettyItems (level + 1) items ++ (newline level ++ ']' :: r)))) := by
  rw [pretty]
  simp only [List.append_assoc, List.cons_append, List.nil_append]

theorem prettyItems_cons (level : Nat) (item : Json) (items : List Json) (r : List Char) :
    prettyItems level (item :: items) ++ r =
      ',' :: (newline level ++ (pretty level item ++ (prettyItems level items ++ r))) := by
  rw [prettyItems]
  simp only [List.append_assoc, List.cons_append]

theorem pretty_object (level : Nat) (name : String) (value : Json)
    (fields : List (String × Json)) (r : List Char) :
    pretty level (.object ((name, value) :: fields)) ++ r = '\x7b' :: (newline (level + 1) ++
      (quoted name ++ ':' :: ' ' :: (pretty (level + 1) value ++
        (prettyFields (level + 1) fields ++ (newline level ++ '\x7d' :: r))))) := by
  rw [pretty]
  simp only [List.append_assoc, List.cons_append, List.nil_append]

theorem prettyFields_cons (level : Nat) (name : String) (value : Json)
    (fields : List (String × Json)) (r : List Char) :
    prettyFields level ((name, value) :: fields) ++ r =
      ',' :: (newline level ++ (quoted name ++ ':' :: ' ' :: (pretty level value ++
        (prettyFields level fields ++ r)))) := by
  rw [prettyFields]
  simp only [List.append_assoc, List.cons_append]

theorem ended_newline (level : Nat) (r : List Char) : Ended (newline level ++ r) :=
  ended_cons (by decide)

theorem ended_items (level : Nat) {items : List Json} {r : List Char} (hr : Ended r) :
    Ended (prettyItems level items ++ r) := by
  cases items with
  | nil => simpa [prettyItems] using hr
  | cons item items => exact prettyItems_cons level item items r ▸ ended_cons (by decide)

theorem ended_fields (level : Nat) {fields : List (String × Json)} {r : List Char}
    (hr : Ended r) : Ended (prettyFields level fields ++ r) := by
  cases fields with
  | nil => simpa [prettyFields] using hr
  | cons field fields =>
    exact prettyFields_cons level field.1 field.2 fields r ▸ ended_cons (by decide)

/-- The line of a closing bracket holds no item. -/
theorem newline_ne_items {level outer : Nat} {item : Json} {items : List Json} {r s : List Char} :
    newline outer ++ r ≠ prettyItems level (item :: items) ++ s := by
  rw [prettyItems_cons, newline, List.cons_append]
  exact fun heq => absurd (List.cons.inj heq).1 (by decide)

theorem newline_ne_fields {level outer : Nat} {field : String × Json}
    {fields : List (String × Json)} {r s : List Char} :
    newline outer ++ r ≠ prettyFields level (field :: fields) ++ s := by
  rw [prettyFields_cons, newline, List.cons_append]
  exact fun heq => absurd (List.cons.inj heq).1 (by decide)

/-- Empty brackets are not those of something. -/
theorem bracket_ne_newline {c : Char} (h : c ≠ '\n') {level : Nat} {r s : List Char} :
    c :: r ≠ newline level ++ s := by
  rw [newline, List.cons_append]
  exact fun heq => h (List.cons.inj heq).1

mutual

/-- **A value is told from what is behind it.** -/
theorem pretty_split (level : Nat) : ∀ {a b : Json} {r s : List Char}, a.numberless = true →
    b.numberless = true → Ended r → Ended s → a.pretty level ++ r = b.pretty level ++ s →
    a = b ∧ r = s
  | .null, b, r, s, ha, hb, hr, hs, h => by
    have hshape := shape_eq ha hb h
    cases b with
    | null => exact ⟨rfl, List.append_cancel_left h⟩
    | _ => exact absurd hshape (by simp [shape])
  | .bool x, b, r, s, ha, hb, hr, hs, h => by
    have hshape := shape_eq ha hb h
    cases b with
    | bool y => cases x <;> cases y <;> simp_all [pretty]
    | _ => exact absurd hshape (by simp [shape])
  | .whole m, b, r, s, ha, hb, hr, hs, h => by
    have hshape := shape_eq ha hb h
    cases b with
    | whole n =>
      rw [pretty, pretty] at h
      obtain ⟨rfl, hends⟩ := wholeText_split hr hs h
      exact ⟨rfl, hends⟩
    | number text => exact absurd hb (by simp [numberless])
    | _ => exact absurd hshape (by simp [shape])
  | .number text, b, r, s, ha, hb, hr, hs, h => absurd ha (by simp [numberless])
  | .string x, b, r, s, ha, hb, hr, hs, h => by
    have hshape := shape_eq ha hb h
    cases b with
    | string y =>
      rw [pretty, pretty] at h
      obtain ⟨rfl, hends⟩ := quoted_split h
      exact ⟨rfl, hends⟩
    | _ => exact absurd hshape (by simp [shape])
  | .array [], b, r, s, ha, hb, hr, hs, h => by
    have hshape := shape_eq ha hb h
    cases b with
    | array items =>
      cases items with
      | nil => exact ⟨rfl, List.append_cancel_left h⟩
      | cons item items =>
        rw [pretty_array, pretty] at h
        exact absurd (List.cons.inj h).2 (bracket_ne_newline (by decide))
    | _ => exact absurd hshape (by simp [shape])
  | .array (x :: xs), b, r, s, ha, hb, hr, hs, h => by
    have hshape := shape_eq ha hb h
    cases b with
    | array items =>
      cases items with
      | nil =>
        rw [pretty_array, pretty] at h
        exact absurd (List.cons.inj h).2.symm (bracket_ne_newline (by decide))
      | cons y ys =>
        rw [numberless, numberlessItems, Bool.and_eq_true] at ha hb
        rw [pretty_array, pretty_array] at h
        obtain ⟨rfl, hitems⟩ := pretty_split (level + 1) ha.1 hb.1
          (ended_items _ (ended_newline _ _)) (ended_items _ (ended_newline _ _))
          (List.append_cancel_left (List.cons.inj h).2)
        obtain ⟨rfl, hclosed⟩ := prettyItems_split (level + 1) level ha.2 hb.2 hitems
        exact ⟨rfl, (List.cons.inj hclosed).2⟩
    | _ => exact absurd hshape (by simp [shape])
  | .object [], b, r, s, ha, hb, hr, hs, h => by
    have hshape := shape_eq ha hb h
    cases b with
    | object fields =>
      cases fields with
      | nil => exact ⟨rfl, List.append_cancel_left h⟩
      | cons field fields =>
        rw [pretty_object, pretty] at h
        exact absurd (List.cons.inj h).2 (bracket_ne_newline (by decide))
    | _ => exact absurd hshape (by simp [shape])
  | .object ((name, value) :: fields), b, r, s, ha, hb, hr, hs, h => by
    have hshape := shape_eq ha hb h
    cases b with
    | object fields' =>
      cases fields' with
      | nil =>
        rw [pretty_object, pretty] at h
        exact absurd (List.cons.inj h).2.symm (bracket_ne_newline (by decide))
      | cons field' fields' =>
        rw [numberless, numberlessFields, Bool.and_eq_true] at ha hb
        rw [pretty_object, pretty_object] at h
        obtain ⟨rfl, hvalue⟩ := quoted_split (List.append_cancel_left (List.cons.inj h).2)
        obtain ⟨rfl, hfields⟩ := pretty_split (level + 1) ha.1 hb.1
          (ended_fields _ (ended_newline _ _)) (ended_fields _ (ended_newline _ _))
          (List.cons.inj (List.cons.inj hvalue).2).2
        obtain ⟨rfl, hclosed⟩ := prettyFields_split (level + 1) level ha.2 hb.2 hfields
        exact ⟨rfl, (List.cons.inj hclosed).2⟩
    | _ => exact absurd hshape (by simp [shape])

/-- Items are told from the line of the closing bracket. -/
theorem prettyItems_split (level outer : Nat) : ∀ {as bs : List Json} {r s : List Char},
    numberlessItems as = true → numberlessItems bs = true →
    prettyItems level as ++ (newline outer ++ r) = prettyItems level bs ++ (newline outer ++ s) →
    as = bs ∧ r = s
  | [], [], r, s, ha, hb, h => ⟨rfl, List.append_cancel_left h⟩
  | [], b :: bs, r, s, ha, hb, h => absurd h newline_ne_items
  | a :: as, [], r, s, ha, hb, h => absurd h.symm newline_ne_items
  | a :: as, b :: bs, r, s, ha, hb, h => by
    rw [numberlessItems, Bool.and_eq_true] at ha hb
    rw [prettyItems_cons, prettyItems_cons] at h
    obtain ⟨rfl, hitems⟩ := pretty_split level ha.1 hb.1
      (ended_items _ (ended_newline _ _)) (ended_items _ (ended_newline _ _))
      (List.append_cancel_left (List.cons.inj h).2)
    obtain ⟨rfl, hclosed⟩ := prettyItems_split level outer ha.2 hb.2 hitems
    exact ⟨rfl, hclosed⟩

/-- Fields are told from the line of the closing bracket. -/
theorem prettyFields_split (level outer : Nat) :
    ∀ {as bs : List (String × Json)} {r s : List Char},
    numberlessFields as = true → numberlessFields bs = true →
    prettyFields level as ++ (newline outer ++ r) = prettyFields level bs ++ (newline outer ++ s) →
    as = bs ∧ r = s
  | [], [], r, s, ha, hb, h => ⟨rfl, List.append_cancel_left h⟩
  | [], b :: bs, r, s, ha, hb, h => absurd h newline_ne_fields
  | a :: as, [], r, s, ha, hb, h => absurd h.symm newline_ne_fields
  | (name, value) :: as, (name', value') :: bs, r, s, ha, hb, h => by
    rw [numberlessFields, Bool.and_eq_true] at ha hb
    rw [prettyFields_cons, prettyFields_cons] at h
    obtain ⟨rfl, hvalue⟩ := quoted_split (List.append_cancel_left (List.cons.inj h).2)
    obtain ⟨rfl, hfields⟩ := pretty_split level ha.1 hb.1
      (ended_fields _ (ended_newline _ _)) (ended_fields _ (ended_newline _ _))
      (List.cons.inj (List.cons.inj hvalue).2).2
    obtain ⟨rfl, hclosed⟩ := prettyFields_split level outer ha.2 hb.2 hfields
    exact ⟨rfl, hclosed⟩

end

/-- **Different values without numbers by text have different texts.** -/
theorem eq_of_text_eq {a b : Json} (ha : a.numberless = true) (hb : b.numberless = true)
    (h : a.text = b.text) : a = b := by
  have hchars : a.pretty 0 ++ [] = b.pretty 0 ++ [] := by
    rw [List.append_nil, List.append_nil]
    exact String.ofList_injective h
  exact (pretty_split 0 ha hb ended_nil ended_nil hchars).1

end Json
end Text
end SymbolGraph
