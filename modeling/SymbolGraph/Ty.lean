/-
# Types

A type carries its own text, the canonical name, which is made from the texts
of its arguments and bounds when the type is put together (`Ty.rendered`). The
functions here are the only ways to put one together, so the text always fits.
A type that was not found is `Ty.unknown`.

Key definitions: `Ty.render`, `Ty.rendered`, `Ty.unknown`, `Ty.noType`,
`Ty.primitive`, `Ty.declared`, `Ty.array`, `Ty.typeVariable`, `Ty.wildcard`,
`Ty.withNullable`.
-/
import SymbolGraph.Element.Access

namespace SymbolGraph

/-- A class known by its qualified name only. -/
def ClassElement.named (name : String) (kind : ClassKind) : ClassElement where
  header :=
    { Header.plain (QualifiedName.simpleName name) kind.elementKind with
      qualifiedName := some name
      packageName :=
        if (QualifiedName.packageName name).isEmpty then none
        else some (QualifiedName.packageName name) }
  kind
  superclass := none
  interfaces := []
  typeParameters := []
  companion := none
  allSupertypes := []
  isInner := false
  isLocal := false
  isAnonymous := false
  isCompanion := false

/-- The text of a type that was not found. -/
def unknownTypeName : String := "<unknown>"

namespace Ty

/-! ### The text of a type -/

/-- The arguments in angle brackets, if there are any. -/
def argumentText (t : Ty) : String :=
  if t.arguments.isEmpty then ""
  else "<" ++ ", ".intercalate (t.arguments.map Ty.canonicalName) ++ ">"

/-- The mark of a type that admits null. -/
def nullableText (t : Ty) : String := if t.nullable then "?" else ""

/-- The text of a type. A projection names one bound, the lower one first; a class
without a qualified name goes by its simple name. -/
def render (t : Ty) : String :=
  match t.form with
  | .unknown => unknownTypeName
  | .wildcard =>
    match t.lowerBounds, t.upperBounds with
    | lower :: _, _ => "in " ++ lower.canonicalName
    | [], upper :: _ => "out " ++ upper.canonicalName
    | [], [] => "*"
  | .variable parameter => parameter.name ++ t.nullableText
  | .declared element _ =>
    t.qualifiedName.getD element.header.simpleName ++ t.argumentText ++ t.nullableText
  | .primitive | .array _ | .noType =>
    t.qualifiedName.getD unknownTypeName ++ t.argumentText ++ t.nullableText

/-- The type with the text that fits it. -/
def rendered (t : Ty) : Ty := { t with canonicalName := t.render }

/-! ### Putting types together -/

/-- A type without text, arguments, bounds or anything else. -/
def bare (kind : TypeKind) (qualifiedName : Option String) (form : TyForm) : Ty where
  kind
  canonicalName := ""
  qualifiedName
  nullable := false
  arguments := []
  upperBounds := []
  lowerBounds := []
  declaration := none
  annotations := []
  form

/-- The type that stands for one that was not found. -/
def unknown : Ty := (bare .other none .unknown).rendered

/-- The bottom type for its own kind, the type of one value for every other kind. -/
def noType (kind : TypeKind) : Ty :=
  match kind with
  | .nothing => (bare .nothing (some Builtin.nothing) .noType).rendered
  | _ => (bare .unit (some Builtin.unit) .noType).rendered

/-- A primitive type. -/
def ofPrimitive (p : Primitive) : Ty :=
  (bare (.primitive p) (some p.name) .primitive).rendered

/-- The primitive type of a kind; a kind that is not primitive has none. -/
def primitive (kind : TypeKind) : Ty :=
  match kind.primitive? with
  | some p => ofPrimitive p
  | none => unknown

/-- The type of a class with given arguments. -/
def declared (element : ClassElement) (arguments : List Ty) : Ty :=
  { bare .declared element.header.qualifiedName (.declared element none) with arguments }.rendered

/-- The type of arrays of a component type. -/
def array (component : Ty) : Ty :=
  { bare .array (some Builtin.array) (.array component) with arguments := [component] }.rendered

/-- The type that a type parameter stands for. -/
def typeVariable (parameter : TypeParameter) : Ty :=
  { bare .variable none (.variable parameter) with upperBounds := parameter.bounds }.rendered

/-- A projection; without bounds it stands for any type. -/
def wildcard (upper lower : Option Ty) : Ty :=
  { bare .wildcard none .wildcard with
    upperBounds := upper.toList, lowerBounds := lower.toList }.rendered

/-- The top type. -/
def any : Ty := declared (.named Builtin.any .classType) []

/-- The type with null admitted or not. -/
def withNullable (t : Ty) (nullable : Bool) : Ty := { t with nullable }.rendered

instance : Inhabited Ty := ⟨unknown⟩

/-! ### Questions -/

/-- Whether the type is primitive. -/
def isPrimitive (t : Ty) : Bool := t.kind.isPrimitive

/-- Whether the type is an array. -/
def isArray (t : Ty) : Bool := t.kind == .array

/-- Whether the type has arguments. -/
def isGeneric (t : Ty) : Bool := !t.arguments.isEmpty

/-- Whether the type is a projection. -/
def isWildcard (t : Ty) : Bool := t.kind == .wildcard

/-- Whether the type stands for a type parameter. -/
def isVariable (t : Ty) : Bool := t.kind == .variable

/-- Whether the type was not found. -/
def isUnknown (t : Ty) : Bool :=
  match t.form with
  | .unknown => true
  | _ => false

/-- The class of a declared type. -/
def classElement? (t : Ty) : Option ClassElement :=
  match t.form with
  | .declared element _ => some element
  | _ => none

/-- The type that a declared type is nested in. -/
def enclosing? (t : Ty) : Option Ty :=
  match t.form with
  | .declared _ enclosing => enclosing
  | _ => none

/-- The component type of an array. -/
def component? (t : Ty) : Option Ty :=
  match t.form with
  | .array component => some component
  | _ => none

end Ty
end SymbolGraph
