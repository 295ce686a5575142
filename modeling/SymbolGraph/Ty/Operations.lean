/-
# Erasing, comparing and substituting types

Erasure drops what a type's arguments say: a projection and a type parameter
become their first bound, an array keeps its erased component. A value of one
type can be stored where another is expected when the erased names agree, or
when the expected name is among the names above the given type; wrappers count
as their primitives there. Substitution puts types in place of type parameters
by name, and a mark that admits null on the parameter's use stays.

Key definitions: `Ty.erasedName`, `Ty.erasure`, `Ty.supertypeNames`,
`Ty.isAssignableFrom`, `Ty.boxed?`, `Ty.unboxed?`, `Ty.substitute`.
-/
import SymbolGraph.Ty

namespace SymbolGraph
namespace Ty

/-! ### Erasure -/

/-- The qualified name that is left after erasure. -/
def erasedName : Ty → String
  | { form := .variable _, upperBounds := bound :: _, .. } => bound.erasedName
  | { form := .variable _, upperBounds := [], .. } => Builtin.any
  | { form := .wildcard, upperBounds := bound :: _, .. } => bound.erasedName
  | { form := .wildcard, upperBounds := [], .. } => Builtin.any
  | { form := .unknown, .. } => unknownTypeName
  | { form := .primitive, qualifiedName, canonicalName, .. }
  | { form := .array _, qualifiedName, canonicalName, .. }
  | { form := .declared _ _, qualifiedName, canonicalName, .. }
  | { form := .noType, qualifiedName, canonicalName, .. } => qualifiedName.getD canonicalName

/-- The type without its arguments and its mark for null. -/
def withoutArguments (t : Ty) : Ty := { t with arguments := [], nullable := false }.rendered

/-- The type after erasure. -/
def erasure : Ty → Ty
  | { form := .variable _, upperBounds := bound :: _, .. } => bound.erasure
  | { form := .variable _, upperBounds := [], .. } => any
  | { form := .wildcard, upperBounds := bound :: _, .. } => bound.erasure
  | { form := .wildcard, upperBounds := [], .. } => any
  | { form := .array component, .. } => array component.erasure
  | t => t.withoutArguments

/-! ### Assignability -/

mutual

/-- The names above a type: those above its class, or the erased names of its
bounds and those above them. -/
def supertypeNames : Ty → List String
  | { form := .declared element _, .. } => element.allSupertypes
  | { form := .variable _, upperBounds, .. } => boundNames upperBounds
  | { form := .wildcard, upperBounds, .. } => boundNames upperBounds
  | _ => []

/-- The erased names of bounds, each followed by the names above it. -/
def boundNames : List Ty → List String
  | [] => []
  | bound :: bounds => bound.erasedName :: bound.supertypeNames ++ boundNames bounds

end

/-- Whether a value of type `other` can be stored where `t` is expected. A type that
was not found takes part in nothing; null goes only where it is admitted; the
bottom type goes everywhere, and everything goes to the top type. -/
def isAssignableFrom (t other : Ty) : Bool :=
  if t.isUnknown || other.isUnknown then false
  else if other.nullable && !t.nullable then false
  else if other.kind = .nothing then true
  else
    let target := Primitive.unwrap t.erasedName
    target == Builtin.any || Primitive.unwrap other.erasedName == target ||
      other.supertypeNames.any fun s => Primitive.unwrap s == target

/-- Whether a value of type `t` can be stored where `other` is expected. -/
def isAssignableTo (t other : Ty) : Bool := other.isAssignableFrom t

/-! ### Boxing -/

/-- The wrapper type of a primitive type. -/
def boxed? (t : Ty) : Option Ty :=
  t.kind.primitive?.map fun p =>
    (declared (.named p.wrapper .classType) []).withNullable t.nullable

/-- The primitive type of a wrapper type. -/
def unboxed? (t : Ty) : Option Ty :=
  (t.qualifiedName.bind Primitive.ofWrapper?).map ofPrimitive

/-! ### Substitution -/

/-- Types by the names of the type parameters they replace. -/
abbrev Bindings := List (String × Ty)

mutual

/-- Put types in place of type parameters by name, in arguments, components and
bounds. -/
def substitute (bindings : Bindings) : Ty → Ty
  | t@{ form := .variable parameter, .. } =>
    match bindings.lookup parameter.name with
    | some bound => bound.withNullable (bound.nullable || t.nullable)
    | none => t
  | { form := .array component, nullable, .. } =>
    (array (substitute bindings component)).withNullable nullable
  | { kind, canonicalName, qualifiedName, nullable, arguments, upperBounds, lowerBounds,
      declaration, annotations, form } =>
    rendered
      { kind, canonicalName, qualifiedName, nullable
        arguments := substituteAll bindings arguments
        upperBounds := substituteAll bindings upperBounds
        lowerBounds := substituteAll bindings lowerBounds
        declaration, annotations, form }

/-- Substitute in each type of a list. -/
def substituteAll (bindings : Bindings) : List Ty → List Ty
  | [] => []
  | t :: ts => substitute bindings t :: substituteAll bindings ts

end
end Ty
end SymbolGraph
