/-
# Kinds of elements and types

Small vocabularies of the element model, each with the word under which a
value is written out.

Key definitions: `ElementKind`, `ClassKind.elementKind`, `TypeKind`,
`Variance`, `VariableKind`.
-/
import SymbolGraph.Builtin
import SymbolGraph.Draft

namespace SymbolGraph

/-- What kind of declaration an element stands for. -/
inductive ElementKind
  | classType | interfaceType | enumType | annotationType | method | constructor | property
  | field | parameter | typeParameter | enumConstant | other
  deriving DecidableEq, Repr, Inhabited

namespace ElementKind

/-- Every kind. -/
def all : List ElementKind :=
  [.classType, .interfaceType, .enumType, .annotationType, .method, .constructor, .property,
   .field, .parameter, .typeParameter, .enumConstant, .other]

/-- The word for a kind. -/
def label : ElementKind → String
  | .classType => "Class"
  | .interfaceType => "Interface"
  | .enumType => "Enum"
  | .annotationType => "AnnotationType"
  | .method => "Method"
  | .constructor => "Constructor"
  | .property => "Property"
  | .field => "Field"
  | .parameter => "Parameter"
  | .typeParameter => "TypeParameter"
  | .enumConstant => "EnumConstant"
  | .other => "Other"

instance : Vocabulary ElementKind := ⟨all, label⟩

/-- Whether elements of the kind are types. -/
def isType : ElementKind → Bool
  | .classType | .interfaceType | .enumType | .annotationType => true
  | _ => false

end ElementKind

namespace ClassKind

/-- Every kind of class. -/
def all : List ClassKind :=
  [.classType, .interfaceType, .enumType, .annotationType, .object, .enumEntry]

/-- The word for a kind of class. -/
def label : ClassKind → String
  | .classType => "Class"
  | .interfaceType => "Interface"
  | .enumType => "Enum"
  | .annotationType => "AnnotationType"
  | .object => "Object"
  | .enumEntry => "EnumEntry"

instance : Vocabulary ClassKind := ⟨all, label⟩

/-- The kind of element a class is: an object counts as a class, and an entry of
an enum as a constant. -/
def elementKind : ClassKind → ElementKind
  | .classType | .object => .classType
  | .interfaceType => .interfaceType
  | .enumType => .enumType
  | .annotationType => .annotationType
  | .enumEntry => .enumConstant

end ClassKind

/-- What sort of type a type is. -/
inductive TypeKind
  | primitive (p : Primitive)
  | unit
  /-- The bottom type. -/
  | nothing
  | array | declared | variable | wildcard | other
  deriving DecidableEq, Repr, Inhabited

namespace TypeKind

/-- Every sort of type. -/
def all : List TypeKind :=
  Primitive.all.map .primitive ++ [.unit, .nothing, .array, .declared, .variable, .wildcard, .other]

/-- The word for a sort of type. -/
def label : TypeKind → String
  | .primitive .boolean => "Boolean"
  | .primitive .byte => "Byte"
  | .primitive .short => "Short"
  | .primitive .int => "Int"
  | .primitive .long => "Long"
  | .primitive .char => "Char"
  | .primitive .float => "Float"
  | .primitive .double => "Double"
  | .unit => "Unit"
  | .nothing => "None"
  | .array => "Array"
  | .declared => "Declared"
  | .variable => "TypeVariable"
  | .wildcard => "Wildcard"
  | .other => "Other"

instance : Vocabulary TypeKind := ⟨all, label⟩

/-- The primitive of a primitive sort. -/
def primitive? : TypeKind → Option Primitive
  | .primitive p => some p
  | _ => none

/-- Whether the sort is one of the primitives. -/
def isPrimitive (k : TypeKind) : Bool := k.primitive?.isSome

end TypeKind

/-- How a type parameter varies. -/
inductive Variance
  | invariant | covariant | contravariant
  deriving DecidableEq, Repr, Inhabited

namespace Variance

/-- Every way to vary. -/
def all : List Variance := [.invariant, .covariant, .contravariant]

/-- The word for a way to vary. -/
def label : Variance → String
  | .invariant => "Invariant"
  | .covariant => "Covariant"
  | .contravariant => "Contravariant"

instance : Vocabulary Variance := ⟨all, label⟩

/-- A star says nothing about how a type parameter varies. -/
def ofProjection : Projection → Variance
  | .covariant => .covariant
  | .contravariant => .contravariant
  | .invariant | .star => .invariant

end Variance

/-- What a variable is. -/
inductive VariableKind
  | field | parameter | localVariable
  deriving DecidableEq, Repr, Inhabited

/-- The word for what a variable is. -/
def VariableKind.label : VariableKind → String
  | .field => "Field"
  | .parameter => "Parameter"
  | .localVariable => "LocalVariable"

instance : Vocabulary VariableKind := ⟨[.field, .parameter, .localVariable], VariableKind.label⟩

end SymbolGraph
