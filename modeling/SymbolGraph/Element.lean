/-
# Elements, types and annotations

The model that an annotation processor works on. An element stands for a
declaration; a type has an element behind it and may have types as arguments
and bounds; an annotation has a type and values, and a value may hold a type,
an element or another annotation. So all of them are one family. A stub is an
element reduced to its identity: it ends the references that lead back up.

Nothing in the family restricts how its members are put together. A tree is
finite whatever the declarations behind it refer to.

Key definitions: `Stub`, `Element`, `Header`, `ClassElement`, `Callable`,
`Variable`, `Property`, `TypeParameter`, `Ty`, `TyForm`, `Annotation`, `Value`.
-/
import SymbolGraph.Element.Kind

namespace SymbolGraph

/-- The source file an element is declared in, by name only. -/
structure FileRef where
  fileName : String
  filePath : String
  packageName : String
  deriving DecidableEq, Repr, Inhabited

/-- The identity of an element. -/
structure Stub where
  simpleName : String
  qualifiedName : Option String
  kind : ElementKind
  packageName : Option String
  modifiers : ModifierSet
  deriving DecidableEq, Repr, Inhabited

mutual

/-- An element of the model. -/
inductive Element
  | classLike (element : ClassElement)
  | callable (element : Callable)
  | variable (element : Variable)
  | property (element : Property)
  | typeParameter (element : TypeParameter)
  | stub (identity : Stub)

/-- What every element but a stub carries. -/
structure Header where
  simpleName : String
  qualifiedName : Option String
  kind : ElementKind
  packageName : Option String
  /-- The element around this one. -/
  enclosing : Option Element
  /-- The elements inside this one, in order. -/
  enclosed : List Element
  annotations : List Annotation
  modifiers : ModifierSet
  documentation : Option String
  sourceFile : Option FileRef
  /-- Whether the types in the element's signature were found. -/
  valid : Bool

/-- A class, interface, object, enum, enum entry or annotation class. -/
structure ClassElement where
  header : Header
  kind : ClassKind
  superclass : Option Ty
  interfaces : List Ty
  typeParameters : List TypeParameter
  companion : Option ClassElement
  /-- The qualified names of all types above this one, the nearer ones first. -/
  allSupertypes : List String
  isInner : Bool
  isLocal : Bool
  isAnonymous : Bool
  isCompanion : Bool

/-- A function, constructor or property accessor. -/
structure Callable where
  header : Header
  returnType : Ty
  parameters : List Variable
  typeParameters : List TypeParameter
  thrownTypes : List Ty
  /-- The type that an extension function extends. -/
  receiverType : Option Ty
  isVarargs : Bool
  isAbstract : Bool
  /-- Whether it stands in an interface and has a body. -/
  isDefault : Bool
  isSuspend : Bool
  isInline : Bool
  isOperator : Bool
  isInfix : Bool

/-- A field or parameter. -/
structure Variable where
  header : Header
  type : Ty
  kind : VariableKind
  constantValue : Option Value
  isMutable : Bool
  isConst : Bool
  isLateinit : Bool
  /-- Whether a parameter may be left out. -/
  hasDefault : Bool

/-- A property with its accessors and its backing field. -/
structure Property where
  header : Header
  type : Ty
  constantValue : Option Value
  isMutable : Bool
  isConst : Bool
  isLateinit : Bool
  getter : Option Callable
  setter : Option Callable
  backingField : Option Variable
  hasCustomGetter : Bool
  hasCustomSetter : Bool
  /-- The text of the expression the property is delegated to. -/
  delegate : Option String
  receiverType : Option Ty

/-- A type parameter of a class or a function. -/
structure TypeParameter where
  header : Header
  bounds : List Ty
  variance : Variance
  isReified : Bool

/-- A type. -/
structure Ty where
  kind : TypeKind
  /-- The type as a text. -/
  canonicalName : String
  qualifiedName : Option String
  nullable : Bool
  arguments : List Ty
  upperBounds : List Ty
  lowerBounds : List Ty
  /-- The element that declares the type. -/
  declaration : Option Element
  annotations : List Annotation
  form : TyForm

/-- What a type consists of. -/
inductive TyForm
  | primitive
  | array (component : Ty)
  /-- A class, and the type it is nested in. -/
  | declared (element : ClassElement) (enclosing : Option Ty)
  | variable (parameter : TypeParameter)
  /-- Some type between the bounds. -/
  | wildcard
  | noType
  /-- A type nobody could find. -/
  | unknown

/-- An annotation on an element or a type. -/
structure Annotation where
  type : Ty
  simpleName : String
  qualifiedName : Option String
  /-- The arguments by name, in the order of their declaration. -/
  arguments : List (String × Value)

/-- A constant value. -/
inductive Value
  | string (text : String)
  | literal (value : Literal)
  /-- An entry of an enum, with the enum's type. -/
  | enumConstant (type : Ty) (constant : Element)
  /-- A class, by name only. -/
  | classLiteral (qualifiedName simpleName : String)
  | array (values : List Value)
  | nested (content : Annotation)
  /-- A null, or a reference nobody could find. -/
  | unknown (text : String)

end

/-- The word for what sort of element an element is. -/
def Element.label : Element → String
  | .classLike _ => "Type"
  | .callable _ => "Executable"
  | .variable _ => "Variable"
  | .property _ => "Property"
  | .typeParameter _ => "TypeParameter"
  | .stub _ => "Stub"

/-- The word for what a type consists of. -/
def TyForm.label : TyForm → String
  | .primitive => "Primitive"
  | .array _ => "Array"
  | .declared _ _ => "Declared"
  | .variable _ => "TypeVariable"
  | .wildcard => "Wildcard"
  | .noType => "NoType"
  | .unknown => "Unknown"

/-- A header of a name and a kind, with nothing else known. -/
def Header.plain (simpleName : String) (kind : ElementKind) : Header where
  simpleName
  qualifiedName := none
  kind
  packageName := none
  enclosing := none
  enclosed := []
  annotations := []
  modifiers := .empty
  documentation := none
  sourceFile := none
  valid := true

instance : Inhabited Element := ⟨.stub default⟩
instance : Inhabited Header := ⟨.plain "" .other⟩

end SymbolGraph
