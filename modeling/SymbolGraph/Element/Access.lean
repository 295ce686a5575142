/-
# Asking elements

What every element can be asked, whatever it stands for. A stub knows its
identity and nothing else; it claims no signature, so it is always valid. An
annotation is looked up by its qualified name where the name has a dot, and by
its simple name where it has none.

Key definitions: `Element.header?`, `Element.toStub`, `Annotation.isNamed`,
`Element.annotationNamed?`, `Annotation.argument?`.
-/
import SymbolGraph.Element

namespace SymbolGraph

/-- The identity in a header. -/
def Header.identity (h : Header) : Stub :=
  ⟨h.simpleName, h.qualifiedName, h.kind, h.packageName, h.modifiers⟩

namespace Element

/-- The header of an element; a stub has none. -/
def header? : Element → Option Header
  | .classLike e => some e.header
  | .callable e => some e.header
  | .variable e => some e.header
  | .property e => some e.header
  | .typeParameter e => some e.header
  | .stub _ => none

/-- Reduce an element to its identity. -/
def toStub : Element → Stub
  | .stub s => s
  | .classLike e => e.header.identity
  | .callable e => e.header.identity
  | .variable e => e.header.identity
  | .property e => e.header.identity
  | .typeParameter e => e.header.identity

/-- The simple name. -/
def simpleName (e : Element) : String := e.toStub.simpleName

/-- The qualified name, if the element has one. -/
def qualifiedName? (e : Element) : Option String := e.toStub.qualifiedName

/-- What the element stands for. -/
def kind (e : Element) : ElementKind := e.toStub.kind

/-- The package, unless it is the root package. -/
def packageName? (e : Element) : Option String := e.toStub.packageName

/-- The modifiers. -/
def modifiers (e : Element) : ModifierSet := e.toStub.modifiers

/-- Whether the element has a modifier. -/
def hasModifier (e : Element) (m : Modifier) : Bool := e.modifiers.contains m

/-- The element around this one. -/
def enclosing? (e : Element) : Option Element := e.header?.bind (·.enclosing)

/-- The elements inside this one. -/
def enclosed (e : Element) : List Element :=
  match e.header? with
  | some h => h.enclosed
  | none => []

/-- The annotations on the element. -/
def annotations (e : Element) : List Annotation :=
  match e.header? with
  | some h => h.annotations
  | none => []

/-- The documentation. -/
def documentation? (e : Element) : Option String := e.header?.bind (·.documentation)

/-- The file the element is declared in. -/
def sourceFile? (e : Element) : Option FileRef := e.header?.bind (·.sourceFile)

/-- Whether the types in the element's signature were found. -/
def isValid (e : Element) : Bool :=
  match e.header? with
  | some h => h.valid
  | none => true

/-- Whether the element is only an identity. -/
def isStub : Element → Bool
  | .stub _ => true
  | _ => false

/-- The element as a class. -/
def asClass? : Element → Option ClassElement
  | .classLike e => some e
  | _ => none

/-- The element as a function. -/
def asCallable? : Element → Option Callable
  | .callable e => some e
  | _ => none

/-- The element as a variable. -/
def asVariable? : Element → Option Variable
  | .variable e => some e
  | _ => none

/-- The element as a property. -/
def asProperty? : Element → Option Property
  | .property e => some e
  | _ => none

/-- The element as a type parameter. -/
def asTypeParameter? : Element → Option TypeParameter
  | .typeParameter e => some e
  | _ => none

end Element

/-! ### Annotations -/

namespace Annotation

/-- Whether the annotation goes by a name: a qualified one if the name has a dot,
a simple one otherwise. -/
def isNamed (a : Annotation) (name : String) : Bool :=
  if name.toList.contains '.' then a.qualifiedName == some name else a.simpleName == name

/-- The argument of a name. -/
def argument? (a : Annotation) (name : String) : Option Value := a.arguments.lookup name

/-- Whether there is an argument of a name. -/
def hasArgument (a : Annotation) (name : String) : Bool := (a.argument? name).isSome

/-- The argument of a name, or else a given value. -/
def argumentOr (a : Annotation) (name : String) (fallback : Value) : Value :=
  (a.argument? name).getD fallback

/-- The names of the arguments, in order. -/
def argumentNames (a : Annotation) : List String := a.arguments.map Prod.fst

end Annotation

namespace Value

/-- The text of a text. -/
def asText? : Value → Option String
  | .string s => some s
  | _ => none

/-- The truth value of a truth value. -/
def asBool? : Value → Option Bool
  | .literal (.boolean b) => some b
  | _ => none

/-- The number of a whole number of any width. -/
def asInt64? : Value → Option Int64
  | .literal (.byte v) => some v.toInt64
  | .literal (.short v) => some v.toInt64
  | .literal (.int v) => some v.toInt64
  | .literal (.long v) => some v
  | _ => none

/-- The values of an array. -/
def asArray? : Value → Option (List Value)
  | .array vs => some vs
  | _ => none

/-- The simple name of an entry of an enum. -/
def enumConstantName? : Value → Option String
  | .enumConstant _ c => some c.simpleName
  | _ => none

end Value

/-- The argument of a name, if it is a text. -/
def Annotation.textArgument? (a : Annotation) (name : String) : Option String :=
  (a.argument? name).bind Value.asText?

/-- The first annotation on the element that goes by a name. -/
def Element.annotationNamed? (e : Element) (name : String) : Option Annotation :=
  e.annotations.find? fun a => a.isNamed name

/-- Whether an annotation on the element goes by a name. -/
def Element.hasAnnotationNamed (e : Element) (name : String) : Bool :=
  (e.annotationNamed? name).isSome

/-! ### Functions and properties -/

namespace Callable

/-- Whether it makes a new object of its class. -/
def isConstructor (c : Callable) : Bool := c.header.kind == .constructor

/-- Whether it extends a type. -/
def isExtension (c : Callable) : Bool := c.receiverType.isSome

/-- The signature as a text: `receiver.name(parameter: Type, …): ReturnType`. -/
def signature (c : Callable) : String :=
  let receiver :=
    match c.receiverType with
    | some r => r.canonicalName ++ "."
    | none => ""
  let parameters := c.parameters.map fun p => p.header.simpleName ++ ": " ++ p.type.canonicalName
  receiver ++ c.header.simpleName ++ "(" ++ ", ".intercalate parameters ++ "): " ++
    c.returnType.canonicalName

end Callable

namespace Property

/-- Whether it is delegated. -/
def isDelegated (p : Property) : Bool := p.delegate.isSome

/-- Whether it extends a type. -/
def isExtension (p : Property) : Bool := p.receiverType.isSome

end Property

namespace TypeParameter

/-- Its name. -/
def name (p : TypeParameter) : String := p.header.simpleName

/-- The class or function that declares it. -/
def genericElement? (p : TypeParameter) : Option Element := p.header.enclosing

end TypeParameter
end SymbolGraph
